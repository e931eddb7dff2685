import Usai.FiniteMap
import Usai.Resources.Identity
import Usai.Text
import Usai.Transition

/-! The registry of live resource managers (`resource/mod.rs`) and the calls of
the runtime that open, bind and release managers (`runtime.rs`: `bind`,
`release_unbound_resources`, `remove`). One step is one access to the shared
maps or the end of one await, so that calls interleave between any two. -/

namespace Usai.Resources

/-- What is fixed while the process runs: its environment and its providers,
each with its compatibility version. -/
structure Process (Config : Type) where
  serde : Serde Config
  digest : List Char → String
  env : Env
  providers : String → Option Nat

inductive Need where
  | unconfigured
  | unknownKind
  | manager (identity : ResourceIdentity)
  deriving DecidableEq, Repr

section

variable {Config : Type} (process : Process Config)

def isBlank (text : String) : Bool := (Text.trim Text.unicodeSpace text.toList).isEmpty

def Process.need (spec : ResourceSpec Config) : Need :=
  if process.serde.optional spec.config ∧
      spec.env.all (fun name => (process.env name).all isBlank) then .unconfigured
  else
    match process.providers spec.kind with
    | none => .unknownKind
    | some compat =>
      .manager (ResourceIdentity.compute process.serde process.digest spec process.env compat)

def Process.wants (specs : List (ResourceSpec Config)) : List ResourceIdentity :=
  specs.filterMap (fun spec =>
    match process.need spec with
    | .manager identity => some identity
    | .unconfigured | .unknownKind => none)

end

/-- A manager bound under a name. `serial` tells managers of one identity apart. -/
structure Binding where
  name : String
  identity : ResourceIdentity
  serial : Nat
  deriving DecidableEq, Repr

structure Revision (Config : Type) where
  specs : List (ResourceSpec Config)
  bound : List Binding
  activated : Bool

inductive Call (Config : Type) where
  -- `bind`, at the top of its loop and while the provider opens a manager
  | binding (revision : Nat) (activates : Bool) (remaining : List (ResourceSpec Config))
      (bound : List Binding)
  | opening (revision : Nat) (activates : Bool) (name : String) (identity : ResourceIdentity)
      (remaining : List (ResourceSpec Config)) (bound : List Binding)
  -- a retirement that has removed its revision, up to the managers it shuts down
  | retired
  | pruning (keep : List ResourceIdentity)
  | shutting (stale : List Nat)
  | returned

namespace Call

variable {Config : Type}

def acquired : Call Config → List Binding
  | .binding _ _ _ bound | .opening _ _ _ _ _ bound => bound
  | _ => []

def stale : Call Config → List Nat
  | .shutting stale => stale
  | _ => []

def midway : Call Config → Bool
  | .binding _ _ _ bound | .opening _ _ _ _ _ bound => !bound.isEmpty
  | .retired | .pruning _ | .shutting _ => true
  | .returned => false

end Call

/-- `opened` are all managers that were ever opened, by serial; `shut` those that
were shut down. -/
structure Registry (Config : Type) where
  managers : FiniteMap ResourceIdentity Nat
  opened : List ResourceIdentity
  shut : List Nat
  revisions : FiniteMap Nat (Revision Config)
  nextRevision : Nat
  calls : List (Call Config)

inductive Label (Config : Type) where
  | install (specs : List (ResourceSpec Config))
  | refuse
  | begin (revision : Nat) (activates : Bool)
  | proceed (index : Nat)
  | opened (index : Nat) (succeeds : Bool)
  /-- `drain` or the retirement in the background, up to the removal of the
  revision. Another may have removed it before. -/
  | retire (revision : Nat)
  | collect (index : Nat)
  | prune (index : Nat)
  | shutdown (index : Nat)
  | remove (revision : Nat)

namespace Registry

variable {Config : Type}

def new : Registry Config := ⟨∅, [], [], ∅, 1, []⟩

variable (process : Process Config) (registry : Registry Config)

def bound : List ResourceIdentity :=
  registry.revisions.entries.flatMap (fun entry => entry.2.bound.map Binding.identity)

def setCall (index : Nat) (call : Call Config) : Registry Config :=
  { registry with calls := registry.calls.set index call }

def finish (index : Nat) : Registry Config := registry.setCall index .returned

/-- The end of `bind`: the revision's `resources` are replaced. A revision that
is no longer held is written all the same, and nobody sees it. -/
def store (revision : Nat) (activates : Bool) (bound : List Binding) : Registry Config :=
  { registry with
    revisions := registry.revisions.modify revision
      (fun held => { held with bound, activated := held.activated || activates }) }

def proceed (index revision : Nat) (activates : Bool) (remaining : List (ResourceSpec Config))
    (bound : List Binding) : Registry Config :=
  match remaining with
  | [] => (registry.store revision activates bound).finish index
  | spec :: rest =>
    match process.need spec with
    | .unconfigured => registry.setCall index (.binding revision activates rest bound)
    | .unknownKind => registry.finish index
    | .manager identity =>
      match registry.managers.lookup identity with
      | some serial =>
        registry.setCall index
          (.binding revision activates rest (bound ++ [⟨spec.name, identity, serial⟩]))
      | none => registry.setCall index (.opening revision activates spec.name identity rest bound)

def insertOpened (identity : ResourceIdentity) : Registry Config :=
  { registry with
    managers := registry.managers.insert identity registry.opened.length
    opened := registry.opened ++ [identity] }

def staleIds (keep : List ResourceIdentity) : List ResourceIdentity :=
  registry.managers.keys.filter (fun identity => identity ∉ keep)

def step : Label Config → Option (Registry Config)
  | .install specs =>
    some { registry with
      revisions := registry.revisions.insert registry.nextRevision ⟨specs, [], false⟩
      nextRevision := registry.nextRevision + 1 }
  | .refuse => some registry
  | .begin revision activates =>
    match registry.revisions.lookup revision with
    | some held =>
      some { registry with
        calls := registry.calls ++ [.binding revision activates held.specs []] }
    | none => none
  | .proceed index =>
    match registry.calls[index]? with
    | some (.binding revision activates remaining bound) =>
      some (registry.proceed process index revision activates remaining bound)
    | _ => none
  | .opened index succeeds =>
    match registry.calls[index]? with
    | some (.opening revision activates name identity remaining bound) =>
      if succeeds then
        let binding := ⟨name, identity, registry.opened.length⟩
        some ((registry.insertOpened identity).setCall index
          (.binding revision activates remaining (bound ++ [binding])))
      else some (registry.finish index)
    | _ => none
  | .retire revision =>
    if revision < registry.nextRevision then
      some { registry with
        revisions := registry.revisions.erase revision
        calls := registry.calls ++ [.retired] }
    else none
  | .collect index =>
    match registry.calls[index]? with
    | some .retired => some (registry.setCall index (.pruning registry.bound))
    | _ => none
  | .prune index =>
    match registry.calls[index]? with
    | some (.pruning keep) =>
      let ids := registry.staleIds keep
      let pruned := { registry with managers := ids.foldl (fun map id => map.erase id) registry.managers }
      some (pruned.setCall index (.shutting (ids.filterMap registry.managers.lookup)))
    | _ => none
  | .shutdown index =>
    match registry.calls[index]? with
    | some (.shutting []) => some (registry.finish index)
    | some (.shutting (serial :: rest)) =>
      let shut := { registry with shut := registry.shut ++ [serial] }
      some (shut.setCall index (.shutting rest))
    | _ => none
  | .remove revision =>
    match registry.revisions.lookup revision with
    | some held =>
      if held.activated then none
      else some { registry with revisions := registry.revisions.erase revision }
    | none => none

end Registry

end Usai.Resources
