import Usai.Resources.Registry
import Usai.Slots

/-! Who owns the managers of the registry: that every one is bound by a held
revision, that what is bound is open, and that none is dropped without being
shut down. -/

namespace Usai.Resources

open FiniteMap List Option Registry

open Transition (Along Meets along_of_meets along_imp)
open Slots (forall_set forall_append exists_set exists_append)

variable {Config : Type} {identity : ResourceIdentity} {held : Revision Config}

section

/-- The registry holds what the held revisions bind, what they bind is open, and
a manager that left the registry was shut down. -/
structure Owned (registry : Registry Config) : Prop where
  exact : ∀ identity, (registry.managers.lookup identity).isSome = true ↔ identity ∈ registry.bound
  live : ∀ revision held, registry.revisions.lookup revision = some held →
    ∀ binding ∈ held.bound, binding.serial ∉ registry.shut
  released : ∀ serial identity, registry.opened[serial]? = some identity →
    registry.managers.lookup identity = some serial ∨ serial ∈ registry.shut

/-- What is true while calls are midway, too: what is bound is in the registry
and open, and a manager that left the registry was shut down or is about to be. -/
structure Sound (registry : Registry Config) : Prop where
  bound : ∀ revision held, registry.revisions.lookup revision = some held →
    ∀ binding ∈ held.bound,
      registry.managers.lookup binding.identity = some binding.serial ∧ binding.serial ∉ registry.shut
  released : ∀ serial identity, registry.opened[serial]? = some identity →
    registry.managers.lookup identity = some serial ∨ serial ∈ registry.shut ∨
      ∃ call ∈ registry.calls, serial ∈ call.stale

variable (process : Process Config) (registry : Registry Config)

def Registry.Quiet : Prop := ∀ call ∈ registry.calls, call.midway = false

def Registry.Covers (acquired : List Binding) : Prop :=
  ∀ binding ∈ acquired, binding.identity ∈ registry.bound

def Registry.BoundBeside (revision : Nat) (identity : ResourceIdentity) : Prop :=
  ∃ entry ∈ registry.revisions.entries, entry.1 ≠ revision ∧
    ∃ binding ∈ entry.2.bound, binding.identity = identity

/-- A bind that fails, or whose revision is gone, has acquired nothing that is
not bound; a manager is opened while there is none of its identity; a prune keeps
what is bound and acquired at that moment. -/
def Call.Orderly (succeeds : Bool) : Call Config → Prop
  | .binding revision _ [] bound =>
    registry.revisions.lookup revision = none → registry.Covers bound
  | .binding _ _ (spec :: _) bound => process.need spec = .unknownKind → registry.Covers bound
  | .opening _ _ _ identity _ bound =>
    if succeeds then registry.managers.lookup identity = none else registry.Covers bound
  | .pruning keep =>
    (∀ identity ∈ registry.bound, identity ∈ keep) ∧
      ∀ call ∈ registry.calls, ∀ binding ∈ call.acquired, binding.identity ∈ keep
  | .retired | .shutting _ | .returned => True

/-- The condition on a step: the call that moves on is orderly, and a removed
revision shares what it binds. -/
def Orderly : Label Config → Prop
  | .proceed index | .prune index =>
    ∀ call ∈ registry.calls[index]?, call.Orderly process registry true
  | .opened index succeeds =>
    ∀ call ∈ registry.calls[index]?, call.Orderly process registry succeeds
  | .remove revision =>
    ∀ held ∈ registry.revisions.lookup revision,
      ∀ binding ∈ held.bound, registry.BoundBeside revision binding.identity
  | .install _ | .refuse | .begin _ _ | .retire _ | .collect _ | .shutdown _ => True

instance : Decidable registry.Quiet := inferInstanceAs (Decidable (∀ call ∈ registry.calls, _))

instance (acquired : List Binding) : Decidable (registry.Covers acquired) :=
  inferInstanceAs (Decidable (∀ binding ∈ acquired, _))

instance (revision : Nat) (identity : ResourceIdentity) :
    Decidable (registry.BoundBeside revision identity) :=
  inferInstanceAs (Decidable (∃ entry ∈ registry.revisions.entries, _))

instance (succeeds : Bool) (call : Call Config) :
    Decidable (call.Orderly process registry succeeds) := by
  unfold Call.Orderly
  split <;> infer_instance

instance (label : Label Config) : Decidable (Orderly process registry label) := by
  unfold Orderly
  split <;> infer_instance

end

section

def Call.Prunes (identity : ResourceIdentity) : Call Config → Prop
  | .retired => True
  | .pruning keep => identity ∉ keep
  | _ => False

/-- What is bound or acquired is in the registry, what is in the registry is
open, and what is open is in the registry or about to be shut down. -/
structure Serials (registry : Registry Config) : Prop where
  sits : ∀ revision held, registry.revisions.lookup revision = some held →
    ∀ binding ∈ held.bound, registry.managers.lookup binding.identity = some binding.serial
  acquired : ∀ call ∈ registry.calls, ∀ binding ∈ call.acquired,
    registry.managers.lookup binding.identity = some binding.serial
  live : ∀ identity serial, registry.managers.lookup identity = some serial →
    registry.opened[serial]? = some identity ∧ serial ∉ registry.shut
  accounted : ∀ serial identity, registry.opened[serial]? = some identity →
    serial ∉ registry.shut →
      registry.managers.lookup identity = some serial ∨ ∃ call ∈ registry.calls, serial ∈ call.stale
  leaving : ∀ call ∈ registry.calls, ∀ serial ∈ call.stale,
    serial < registry.opened.length ∧ ∀ identity, registry.managers.lookup identity ≠ some serial
  gone : ∀ serial ∈ registry.shut, serial < registry.opened.length

/-- Every manager of the registry has an owner, or a call that will get it or
remove it. -/
def Claimed (registry : Registry Config) : Prop :=
  ∀ identity, (registry.managers.lookup identity).isSome = true →
    identity ∈ registry.bound ∨
      (∃ call ∈ registry.calls, ∃ binding ∈ call.acquired, binding.identity = identity) ∨
      ∃ call ∈ registry.calls, call.Prunes identity

def Call.Follows (process : Process Config) (registry : Registry Config) : Call Config → Prop
  | .binding revision _ remaining bound =>
    revision < registry.nextRevision ∧
      ∀ held, registry.revisions.lookup revision = some held →
        bound.map Binding.identity ++ process.wants remaining = process.wants held.specs
  | .opening revision _ _ identity remaining bound =>
    revision < registry.nextRevision ∧
      ∀ held, registry.revisions.lookup revision = some held →
        bound.map Binding.identity ++ identity :: process.wants remaining =
          process.wants held.specs
  | _ => True

/-- The environment does not change, so that a revision binds the same
identities each time. -/
structure Planned (process : Process Config) (registry : Registry Config) : Prop where
  fresh : ∀ revision held, registry.revisions.lookup revision = some held →
    revision < registry.nextRevision
  whole : ∀ revision held, registry.revisions.lookup revision = some held →
    held.bound = [] ∨ held.bound.map Binding.identity = process.wants held.specs
  follows : ∀ call ∈ registry.calls, call.Follows process registry

structure Kept (process : Process Config) (registry : Registry Config) : Prop where
  serials : Serials registry
  claimed : Claimed registry
  planned : Planned process registry

variable {process : Process Config} {registry : Registry Config}

theorem Call.Follows.mono {next : Registry Config}
    {call : Call Config} (follows : call.Follows process registry)
    (count : registry.nextRevision ≤ next.nextRevision)
    (specs : ∀ revision held, revision < registry.nextRevision →
      next.revisions.lookup revision = some held →
        ∃ was, registry.revisions.lookup revision = some was ∧ was.specs = held.specs) :
    call.Follows process next := by
  cases call with
  | binding revision _ _ _ | opening revision _ _ _ _ _ =>
    refine ⟨Nat.lt_of_lt_of_le follows.1 count, fun held found => ?_⟩
    obtain ⟨was, before, equal⟩ := specs revision held follows.1 found
    rw [← equal]
    exact follows.2 was before
  | _ => trivial

theorem mem_bound :
    identity ∈ registry.bound ↔ ∃ revision held, registry.revisions.lookup revision = some held ∧
      ∃ binding ∈ held.bound, binding.identity = identity := by
  simp only [bound, List.mem_flatMap, List.mem_map]
  constructor
  · rintro ⟨⟨revision, held⟩, member, binding, inside, same⟩
    exact ⟨revision, held, AList.mem_lookup_iff.mpr member, binding, inside, same⟩
  · rintro ⟨revision, held, found, binding, inside, same⟩
    exact ⟨⟨revision, held⟩, AList.mem_lookup_iff.mp found, binding, inside, same⟩

theorem Kept.sound (kept : Kept process registry) : Sound registry := by
  refine ⟨?_, ?_⟩
  · intro revision held found binding inside
    have sits := kept.serials.sits revision held found binding inside
    exact ⟨sits, (kept.serials.live _ _ sits).2⟩
  · intro serial identity opened
    by_cases shut : serial ∈ registry.shut
    · exact .inr (.inl shut)
    · exact (kept.serials.accounted serial identity opened shut).imp id .inr

theorem Kept.owns (kept : Kept process registry) (idle : registry.Quiet) : Owned registry := by
  have unacquired : ∀ call ∈ registry.calls, call.acquired = [] ∧ call.stale = [] := by
    intro call member
    have quiet := idle call member
    cases call <;> simp_all [Call.midway, Call.acquired, Call.stale]
  have unpruned : ∀ call ∈ registry.calls, ∀ identity, ¬ call.Prunes identity := by
    intro call member identity
    have quiet := idle call member
    cases call <;> simp_all [Call.midway, Call.Prunes]
  refine ⟨?_, ?_, ?_⟩
  · intro identity
    constructor
    · intro held
      rcases kept.claimed identity held with bound | ⟨call, member, binding, inside, -⟩ |
        ⟨call, member, prunes⟩
      · exact bound
      · rw [(unacquired call member).1] at inside
        cases inside
      · exact absurd prunes (unpruned call member identity)
    · intro member
      obtain ⟨revision, held, found, binding, inside, rfl⟩ := mem_bound.mp member
      rw [(kept.sound.bound revision held found binding inside).1]
      rfl
  · exact fun revision held found binding inside => (kept.sound.bound revision held found binding inside).2
  · intro serial identity opened
    rcases kept.sound.released serial identity opened with sits | shut | ⟨call, member, stale⟩
    · exact .inl sits
    · exact .inr shut
    · rw [(unacquired call member).2] at stale
      cases stale

end

section

/-! One call moves on; the maps stay. -/

variable {process : Process Config} {registry : Registry Config} {index : Nat}
  {before after : Call Config}

theorem Serials.replace (serials : Serials registry) (found : registry.calls[index]? = some before)
    (acquired : ∀ binding ∈ after.acquired,
      registry.managers.lookup binding.identity = some binding.serial)
    (stale : after.stale = before.stale) :
    Serials { registry with calls := registry.calls.set index after } where
  sits := serials.sits
  acquired := forall_set serials.acquired acquired
  live := serials.live
  accounted serial identity opened unshut := by
    rcases serials.accounted serial identity opened unshut with inside | leaving
    · exact .inl inside
    · exact .inr (exists_set found (fun member => stale ▸ member) leaving)
  leaving := forall_set serials.leaving
    (fun serial member => serials.leaving before (mem_of_getElem? found) serial (stale ▸ member))
  gone := serials.gone

theorem Claimed.replace (claimed : Claimed registry) (found : registry.calls[index]? = some before)
    (acquired : ∀ binding ∈ before.acquired,
      binding.identity ∈ registry.bound ∨ ∃ kept ∈ after.acquired, kept.identity = binding.identity)
    (prunes : ∀ identity, before.Prunes identity → identity ∈ registry.bound ∨ after.Prunes identity) :
    Claimed { registry with calls := registry.calls.set index after } := by
  intro identity present
  by_cases bound : identity ∈ registry.bound
  · exact .inl bound
  · rcases claimed identity present with here | holder | pruner
    · exact absurd here bound
    · refine .inr (.inl (exists_set found ?_ holder))
      rintro ⟨binding, inside, rfl⟩
      exact (acquired binding inside).resolve_left bound
    · exact .inr (.inr (exists_set found (fun was => (prunes identity was).resolve_left bound) pruner))

theorem Planned.replace (planned : Planned process registry)
    (follows : after.Follows process registry) :
    Planned process { registry with calls := registry.calls.set index after } where
  fresh := planned.fresh
  whole := planned.whole
  follows := forall_set planned.follows follows

end

section

/-! A call enters. -/

variable {registry : Registry Config} {call : Call Config}

theorem Serials.enter (serials : Serials registry) (acquired : call.acquired = [])
    (stale : call.stale = []) : Serials { registry with calls := registry.calls ++ [call] } where
  sits := serials.sits
  acquired := forall_append serials.acquired (by simp [acquired])
  live := serials.live
  accounted serial identity opened unshut :=
    (serials.accounted serial identity opened unshut).imp id exists_append
  leaving := forall_append serials.leaving (by simp [stale])
  gone := serials.gone

end

section

/-! Revisions come and go. -/

variable {process : Process Config} {registry : Registry Config}

theorem Planned.erase (planned : Planned process registry) (revision : Nat) :
    Planned process { registry with revisions := registry.revisions.erase revision } where
  fresh other held found := planned.fresh other held (of_lookup_erase found)
  whole other held found := planned.whole other held (of_lookup_erase found)
  follows call member := (planned.follows call member).mono (Nat.le_refl _)
    (fun _ held _ found => ⟨held, of_lookup_erase found, rfl⟩)

variable (kept : Kept process registry)
include kept

theorem Kept.install (specs : List (ResourceSpec Config)) :
    Kept process { registry with
      revisions := registry.revisions.insert registry.nextRevision ⟨specs, [], false⟩
      nextRevision := registry.nextRevision + 1 } := by
  have vacant : registry.revisions.lookup registry.nextRevision = none := by
    cases found : registry.revisions.lookup registry.nextRevision with
    | none => rfl
    | some held => exact absurd (kept.planned.fresh _ held found) (Nat.lt_irrefl _)
  refine ⟨?_, ?_, ?_⟩
  · refine { kept.serials with sits := ?_ }
    intro revision held found binding inside
    rcases of_lookup_insert found with ⟨-, rfl⟩ | found
    · cases inside
    · exact kept.serials.sits revision held found binding inside
  · intro identity present
    rcases kept.claimed identity present with bound | other
    · obtain ⟨revision, held, found, binding⟩ := mem_bound.mp bound
      exact .inl (mem_bound.mpr ⟨revision, held, lookup_insert_absent vacant found, binding⟩)
    · exact .inr other
  · refine ⟨?_, ?_, ?_⟩
    · intro revision held found
      rcases of_lookup_insert found with ⟨rfl, -⟩ | found
      · exact Nat.lt_succ_self _
      · exact Nat.lt_succ_of_lt (kept.planned.fresh revision held found)
    · intro revision held found
      rcases of_lookup_insert found with ⟨-, rfl⟩ | found
      · exact .inl rfl
      · exact kept.planned.whole revision held found
    · intro call member
      refine (kept.planned.follows call member).mono (Nat.le_succ _) ?_
      intro revision held older found
      rcases of_lookup_insert found with ⟨rfl, -⟩ | found
      · exact absurd older (Nat.lt_irrefl _)
      · exact ⟨held, found, rfl⟩

theorem Kept.begin (found : registry.revisions.lookup revision = some held) (activates : Bool) :
    Kept process { registry with
      calls := registry.calls ++ [.binding revision activates held.specs []] } := by
  refine ⟨?_, ?_, ?_⟩
  · exact kept.serials.enter rfl rfl
  · intro identity present
    exact (kept.claimed identity present).imp id (Or.imp exists_append exists_append)
  · refine ⟨kept.planned.fresh, kept.planned.whole, ?_⟩
    refine forall_append kept.planned.follows ⟨kept.planned.fresh revision held found, ?_⟩
    intro other same
    have equal : held = other := some.inj (found.symm.trans same)
    rw [equal]
    rfl

theorem Kept.retire (revision : Nat) :
    Kept process { registry with
      revisions := registry.revisions.erase revision
      calls := registry.calls ++ [.retired] } := by
  refine ⟨?_, ?_, ?_⟩
  · have entered : Serials { registry with calls := registry.calls ++ [.retired] } :=
      kept.serials.enter rfl rfl
    refine { entered with sits := ?_ }
    exact fun other held found => kept.serials.sits other held (of_lookup_erase found)
  · -- what only this revision bound is left to its retirement
    intro identity present
    exact .inr (.inr ⟨.retired, mem_append_right _ mem_cons_self, trivial⟩)
  · have planned := kept.planned.erase revision
    exact ⟨planned.fresh, planned.whole, forall_append planned.follows trivial⟩

theorem Kept.remove (shared : ∀ held, registry.revisions.lookup revision = some held →
      ∀ binding ∈ held.bound, registry.BoundBeside revision binding.identity) :
    Kept process { registry with revisions := registry.revisions.erase revision } := by
  refine ⟨?_, ?_, ?_⟩
  · refine { kept.serials with sits := ?_ }
    exact fun other held found => kept.serials.sits other held (of_lookup_erase found)
  · intro identity present
    rcases kept.claimed identity present with bound | other
    · left
      obtain ⟨owner, held, found, binding, inside, rfl⟩ := mem_bound.mp bound
      have beside : registry.BoundBeside revision binding.identity := by
        by_cases same : owner = revision
        · exact shared held (same ▸ found) binding inside
        · exact ⟨⟨owner, held⟩, AList.mem_lookup_iff.mp found, same, binding, inside, rfl⟩
      obtain ⟨⟨other, kept'⟩, listed, differs, entry⟩ := beside
      refine mem_bound.mpr ⟨other, kept', ?_, entry⟩
      rw [lookup_erase_eq, if_neg differs]
      exact AList.mem_lookup_iff.mpr listed
    · exact .inr other
  · exact kept.planned.erase revision

end

section

/-! One turn of `bind`. -/

variable {process : Process Config} {registry : Registry Config} {index : Nat}
  {spec : ResourceSpec Config}

theorem wants_cons_manager
    (need : process.need spec = .manager identity) (rest : List (ResourceSpec Config)) :
    process.wants (spec :: rest) = identity :: process.wants rest := by
  simp only [Process.wants]
  rw [filterMap_cons_some]
  rw [need]

theorem wants_cons_unconfigured
    (need : process.need spec = .unconfigured) (rest : List (ResourceSpec Config)) :
    process.wants (spec :: rest) = process.wants rest := by
  simp only [Process.wants]
  rw [filterMap_cons_none]
  rw [need]

variable (kept : Kept process registry)
include kept

theorem Kept.setCall {before after : Call Config}
    (found : registry.calls[index]? = some before)
    (held : ∀ binding ∈ after.acquired,
      registry.managers.lookup binding.identity = some binding.serial)
    (grows : ∀ binding ∈ before.acquired, binding ∈ after.acquired)
    (stale : after.stale = before.stale)
    (prunes : ∀ identity, before.Prunes identity → identity ∈ registry.bound ∨ after.Prunes identity)
    (follows : after.Follows process registry) : Kept process (registry.setCall index after) where
  serials := kept.serials.replace found held stale
  claimed := kept.claimed.replace found
    (fun binding inside => .inr ⟨binding, grows binding inside, rfl⟩) prunes
  planned := kept.planned.replace follows

theorem Kept.finish
    (found : registry.calls[index]? = some before) (covers : registry.Covers before.acquired)
    (stale : before.stale = []) (prunes : ∀ identity, ¬ before.Prunes identity) : Kept process (registry.finish index) where
  serials := kept.serials.replace found nofun stale.symm
  claimed := kept.claimed.replace found (fun binding inside => .inl (covers binding inside))
    (fun identity was => absurd was (prunes identity))
  planned := kept.planned.replace trivial

variable {revision : Nat} {activates : Bool} {bound : List Binding}
  {remaining : List (ResourceSpec Config)}

theorem Kept.store
    (found : registry.calls[index]? = some (.binding revision activates [] bound))
    (here : registry.revisions.lookup revision = some held) :
    Kept process (registry.store revision activates bound) ∧
      (registry.store revision activates bound).Covers bound := by
  have member := mem_of_getElem? found
  have follows := (kept.planned.follows _ member).2 held here
  simp only [Process.wants, filterMap_nil, append_nil] at follows
  have lookup : ∀ other kept', (registry.store revision activates bound).revisions.lookup other =
      some kept' → (other = revision ∧ kept'.bound = bound ∧ kept'.specs = held.specs) ∨
        registry.revisions.lookup other = some kept' := by
    intro other kept' same
    simp only [Registry.store, lookup_modify, here] at same
    split at same
    · rename_i equal
      cases same
      exact .inl ⟨equal, rfl, rfl⟩
    · exact .inr same
  have covers : (registry.store revision activates bound).Covers bound := by
    intro binding inside
    refine mem_bound.mpr ⟨revision, { held with bound, activated := held.activated || activates }, ?_,
      binding, inside, rfl⟩
    simp only [Registry.store, lookup_modify, here, if_pos]
    rfl
  refine ⟨⟨?_, ?_, ?_⟩, covers⟩
  · refine { kept.serials with sits := ?_ }
    intro other kept' same binding inside
    rcases lookup other kept' same with ⟨-, equal, -⟩ | same
    · exact kept.serials.acquired _ member binding (equal ▸ inside)
    · exact kept.serials.sits other kept' same binding inside
  · intro identity sits
    rcases kept.claimed identity sits with was | other
    · left
      obtain ⟨owner, kept', same, binding, inside, rfl⟩ := mem_bound.mp was
      by_cases own : owner = revision
      · -- what the revision bound is what its declarations want, as is what it binds now
        subst own
        have equal : held = kept' := some.inj (here.symm.trans same)
        subst equal
        rcases kept.planned.whole owner held here with empty | whole
        · rw [empty] at inside
          cases inside
        · have again : binding.identity ∈ bound.map Binding.identity := by
            rw [follows]
            change binding.identity ∈ process.wants held.specs
            rw [← whole]
            exact mem_map_of_mem inside
          obtain ⟨now, inside', equal⟩ := mem_map.mp again
          rw [← equal]
          exact covers now inside'
      · refine mem_bound.mpr ⟨owner, kept', ?_, binding, inside, rfl⟩
        simp only [Registry.store, lookup_modify, if_neg own]
        exact same
    · exact .inr other
  · have specs : ∀ other kept', (registry.store revision activates bound).revisions.lookup other =
        some kept' → ∃ was, registry.revisions.lookup other = some was ∧ was.specs = kept'.specs := by
      intro other kept' same
      rcases lookup other kept' same with ⟨rfl, -, equal⟩ | same
      · exact ⟨held, here, equal.symm⟩
      · exact ⟨kept', same, rfl⟩
    refine ⟨?_, ?_, ?_⟩
    · intro other kept' same
      obtain ⟨was, before, -⟩ := specs other kept' same
      exact kept.planned.fresh other was before
    · intro other kept' same
      rcases lookup other kept' same with ⟨-, equal, declared⟩ | same
      · right
        rw [equal, declared]
        exact follows
      · exact kept.planned.whole other kept' same
    · intro call inside
      exact (kept.planned.follows call inside).mono (Nat.le_refl _)
        (fun other kept' _ same => specs other kept' same)

theorem Kept.proceed
    (found : registry.calls[index]? = some (.binding revision activates remaining bound))
    (orderly : (Call.binding revision activates remaining bound).Orderly process registry true) :
    Kept process (registry.proceed process index revision activates remaining bound) := by
  have member := mem_of_getElem? found
  have acquired := kept.serials.acquired _ member
  have follows := kept.planned.follows _ member
  cases remaining with
  | nil =>
    cases here : registry.revisions.lookup revision with
    | none =>
      have unchanged : registry.store revision activates bound = registry := by
        simp only [Registry.store, FiniteMap.modify, here]
      rw [proceed, unchanged]
      exact kept.finish found (orderly here) rfl (fun _ => id)
    | some =>
      obtain ⟨stored, covers⟩ := kept.store found here
      exact stored.finish found covers rfl (fun _ => id)
  | cons spec _ =>
    cases need : process.need spec with
    | unconfigured =>
      rw [Call.Follows, wants_cons_unconfigured need] at follows
      simp only [proceed, need]
      exact kept.setCall found acquired (fun _ => id) rfl (fun _ => False.elim) follows
    | unknownKind =>
      simp only [proceed, need]
      exact kept.finish found (orderly need) rfl (fun _ => id)
    | manager identity =>
      rw [Call.Follows, wants_cons_manager need] at follows
      cases sits : registry.managers.lookup identity with
      | none =>
        simp only [proceed, need, sits]
        exact kept.setCall found acquired (fun _ => id) rfl (fun _ => False.elim) follows
      | some =>
        simp only [proceed, need, sits]
        refine kept.setCall found ?_ (fun _ => mem_append_left _) rfl (fun _ => False.elim) ?_
        · intro binding inside
          rcases mem_append.mp inside with before | single
          · exact acquired binding before
          · rw [mem_singleton.mp single]
            exact sits
        · refine ⟨follows.1, fun held here => ?_⟩
          rw [← follows.2 held here]
          simp

theorem Kept.opened (found : registry.calls[index]? =
      some (.opening revision activates name identity remaining bound))
    (absent : registry.managers.lookup identity = none) :
    Kept process ((registry.insertOpened identity).setCall index
      (.binding revision activates remaining
        (bound ++ [⟨name, identity, registry.opened.length⟩]))) := by
  have member := mem_of_getElem? found
  have follows := kept.planned.follows _ member
  -- no manager of another identity is touched, and this identity had none
  have older : ∀ other serial, registry.managers.lookup other = some serial →
      (registry.managers.insert identity registry.opened.length).lookup other = some serial :=
    fun _ _ => lookup_insert_absent absent
  have last : (registry.opened ++ [identity])[registry.opened.length]? = some identity := by simp
  have stays : registry.opened.length < (registry.opened ++ [identity]).length := by simp
  refine ⟨⟨?_, ?_, ?_, ?_, ?_, ?_⟩, ?_, ?_⟩
  · exact fun other held here binding inside =>
      older _ _ (kept.serials.sits other held here binding inside)
  · refine forall_set (fun call inside binding here =>
      older _ _ (kept.serials.acquired call inside binding here)) ?_
    intro binding inside
    rcases mem_append.mp inside with before | single
    · exact older _ _ (kept.serials.acquired _ member binding before)
    · rw [mem_singleton.mp single]
      exact (lookup_insert_eq _ _ _ _).trans (if_pos rfl)
  · intro other serial sits
    rcases of_lookup_insert sits with ⟨rfl, rfl⟩ | sits
    · exact ⟨last, fun shut => Nat.lt_irrefl _ (kept.serials.gone _ shut)⟩
    · have was := kept.serials.live other serial sits
      have inside := (List.getElem?_eq_some_iff.mp was.1).1
      exact ⟨(getElem?_append_left inside).trans was.1, was.2⟩
  · intro serial other opened unshut
    rcases Slots.of_getElem?_append opened with was | ⟨rfl, rfl⟩
    · exact (kept.serials.accounted serial other was unshut).imp (older other serial)
        (exists_set found id)
    · exact .inl ((lookup_insert_eq _ _ _ _).trans (if_pos rfl))
  · refine forall_set (fun call inside serial stale => ?_) nofun
    have was := kept.serials.leaving call inside serial stale
    refine ⟨Nat.lt_trans was.1 stays, fun other sits => ?_⟩
    rcases of_lookup_insert sits with ⟨-, rfl⟩ | sits
    · exact Nat.lt_irrefl _ was.1
    · exact was.2 other sits
  · exact fun serial shut => Nat.lt_trans (kept.serials.gone serial shut) stays
  · intro other present
    obtain ⟨_, sits⟩ := isSome_iff_exists.mp present
    rcases of_lookup_insert sits with ⟨rfl, rfl⟩ | sits
    · have inside := (List.getElem?_eq_some_iff.mp found).1
      exact .inr (.inl ⟨_, mem_set inside _, ⟨name, other, registry.opened.length⟩,
        mem_append_right _ mem_cons_self, rfl⟩)
    · refine (kept.claimed other (by rw [sits]; rfl)).imp id (Or.imp (exists_set found ?_)
        (exists_set found id))
      rintro ⟨binding, inside, same⟩
      exact ⟨binding, mem_append_left _ inside, same⟩
  · refine ⟨kept.planned.fresh, kept.planned.whole, forall_set kept.planned.follows ?_⟩
    refine ⟨follows.1, fun held here => ?_⟩
    rw [← follows.2 held here]
    simp

end

section

/-! A retirement shuts down what nobody binds. -/

variable {process : Process Config} {registry : Registry Config} {index : Nat}
  {keep : List ResourceIdentity}

theorem pruned_lookup (registry : Registry Config) (keep : List ResourceIdentity)
    (identity : ResourceIdentity) (serial : Nat) :
    ((registry.staleIds keep).foldl (fun map id => map.erase id) registry.managers).lookup identity =
        some serial ↔
      registry.managers.lookup identity = some serial ∧ identity ∈ keep := by
  rw [lookup_foldl_erase]
  split
  · rename_i stale
    have outside := (mem_filter.mp stale).2
    simp only [decide_eq_true_eq] at outside
    simp [outside]
  · rename_i fresh
    refine ⟨fun sits => ⟨sits, ?_⟩, And.left⟩
    by_contra outside
    refine fresh (mem_filter.mpr ⟨?_, by simpa using outside⟩)
    exact AList.mem_keys.mp (mem_of_lookup sits)

theorem pruned_serial :
    serial ∈ (registry.staleIds keep).filterMap registry.managers.lookup ↔
      ∃ identity, registry.managers.lookup identity = some serial ∧ identity ∉ keep := by
  simp only [mem_filterMap, staleIds, mem_filter, decide_eq_true_eq]
  constructor
  · rintro ⟨identity, ⟨-, outside⟩, sits⟩
    exact ⟨identity, sits, outside⟩
  · rintro ⟨identity, sits, outside⟩
    exact ⟨identity, ⟨AList.mem_keys.mp (mem_of_lookup sits), outside⟩, sits⟩

variable (kept : Kept process registry)
include kept

theorem Kept.prune
    (found : registry.calls[index]? = some (.pruning keep))
    (bound : ∀ identity ∈ registry.bound, identity ∈ keep)
    (acquired : ∀ call ∈ registry.calls, ∀ binding ∈ call.acquired, binding.identity ∈ keep) :
    Kept process { registry with
      managers := (registry.staleIds keep).foldl (fun map id => map.erase id) registry.managers
      calls := registry.calls.set index
        (.shutting ((registry.staleIds keep).filterMap registry.managers.lookup)) } := by
  refine ⟨⟨?_, ?_, ?_, ?_, ?_, kept.serials.gone⟩, ?_,
    ⟨kept.planned.fresh, kept.planned.whole, forall_set kept.planned.follows trivial⟩⟩
  · intro revision held here binding inside
    refine (pruned_lookup _ _ _ _).mpr ⟨kept.serials.sits revision held here binding inside, ?_⟩
    exact bound _ (mem_bound.mpr ⟨revision, held, here, binding, inside, rfl⟩)
  · refine forall_set (fun call member binding inside => ?_) nofun
    exact (pruned_lookup _ _ _ _).mpr
      ⟨kept.serials.acquired call member binding inside, acquired call member binding inside⟩
  · intro identity serial sits
    exact kept.serials.live identity serial ((pruned_lookup _ _ _ _).mp sits).1
  · intro serial identity opened unshut
    rcases kept.serials.accounted serial identity opened unshut with sits | leaving
    · by_cases inside : identity ∈ keep
      · exact .inl ((pruned_lookup _ _ _ _).mpr ⟨sits, inside⟩)
      · have position := (List.getElem?_eq_some_iff.mp found).1
        exact .inr ⟨_, mem_set position _, pruned_serial.mpr ⟨identity, sits, inside⟩⟩
    · exact .inr (exists_set found nofun leaving)
  · refine forall_set (fun call member serial stale => ?_) (fun serial stale => ?_)
    · have was := kept.serials.leaving call member serial stale
      exact ⟨was.1, fun identity sits => was.2 identity ((pruned_lookup _ _ _ _).mp sits).1⟩
    · obtain ⟨identity, sits, outside⟩ := pruned_serial.mp stale
      have opened := (kept.serials.live identity serial sits).1
      refine ⟨(List.getElem?_eq_some_iff.mp opened).1, fun other sits' => ?_⟩
      obtain ⟨before, inside⟩ := (pruned_lookup _ _ _ _).mp sits'
      have same : identity = other :=
        some.inj (opened.symm.trans (kept.serials.live other serial before).1)
      exact outside (same ▸ inside)
  · intro identity present
    obtain ⟨_, sits⟩ := isSome_iff_exists.mp present
    obtain ⟨before, inside⟩ := (pruned_lookup _ _ _ _).mp sits
    refine (kept.claimed identity (by rw [before]; rfl)).imp id (Or.imp (exists_set found ?_)
      (exists_set found (fun outside => absurd inside outside)))
    rintro ⟨_, none, -⟩
    cases none

theorem Kept.shutdown (found : registry.calls[index]? = some (.shutting (serial :: rest))) :
    Kept process { registry with
      shut := registry.shut ++ [serial]
      calls := registry.calls.set index (.shutting rest) } := by
  have leaving := kept.serials.leaving _ (mem_of_getElem? found)
  refine ⟨⟨kept.serials.sits, ?_, ?_, ?_, ?_, ?_⟩, ?_,
    ⟨kept.planned.fresh, kept.planned.whole, forall_set kept.planned.follows trivial⟩⟩
  · exact forall_set kept.serials.acquired nofun
  · intro identity other sits
    have was := kept.serials.live identity other sits
    refine ⟨was.1, fun shut => ?_⟩
    rcases mem_append.mp shut with before | single
    · exact was.2 before
    · rw [mem_singleton.mp single] at sits
      exact (leaving serial mem_cons_self).2 identity sits
  · intro other identity opened unshut
    have before : other ∉ registry.shut := fun shut => unshut (mem_append_left _ shut)
    have differs : other ≠ serial := by
      rintro rfl
      exact unshut (mem_append_right _ mem_cons_self)
    refine (kept.serials.accounted other identity opened before).imp id (exists_set found ?_)
    exact fun stale => (mem_cons.mp stale).resolve_left differs
  · refine forall_set kept.serials.leaving (fun other stale => ?_)
    exact leaving other (mem_cons_of_mem _ stale)
  · intro other shut
    rcases mem_append.mp shut with before | single
    · exact kept.serials.gone other before
    · rw [mem_singleton.mp single]
      exact (leaving serial mem_cons_self).1
  · exact kept.claimed.replace found nofun (fun _ => False.elim)

end

section

variable {process : Process Config}

theorem new_kept (process : Process Config) : Kept process (new : Registry Config) := by
  refine ⟨⟨nofun, nofun, nofun, nofun, nofun, nofun⟩, ?_, nofun, nofun, nofun⟩
  intro identity present
  cases present

theorem step_kept {registry next : Registry Config}
    (kept : Kept process registry) (orderly : Orderly process registry label)
    (step : registry.step process label = some next) : Kept process next := by
  cases label with
  | install specs =>
    cases step
    exact kept.install specs
  | refuse =>
    cases step
    exact kept
  | begin revision activates =>
    cases found : registry.revisions.lookup revision with
    | none => simp only [Registry.step, found] at step; cases step
    | some =>
      simp only [Registry.step, found] at step
      cases step
      exact kept.begin found activates
  | proceed =>
    simp only [Registry.step] at step
    split at step <;> cases step
    rename_i found
    exact kept.proceed found (orderly _ found)
  | opened _ succeeds =>
    simp only [Registry.step] at step
    split at step
    · rename_i found
      have here := orderly _ found
      cases succeeds with
      | true =>
        cases step
        exact kept.opened found here
      | false =>
        cases step
        exact kept.finish found here rfl (fun _ => id)
    · cases step
  | retire revision =>
    obtain ⟨_, rfl⟩ := ite_some_none_eq_some.mp step
    exact kept.retire revision
  | collect =>
    simp only [Registry.step] at step
    split at step <;> cases step
    rename_i found
    refine kept.setCall found nofun
      nofun rfl ?_ trivial
    exact fun identity _ => Classical.em _
  | prune =>
    simp only [Registry.step] at step
    split at step <;> cases step
    rename_i found
    have here := orderly _ found
    exact kept.prune found here.1 here.2
  | shutdown =>
    simp only [Registry.step] at step
    split at step <;> cases step
    · rename_i found
      exact kept.finish found nofun rfl (fun _ => id)
    · rename_i found
      exact kept.shutdown found
  | remove =>
    simp only [Registry.step] at step
    split at step
    · split at step <;> cases step
      exact kept.remove orderly
    · cases step

/-- In every run whose steps meet the condition, every state is sound, and the
registry is owned whenever no call is midway. -/
theorem registry_owned (process : Process Config) (labels : List (Label Config))
    (orderly : Meets (Registry.step process) (Orderly process) Registry.new labels) :
    Along (Registry.step process) (fun registry => Sound registry ∧ (registry.Quiet → Owned registry))
      Registry.new labels := by
  have kept := along_of_meets (fun _ _ _ kept orderly step => step_kept kept orderly step)
    (new_kept process) orderly
  exact along_imp (fun _ kept => ⟨kept.sound, kept.owns⟩) kept

end

def databases : Process Unit where
  serde := emptyObjects
  digest _ := ""
  env := deployment none
  providers kind := if kind = "postgres" then some 1 else none

def reportsDatabase : ResourceSpec Unit := ⟨"reports", "postgres", (), ["REPORTS_URL"]⟩

def handover : List (Label Unit) :=
  [.install [mainDatabase], .begin 1 true, .proceed 0, .opened 0 true, .proceed 0,
    .install [reportsDatabase], .begin 2 true, .proceed 1, .opened 1 true, .proceed 1,
    .retire 1, .collect 2, .prune 2, .shutdown 2, .shutdown 2]

theorem registry_owned_handover :
    Meets (Registry.step databases) (Orderly databases) Registry.new handover ∧
      Along (Registry.step databases) (fun registry => Sound registry ∧ (registry.Quiet → Owned registry))
        Registry.new handover := by
  refine ⟨?orderly, registry_owned databases handover ?orderly⟩
  decide

def failedBind : List (Label Unit) :=
  [.install [mainDatabase, reportsDatabase], .begin 1 true, .proceed 0, .opened 0 true,
    .proceed 0, .opened 0 false]

def retiredMeanwhile : List (Label Unit) :=
  [.install [mainDatabase], .begin 1 true, .proceed 0, .opened 0 true, .proceed 0,
    .install [reportsDatabase], .begin 2 true, .proceed 1, .opened 1 true,
    .retire 1, .collect 2, .prune 2, .shutdown 2, .shutdown 2, .shutdown 2, .proceed 1]

/-- A bind that fails leaves a manager that no revision binds; a bind that
overlaps a retirement ends with a manager that was shut down. -/
theorem failed_bind_leaks_manager :
    (∃ registry, Transition.exec (Registry.step databases) Registry.new failedBind = some registry ∧
        registry.Quiet ∧ registry.bound = [] ∧
        registry.managers.lookup ⟨"postgres", "main", "", 1⟩ = some 0 ∧ ¬ Owned registry) ∧
      ∃ registry,
        Transition.exec (Registry.step databases) Registry.new retiredMeanwhile = some registry ∧
          registry.Quiet ∧
          (registry.revisions.lookup 2).map Revision.bound =
            some [⟨"reports", ⟨"postgres", "reports", "", 1⟩, 1⟩] ∧
          registry.shut = [1, 0] ∧ ¬ Owned registry := by
  constructor
  · refine ⟨_, rfl, by decide, by decide, by decide, ?_⟩
    intro owned
    have bound := (owned.exact ⟨"postgres", "main", "", 1⟩).mp (by decide)
    exact absurd bound (by decide)
  · refine ⟨_, rfl, by decide, by decide, by decide, ?_⟩
    intro owned
    have sits := (owned.exact ⟨"postgres", "reports", "", 1⟩).mpr (by decide)
    exact absurd sits (by decide)

end Usai.Resources
