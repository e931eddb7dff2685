import Usai.Transition
import Usai.Revisions.Table

/-! The runtime's calls as await-free segments. A call is the await it is
suspended at; between two segments of one call any segment of any other call
may run. -/

namespace Usai.Revisions

inductive RuntimeError where
  | engine (message : String)
  | resource (message : String)
  | unknownRevision (id : RevisionId)
  | notActive (id : RevisionId) (state : RevisionState) (reason : String)
  | missingEnv (names : String)
  | tooManyRevisions (held max : Nat)
  | invalidEnv (problems : String)
  | drainTimeout (id : RevisionId)
  | invalidDefinition
  | activeRevisionMoved (expected : Nat) (found : Option RevisionId)
  | differentApplication (serving : String) (id : RevisionId) (target : String)
  deriving DecidableEq, Repr

inductive Reply where
  | installed (id : RevisionId)
  | prepared (id : RevisionId)
  | activated (id : RevisionId)
  | drained
  | removed
  | refused (error : RuntimeError)
  | ended
  deriving DecidableEq, Repr

inductive Call where
  | compiling (definition : Definition)
  | preparing (id : RevisionId)
  | binding (id : RevisionId)
  | warming (id : RevisionId) (previous : Option RevisionId)
  | drainStopping (id : RevisionId)
  | drainWaiting (id : RevisionId)
  | retireSpawned (id : RevisionId)
  | retireStopping (id : RevisionId)
  | retireWaiting (id : RevisionId)
  | pruning (background : Bool)
  | returned (reply : Reply)
  deriving DecidableEq, Repr

/-- How the awaited future ends: with its value, with an error, or by the
timeout around it. -/
inductive Wakeup where
  | done
  | failed (error : RuntimeError)
  | expired
  deriving DecidableEq, Repr

inductive Effect where
  | none
  | insertRevision (definition : Definition)
  | swap (id : RevisionId)
  | finishActivation (id : RevisionId) (previous : Option RevisionId)
  | beginDrain (id : RevisionId)
  | stopServices (id : RevisionId)
  | retire (id : RevisionId)
  | unhold (id : RevisionId)
  | work (id : RevisionId) (count : Nat)
  deriving DecidableEq, Repr

def Effect.apply (runtime : Runtime) : Effect → Runtime
  | .none => runtime
  | .insertRevision definition => runtime.insertRevision definition
  | .swap id => runtime.swap id
  | .finishActivation id previous => runtime.finishActivation id previous
  | .beginDrain id => runtime.beginDrain id
  | .stopServices id => runtime.stopServices id
  | .retire id => runtime.retire id
  | .unhold id => runtime.unhold id
  | .work id count => runtime.work id count

structure ActivateRequest where
  expectedPrevious : Option Nat
  allowApplicationChange : Bool
  deriving DecidableEq, Repr

namespace Runtime

def install (runtime : Runtime) (definition : Definition) : Call :=
  if runtime.config.maxRevisions ≤ runtime.held.length then
    .returned (.refused (.tooManyRevisions runtime.held.length runtime.config.maxRevisions))
  else .compiling definition

def prepare (runtime : Runtime) (id : RevisionId) : Call :=
  match runtime.revision id with
  | some _ => .preparing id
  | none => .returned (.refused (.unknownRevision id))

def activate (runtime : Runtime) (id : RevisionId) : Call :=
  match runtime.revision id with
  | some revision =>
    if revision.state = .active then
      .returned (.refused (.notActive id .active "already active"))
    else .binding id
  | none => .returned (.refused (.unknownRevision id))

def activeRevision (runtime : Runtime) : Option (RevisionId × Revision) :=
  runtime.active.bind (fun id => (runtime.revision id).map (fun revision => (id, revision)))

/-- The control API's activate handler, from the parsed body on: the
comparison, the application check, and the first segment of `activate`. -/
def requestActivate (runtime : Runtime) (id : RevisionId) (wanted : ActivateRequest) : Call :=
  let previous := runtime.activeRevision.map Prod.fst
  let moved := wanted.expectedPrevious.filter
    (fun expected => previous.map RevisionId.val ≠ some expected)
  let changed := match runtime.activeRevision, runtime.revision id with
    | some (_, active), some target =>
      if active.definition.name ≠ target.definition.name then
        some (active.definition.name, target.definition.name)
      else none
    | _, _ => none
  match moved, changed with
  | some expected, _ => .returned (.refused (.activeRevisionMoved expected previous))
  | none, some (serving, target) =>
    if wanted.allowApplicationChange then runtime.activate id
    else .returned (.refused (.differentApplication serving id target))
  | none, none => runtime.activate id

def drain (runtime : Runtime) (id : RevisionId) : Effect × Call :=
  match runtime.revision id with
  | some revision =>
    (.beginDrain id, if revision.services.isSome then .drainStopping id else .drainWaiting id)
  | none =>
    if id.val < runtime.nextRevision then (.none, .returned .drained)
    else (.none, .returned (.refused (.unknownRevision id)))

def remove (runtime : Runtime) (id : RevisionId) : Effect × Call :=
  match runtime.revision id with
  | some revision =>
    match revision.state with
    | .installed | .retired => (.unhold id, .returned .removed)
    | .draining =>
      (.none, .returned (.refused (.notActive id .draining
        "it is already draining and holds its slot until the work it still owns finishes (a WebSocket, a stream, a long report). Wait for it, or stop the process")))
    | .active =>
      (.none, .returned (.refused (.notActive id .active
        "only an installed or retired revision can be removed (drain it first)")))
  | none => (.none, .returned (.refused (.unknownRevision id)))

/-- The end of `retire_when_settled`, after its wait: the state and the count
are read again before the revision is retired. -/
def concludeRetirement (runtime : Runtime) (id : RevisionId) : Effect × Call :=
  if runtime.stateOf id ≠ some .draining then (.none, .returned .ended)
  else if runtime.inFlightOf id ≠ 0 then (.none, .returned .ended)
  else (.retire id, .pruning true)

def beginRetirement (runtime : Runtime) (id : RevisionId) : Effect × Call :=
  match runtime.revision id with
  | some revision =>
    (.stopServices id, if revision.services.isSome then .retireStopping id else .retireWaiting id)
  | none => (.none, .returned .ended)

/-- The segment a suspended call runs when its await ends so; `none` when the
await cannot end so now. -/
def resume (runtime : Runtime) : Call → Wakeup → Option (Effect × Call)
  | .compiling definition, .done =>
    some (.insertRevision definition,
      .returned (if definition.schedulesValid then .installed ⟨runtime.nextRevision⟩
        else .refused .invalidDefinition))
  | .compiling _, .failed error => some (.none, .returned (.refused error))
  | .preparing id, .done => some (.none, .returned (.prepared id))
  | .preparing _, .failed error => some (.none, .returned (.refused error))
  | .binding id, .done => some (.swap id, .warming id runtime.active)
  | .binding _, .failed error => some (.none, .returned (.refused error))
  -- a failed warm-up is logged and ignored
  | .warming id previous, .done => some (.finishActivation id previous, .returned (.activated id))
  | .warming id previous, .failed _ =>
    some (.finishActivation id previous, .returned (.activated id))
  | .drainStopping id, .done => some (.none, .drainWaiting id)
  | .drainWaiting id, .done =>
    if runtime.inFlightOf id = 0 then some (.retire id, .pruning false) else none
  | .drainWaiting id, .expired => some (.none, .returned (.refused (.drainTimeout id)))
  | .retireSpawned id, .done => some (runtime.beginRetirement id)
  | .retireStopping id, .done => some (.none, .retireWaiting id)
  | .retireWaiting id, .done =>
    if runtime.stateOf id ≠ some .draining ∨ runtime.inFlightOf id = 0 then
      some (runtime.concludeRetirement id)
    else none
  | .retireWaiting id, .expired => some (runtime.concludeRetirement id)
  | .pruning background, .done => some (.none, .returned (if background then .ended else .drained))
  | _, _ => none

def spawned (runtime : Runtime) : Effect → List Call
  | .finishActivation id previous => ((runtime.demoted id previous).map Call.retireSpawned).toList
  | _ => []

end Runtime

structure System where
  runtime : Runtime
  calls : List Call

def System.new (config : Config) : System := ⟨Runtime.new config, []⟩

inductive Label where
  | install (definition : Definition)
  | prepare (id : RevisionId)
  | activate (id : RevisionId)
  | request (id : RevisionId) (wanted : ActivateRequest)
  | drain (id : RevisionId)
  | remove (id : RevisionId)
  | resume (index : Nat) (wakeup : Wakeup)
  | work (id : RevisionId) (count : Nat)
  deriving DecidableEq, Repr

namespace System

def segment (system : System) : Label → Option (Effect × List Call)
  | .install definition => some (.none, system.calls ++ [system.runtime.install definition])
  | .prepare id => some (.none, system.calls ++ [system.runtime.prepare id])
  | .activate id => some (.none, system.calls ++ [system.runtime.activate id])
  | .request id wanted => some (.none, system.calls ++ [system.runtime.requestActivate id wanted])
  | .drain id => some ((system.runtime.drain id).1, system.calls ++ [(system.runtime.drain id).2])
  | .remove id =>
    some ((system.runtime.remove id).1, system.calls ++ [(system.runtime.remove id).2])
  | .resume index wakeup =>
    (system.calls[index]?).bind (fun call =>
      (system.runtime.resume call wakeup).map (fun next =>
        (next.1, system.calls.set index next.2 ++ system.runtime.spawned next.1)))
  | .work id count => some (.work id count, system.calls)

def step (system : System) (label : Label) : Option System :=
  (system.segment label).map (fun next => ⟨next.1.apply system.runtime, next.2⟩)

def effectOf (system : System) (label : Label) : Effect :=
  ((system.segment label).map Prod.fst).getD .none

end System

end Usai.Revisions
