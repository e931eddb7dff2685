import Usai.Revisions.Revision

/-! The runtime's shared state and the writes its segments make to it. Each
function here runs without an await, so its writes are one step. -/

namespace Usai.Revisions

structure Config where
  maxRevisions : Nat
  cronScheduler : Bool
  services : Bool
  queueConsumers : Bool
  deriving DecidableEq, Repr

def Config.enables (config : Config) : Role → Bool
  | .cron => config.cronScheduler
  | .service => config.services
  | .queue => config.queueConsumers
  | .connections => false

/-- `schedulers` records the stop token of every scheduler that was started
with work to run; the tokens in `cancelled` are the cancelled ones. -/
structure Runtime where
  config : Config
  arena : FiniteMap RevisionId Revision
  held : List RevisionId
  active : Option RevisionId
  nextRevision : Nat
  nextToken : Nat
  cancelled : List Token
  schedulers : List Token

namespace Runtime

def new (config : Config) : Runtime := ⟨config, ∅, [], none, 1, 0, [], []⟩

def revision (runtime : Runtime) (id : RevisionId) : Option Revision :=
  if id ∈ runtime.held then runtime.arena.lookup id else none

def stateOf (runtime : Runtime) (id : RevisionId) : Option RevisionState :=
  (runtime.arena.lookup id).map Revision.state

def definitionOf (runtime : Runtime) (id : RevisionId) : Option Definition :=
  (runtime.arena.lookup id).map Revision.definition

def inFlightOf (runtime : Runtime) (id : RevisionId) : Nat :=
  ((runtime.arena.lookup id).map Revision.inFlight).getD 0

def slotOf (runtime : Runtime) (id : RevisionId) (role : Role) : Option Token :=
  (runtime.arena.lookup id).bind (fun revision => revision.slot role)

def setState (runtime : Runtime) (id : RevisionId) (state : RevisionState) : Runtime :=
  match runtime.arena.lookup id with
  | some revision =>
    { runtime with
      arena := runtime.arena.insert id (revision.setState state)
      cancelled := revision.stopped state ++ runtime.cancelled }
  | none => runtime

def cancel (runtime : Runtime) (tokens : List Token) : Runtime :=
  { runtime with cancelled := tokens ++ runtime.cancelled }

/-- The tail of `install`, once the definition is compiled: the id is taken
before the schedules are validated. -/
def insertRevision (runtime : Runtime) (definition : Definition) : Runtime :=
  let id : RevisionId := ⟨runtime.nextRevision⟩
  let stop : Token := ⟨runtime.nextToken, id, .connections⟩
  let issued := { runtime with
    nextRevision := runtime.nextRevision + 1
    nextToken := runtime.nextToken + 1 }
  if definition.schedulesValid then
    { issued with
      arena := runtime.arena.insert id ⟨definition, .installed, 0, none, none, none, stop⟩
      held := runtime.held ++ [id] }
  else issued

def swap (runtime : Runtime) (id : RevisionId) : Runtime :=
  { runtime.setState id .active with active := some id }

/-- Starts one kind of scheduler for the revision and stores its token. A
supervisor without a service is dropped again. -/
def startScheduler (runtime : Runtime) (role : Role) (id : RevisionId) : Runtime :=
  match runtime.arena.lookup id with
  | some revision =>
    let token : Token := ⟨runtime.nextToken, id, role⟩
    let issued := { runtime with nextToken := runtime.nextToken + 1 }
    if role = .service ∧ revision.definition.declares role = false then issued
    else
      { issued with
        arena := runtime.arena.insert id (revision.store role token)
        schedulers :=
          if revision.definition.declares role then token :: runtime.schedulers
          else runtime.schedulers }
  | none => runtime

def startCron (runtime : Runtime) (id : RevisionId) : Runtime :=
  if runtime.config.cronScheduler then runtime.startScheduler .cron id else runtime

def startServices (runtime : Runtime) (id : RevisionId) : Runtime :=
  if runtime.config.services then runtime.startScheduler .service id else runtime

def startQueue (runtime : Runtime) (id : RevisionId) : Runtime :=
  if runtime.config.queueConsumers then runtime.startScheduler .queue id else runtime

def startSchedulers (runtime : Runtime) (id : RevisionId) : Runtime :=
  ((runtime.startCron id).startServices id).startQueue id

def demoted (runtime : Runtime) (id : RevisionId) (previous : Option RevisionId) :
    Option RevisionId :=
  previous.filter (fun old => old ≠ id ∧ (runtime.revision old).isSome)

def finishActivation (runtime : Runtime) (id : RevisionId) (previous : Option RevisionId) :
    Runtime :=
  let started := runtime.startSchedulers id
  match runtime.demoted id previous with
  | some old => started.setState old .draining
  | none => started

def stopServices (runtime : Runtime) (id : RevisionId) : Runtime :=
  runtime.cancel (runtime.slotOf id .service).toList

def clearActive (runtime : Runtime) (id : RevisionId) : Runtime :=
  if runtime.active = some id then { runtime with active := none } else runtime

def markDraining (runtime : Runtime) (id : RevisionId) : Runtime :=
  if runtime.stateOf id = some .active then runtime.setState id .draining else runtime

def beginDrain (runtime : Runtime) (id : RevisionId) : Runtime :=
  ((runtime.clearActive id).markDraining id).stopServices id

def unhold (runtime : Runtime) (id : RevisionId) : Runtime :=
  { runtime with held := runtime.held.filter (fun other => other ≠ id) }

def retire (runtime : Runtime) (id : RevisionId) : Runtime :=
  (runtime.setState id .retired).unhold id

/-- Admissions and completions between two segments leave the revision with
this many units in flight. -/
def work (runtime : Runtime) (id : RevisionId) (count : Nat) : Runtime :=
  { runtime with
    arena := FiniteMap.modify runtime.arena id
      (fun revision => { revision with inFlight := count }) }

end Runtime

end Usai.Revisions
