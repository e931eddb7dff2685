import Usai.Build.Definition

/-! Revisions and the table of them that `runtime.rs` keeps. A call holds an
`Arc` to its revision, so the records live in an arena that outlasts the
table; `held` is the table's key set. -/

namespace Usai.Revisions

structure RevisionId where
  val : Nat
  deriving DecidableEq, Repr

inductive RevisionState where
  | installed
  | active
  | draining
  | retired
  deriving DecidableEq, Repr

def RevisionState.text : RevisionState → String
  | .installed => "installed"
  | .active => "active"
  | .draining => "draining"
  | .retired => "retired"

def RevisionState.leaving : RevisionState → Bool
  | .draining | .retired => true
  | .installed | .active => false

inductive Role where
  | cron
  | service
  | queue
  | connections
  deriving DecidableEq, Repr

structure Token where
  serial : Nat
  revision : RevisionId
  role : Role
  deriving DecidableEq, Repr

structure Workload where
  id : String
  trigger : Build.Trigger
  maxConcurrency : Option Nat
  deriving DecidableEq, Repr

/-- What the runtime reads of a definition here. `schedulesValid` is the
answer of `cron::validate`. -/
structure Definition where
  name : String
  workloads : List Workload
  schedulesValid : Bool
  deriving DecidableEq, Repr

def Definition.declares (definition : Definition) (role : Role) : Bool :=
  definition.workloads.any (fun workload =>
    match role, workload.trigger with
    | .cron, .cron | .service, .service | .queue, .queue => true
    | _, _ => false)

structure Revision where
  definition : Definition
  state : RevisionState
  inFlight : Nat
  cronStop : Option Token
  services : Option Token
  queueStop : Option Token
  connectionsStop : Token
  deriving DecidableEq, Repr

namespace Revision

def slot (revision : Revision) : Role → Option Token
  | .cron => revision.cronStop
  | .service => revision.services
  | .queue => revision.queueStop
  | .connections => some revision.connectionsStop

def store (revision : Revision) (role : Role) (token : Token) : Revision :=
  match role with
  | .cron => { revision with cronStop := some token }
  | .service => { revision with services := some token }
  | .queue => { revision with queueStop := some token }
  | .connections => revision

def setState (revision : Revision) (state : RevisionState) : Revision :=
  if state.leaving then { revision with state := state, cronStop := none, queueStop := none }
  else { revision with state := state }

def stopped (revision : Revision) (state : RevisionState) : List Token :=
  if state.leaving then
    revision.cronStop.toList ++ revision.queueStop.toList ++ [revision.connectionsStop]
  else []

section

variable (revision : Revision)

variable (state : RevisionState)

@[simp] theorem setState_state :
    (revision.setState state).state = state := by
  unfold setState
  split <;> rfl

@[simp] theorem setState_definition :
    (revision.setState state).definition = revision.definition := by
  unfold setState
  split <;> rfl

theorem slot_setState (role : Role) (token : Token)
    (held : (revision.setState state).slot role = some token) : revision.slot role = some token := by
  unfold setState at held
  split at held
  · cases role with
    | cron => cases held
    | queue => cases held
    | service => exact held
    | connections => exact held
  · exact held

@[simp] theorem setState_services :
    (revision.setState state).services = revision.services := by
  unfold setState
  split <;> rfl

@[simp] theorem setState_connectionsStop :
    (revision.setState state).connectionsStop = revision.connectionsStop := by
  unfold setState
  split <;> rfl

theorem mem_stopped (token : Token) :
    token ∈ revision.stopped state ↔
      state.leaving = true ∧ ∃ role, role ≠ .service ∧ revision.slot role = some token := by
  unfold stopped
  split
  · rename_i leaving
    constructor
    · intro member
      refine ⟨leaving, ?_⟩
      simp only [List.mem_append, Option.mem_toList, List.mem_singleton] at member
      rcases member with (cron | queue) | connections
      · exact ⟨.cron, by decide, cron⟩
      · exact ⟨.queue, by decide, queue⟩
      · exact ⟨.connections, by decide, by rw [connections]; rfl⟩
    · rintro ⟨_, role, different, present⟩
      simp only [List.mem_append, Option.mem_toList, List.mem_singleton]
      cases role with
      | cron => exact .inl (.inl present)
      | queue => exact .inl (.inr present)
      | service => exact absurd rfl different
      | connections =>
        simp only [slot, Option.some.injEq] at present
        exact .inr present.symm
  · rename_i stays
    simp [stays]

theorem slot_store (role other : Role) (token : Token) (scheduler : role ≠ .connections) :
    (revision.store role token).slot other =
      if other = role then some token else revision.slot other := by
  cases role <;> cases other <;> simp_all [store, slot]

@[simp] theorem store_state (role : Role) (token : Token) :
    (revision.store role token).state = revision.state := by
  cases role <;> rfl

@[simp] theorem store_definition (role : Role) (token : Token) :
    (revision.store role token).definition = revision.definition := by
  cases role <;> rfl

end

end Revision

end Usai.Revisions
