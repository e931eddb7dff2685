import Mathlib.Algebra.Group.Nat.Defs
import Usai.Transition

/-! The queue table of `workloads/queue.rs` and everyone who writes to it: the
consumers with their claims and outcome marks, the sweepers, the publishers.
Every SQL statement is one step; between two steps of a consumer anything may
happen. -/

namespace Usai.Queue

open Option

inductive RowState where
  | ready
  | processing
  | done
  | dead
  deriving DecidableEq, Repr

def RowState.final : RowState → Bool
  | .done | .dead => true
  | .ready | .processing => false

/-- One row of `usai_queue`. Times are milliseconds of the database's clock.
`swept` is history: the sweeper has returned the row to `ready` since its last
claim. -/
structure Row where
  topic : String
  payload : String
  state : RowState
  attempts : Nat
  availableAt : Nat
  lockedAt : Option Nat
  lockedBy : Option String
  lastError : Option String
  createdAt : Nat
  swept : Bool
  deriving DecidableEq, Repr

inductive Backoff where
  | exponential
  | fixed
  deriving DecidableEq, Repr

structure RetryPolicy where
  maxAttempts : Nat
  backoff : Backoff
  baseMs : Nat
  deriving DecidableEq, Repr

def RetryPolicy.default : RetryPolicy := ⟨1, .fixed, 1000⟩

def RetryPolicy.delayMs (retry : RetryPolicy) (attempt : Nat) : Nat :=
  match retry.backoff with
  | .exponential => min (retry.baseMs * 2 ^ min (attempt - 1) 20) (2 ^ 64 - 1)
  | .fixed => retry.baseMs

/-- What a consumer and its sweeper read of a queue workload. `issues` is the
message contract's answer and `timeoutMs` the message deadline. -/
structure Workload where
  topic : String
  retry : RetryPolicy
  timeoutMs : Nat
  issues : String → List String

def lostMarginMs : Nat := 10000

def Workload.lostAfterMs (workload : Workload) : Nat := workload.timeoutMs + lostMarginMs

structure Claimed where
  id : Nat
  payload : String
  attempts : Nat
  deriving DecidableEq, Repr

/-- The statement that records what became of a message. `invalid` is the mark
of a message that its contract refused. -/
inductive Mark where
  | done
  | retry (delay : Nat) (error : String)
  | dead (error : String)
  | invalid (detail : String)
  deriving DecidableEq, Repr

def Mark.state : Mark → RowState
  | .done => .done
  | .retry _ _ => .ready
  | .dead _ | .invalid _ => .dead

def Mark.apply (now : Nat) (row : Row) : Mark → Row
  | .done => { row with state := .done, lockedAt := none, lockedBy := none }
  | .retry delay error => { row with
      state := .ready
      availableAt := now + delay
      lockedAt := none
      lockedBy := none
      lastError := some error }
  | .dead error => { row with
      state := .dead, lockedAt := none, lockedBy := none, lastError := some error }
  | .invalid detail => { row with
      state := .dead, lastError := some ("message contract: " ++ detail) }

def outcome (workload : Workload) (claimed : Claimed) : Except String Unit → Mark
  | .ok () => .done
  | .error error =>
    let attempt := max claimed.attempts 1
    if attempt < workload.retry.maxAttempts then .retry (workload.retry.delayMs attempt) error
    else .dead error

/-- Where a consumer stands. `again` says that the first try of the mark
reported an error. -/
inductive Phase where
  | idle
  | handling (claimed : Claimed)
  | marking (claimed : Claimed) (mark : Mark) (again : Bool)
  | stopped
  deriving DecidableEq, Repr

def Phase.claimed : Phase → Option Claimed
  | .handling claimed | .marking claimed _ _ => some claimed
  | .idle | .stopped => none

structure Consumer where
  workload : Workload
  lockedBy : String
  phase : Phase

def Consumer.outcomes (consumer : Consumer) : List RowState :=
  match consumer.phase with
  | .handling claimed =>
    if (consumer.workload.issues claimed.payload).isEmpty then
      [.done, (outcome consumer.workload claimed (.error "")).state]
    else [.dead]
  | .marking _ mark _ => [mark.state]
  | .idle | .stopped => []

structure Store where
  rows : Nat → Option Row
  nextId : Nat
  clock : Nat
  consumers : List Consumer

def Row.lost (workload : Workload) (now : Nat) (row : Row) : Bool :=
  row.topic = workload.topic ∧ row.state = .processing ∧
    row.lockedAt.any (fun lockedAt => lockedAt + workload.lostAfterMs < now)

def Row.spent (workload : Workload) (row : Row) : Bool :=
  max workload.retry.maxAttempts 1 ≤ row.attempts

def Row.lostReason (row : Row) : Option String := do
  let lockedBy ← row.lockedBy
  let lockedAt ← row.lockedAt
  some ("consumer lost: claimed by " ++ lockedBy ++ " at " ++ toString lockedAt ++
    " UTC, never completed")

def Row.sweepReady (workload : Workload) (now : Nat) (row : Row) : Row :=
  if row.lost workload now ∧ ¬ row.spent workload then
    { row with
      state := .ready
      availableAt := now
      lockedAt := none
      lockedBy := none
      lastError := row.lostReason
      swept := true }
  else row

def Row.sweepDead (workload : Workload) (now : Nat) (row : Row) : Row :=
  if row.lost workload now ∧ row.spent workload then
    { row with state := .dead, lockedAt := none, lockedBy := none, lastError := row.lostReason }
  else row

def Row.claimable (workload : Workload) (now : Nat) (row : Row) : Bool :=
  row.topic = workload.topic ∧ row.state = .ready ∧ row.availableAt ≤ now

def Row.claim (lockedBy : String) (now : Nat) (row : Row) : Row :=
  { row with
    state := .processing
    lockedAt := some now
    lockedBy := some lockedBy
    attempts := row.attempts + 1
    swept := false }

inductive Label where
  | publish (topic payload : String) (delay : Nat)
  | tick (elapsed : Nat)
  | spawn (workload : Workload) (lockedBy : String)
  /-- The claim picks this row: `SKIP LOCKED` may pass over any other. A claim
  that is not answered leaves the row claimed by nobody who knows. -/
  | claim (index id : Nat) (answered : Bool)
  | reject (index : Nat) (applied : Bool)
  | finish (index : Nat) (result : Except String Unit)
  /-- One try of the mark: whether the database carried it out, and whether
  the consumer was told so. -/
  | mark (index : Nat) (applied answered : Bool)
  | stop (index : Nat)
  | sweepReady (workload : Workload)
  | sweepDead (workload : Workload)
  | forget (topic : String) (retention : Nat) (ids : List Nat)

namespace Store

def new : Store := ⟨fun _ => none, 1, 0, []⟩

def write (store : Store) (id : Nat) (change : Row → Row) : Store :=
  { store with rows := fun other =>
      if other = id then (store.rows id).map change else store.rows other }

def writeAll (store : Store) (change : Row → Row) : Store :=
  { store with rows := fun id => (store.rows id).map change }

def setPhase (store : Store) (index : Nat) (consumer : Consumer) (phase : Phase) : Store :=
  { store with consumers := store.consumers.set index { consumer with phase := phase } }

def publish (store : Store) (topic payload : String) (delay : Nat) : Store :=
  let row : Row :=
    ⟨topic, payload, .ready, 0, store.clock + delay, none, none, none, store.clock, false⟩
  { store with
    rows := fun id => if id = store.nextId then some row else store.rows id
    nextId := store.nextId + 1 }

def claim (store : Store) (index : Nat) (consumer : Consumer) (id : Nat) (answered : Bool) :
    Option Store := do
  let row ← store.rows id
  if consumer.phase = .idle ∧ row.claimable consumer.workload store.clock then
    let store := store.write id (Row.claim consumer.lockedBy store.clock)
    some (if answered then
      store.setPhase index consumer (.handling ⟨id, row.payload, row.attempts + 1⟩) else store)
  else none

def reject (store : Store) (index : Nat) (consumer : Consumer) (applied : Bool) : Option Store :=
  match consumer.phase with
  | .handling claimed =>
    let issues := consumer.workload.issues claimed.payload
    if issues.isEmpty then none
    else
      let marked := store.write claimed.id (fun row =>
        (Mark.invalid ("; ".intercalate issues)).apply store.clock row)
      some ((if applied then marked else store).setPhase index consumer .idle)
  | _ => none

def finish (store : Store) (index : Nat) (consumer : Consumer) (result : Except String Unit) :
    Option Store :=
  match consumer.phase with
  | .handling claimed =>
    if (consumer.workload.issues claimed.payload).isEmpty then
      some (store.setPhase index consumer
        (.marking claimed (outcome consumer.workload claimed result) false))
    else none
  | _ => none

def mark (store : Store) (index : Nat) (consumer : Consumer) (applied answered : Bool) :
    Option Store :=
  match consumer.phase with
  | .marking claimed mark again =>
    if answered = true ∧ applied = false then none
    else
      let marked := if applied then store.write claimed.id (fun row => mark.apply store.clock row)
        else store
      some (marked.setPhase index consumer
        (if answered ∨ again then .idle else .marking claimed mark true))
  | _ => none

def forget (store : Store) (topic : String) (retention : Nat) (ids : List Nat) : Store :=
  { store with rows := fun id =>
      (store.rows id).filter (fun row => ¬ (id ∈ ids ∧ row.topic = topic ∧ row.state = .done ∧
        row.createdAt + retention < store.clock)) }

def step (store : Store) : Label → Option Store
  | .publish topic payload delay => some (store.publish topic payload delay)
  | .tick elapsed => some { store with clock := store.clock + elapsed }
  | .spawn workload lockedBy =>
    some { store with consumers := store.consumers ++ [⟨workload, lockedBy, .idle⟩] }
  | .claim index id answered =>
    (store.consumers[index]?).bind (fun consumer => store.claim index consumer id answered)
  | .reject index applied =>
    (store.consumers[index]?).bind (fun consumer => store.reject index consumer applied)
  | .finish index result =>
    (store.consumers[index]?).bind (fun consumer => store.finish index consumer result)
  | .mark index applied answered =>
    (store.consumers[index]?).bind (fun consumer => store.mark index consumer applied answered)
  | .stop index =>
    (store.consumers[index]?).map (fun consumer => store.setPhase index consumer .stopped)
  | .sweepReady workload => some (store.writeAll (Row.sweepReady workload store.clock))
  | .sweepDead workload => some (store.writeAll (Row.sweepDead workload store.clock))
  | .forget topic retention ids => some (store.forget topic retention ids)

section

variable {store next : Store} {index : Nat} {consumer : Consumer}

theorem claim_cases {id : Nat} {answered : Bool}
    (taken : store.claim index consumer id answered = some next) :
    ∃ row, store.rows id = some row ∧ consumer.phase = .idle ∧
      row.claimable consumer.workload store.clock = true ∧
      next = if answered then
        (store.write id (Row.claim consumer.lockedBy store.clock)).setPhase index consumer
          (.handling ⟨id, row.payload, row.attempts + 1⟩)
        else store.write id (Row.claim consumer.lockedBy store.clock) := by
  obtain ⟨row, found, rest⟩ := bind_eq_some_iff.mp taken
  obtain ⟨⟨idle, claimable⟩, same⟩ := ite_none_right_eq_some.mp rest
  exact ⟨row, found, idle, claimable, (some.inj same).symm⟩

theorem reject_cases {applied : Bool} (taken : store.reject index consumer applied = some next) :
    ∃ claimed, consumer.phase = .handling claimed ∧
      (consumer.workload.issues claimed.payload).isEmpty = false ∧
      next = (if applied then store.write claimed.id (fun row =>
          (Mark.invalid ("; ".intercalate (consumer.workload.issues claimed.payload))).apply
            store.clock row) else store).setPhase index consumer .idle := by
  unfold Store.reject at taken
  split at taken
  · next claimed phase =>
    obtain ⟨invalid, same⟩ := ite_none_left_eq_some.mp taken
    exact ⟨claimed, phase, Bool.eq_false_iff.mpr invalid, (some.inj same).symm⟩
  · cases taken

theorem finish_cases {result : Except String Unit}
    (taken : store.finish index consumer result = some next) :
    ∃ claimed, consumer.phase = .handling claimed ∧
      (consumer.workload.issues claimed.payload).isEmpty = true ∧
      next = store.setPhase index consumer
        (.marking claimed (outcome consumer.workload claimed result) false) := by
  unfold Store.finish at taken
  split at taken
  · next claimed phase =>
    obtain ⟨valid, same⟩ := ite_none_right_eq_some.mp taken
    exact ⟨claimed, phase, valid, (some.inj same).symm⟩
  · cases taken

theorem mark_cases {applied answered : Bool}
    (taken : store.mark index consumer applied answered = some next) :
    ∃ claimed mark again, consumer.phase = .marking claimed mark again ∧
      ¬ (answered = true ∧ applied = false) ∧
      next = (if applied then store.write claimed.id (fun row => mark.apply store.clock row)
        else store).setPhase index consumer
          (if answered ∨ again then .idle else .marking claimed mark true) := by
  unfold Store.mark at taken
  split at taken
  · next claimed mark again phase =>
    obtain ⟨consistent, same⟩ := ite_none_left_eq_some.mp taken
    exact ⟨claimed, mark, again, phase, consistent, (some.inj same).symm⟩
  · cases taken

end

end Store

end Usai.Queue
