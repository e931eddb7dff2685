import Usai.Queue.Orderly

/-! The lock columns of the queue table against the state column: which of the
statements of `workloads/queue.rs` move a row and leave them as they were. -/

namespace Usai.Queue

open List Option Slots Transition

/-- Both lock columns are set while the row is being processed, and neither is
otherwise. -/
def Row.Tracked (row : Row) : Prop :=
  (row.lockedAt.isSome = true ↔ row.state = .processing) ∧
    (row.lockedBy.isSome = true ↔ row.state = .processing)

instance (row : Row) : Decidable row.Tracked := by
  unfold Row.Tracked
  infer_instance

def LocksTrackState (store : Store) : Prop :=
  ∀ id row, store.rows id = some row → row.Tracked

def RejectsUnlocked (store : Store) : Label → Prop
  | .reject index true =>
    ∀ consumer ∈ store.consumers[index]?, ∀ claimed ∈ consumer.phase.claimed,
      ∀ row ∈ store.rows claimed.id, row.state ≠ .processing
  | _ => True

def Phase.NotInvalid : Phase → Prop
  | .marking _ mark _ => ∀ detail, mark ≠ .invalid detail
  | _ => True

def Store.NoneInvalid (store : Store) : Prop :=
  ∀ consumer ∈ store.consumers, consumer.phase.NotInvalid

theorem Mark.apply_tracked {mark : Mark} (outcome : ∀ detail, mark ≠ .invalid detail)
    (now : Nat) (row : Row) : (mark.apply now row).Tracked := by
  cases mark with
  | invalid detail => exact absurd rfl (outcome detail)
  | done | retry | dead => simp [Mark.apply, Row.Tracked]

theorem Mark.invalid_tracked {row : Row} (tracked : row.Tracked) (now : Nat) (detail : String) :
    ((Mark.invalid detail).apply now row).Tracked ↔ row.state ≠ .processing := by
  simp [Mark.apply, Row.Tracked, tracked.1, tracked.2]

theorem outcome_notInvalid (workload : Workload) (claimed : Claimed)
    (result : Except String Unit) :
    ∀ detail, outcome workload claimed result ≠ .invalid detail := by
  intro detail
  cases result with
  | ok => simp [outcome]
  | error =>
    simp only [outcome]
    split <;> simp

namespace Store

variable {store next : Store} {id index : Nat} {change : Row → Row} {consumer : Consumer}

theorem write_tracked (tracked : LocksTrackState store)
    (changed : ∀ row, store.rows id = some row → (change row).Tracked) :
    LocksTrackState (store.write id change) := by
  intro other later found
  rcases write_rows found with ⟨rfl, row, present, rfl⟩ | ⟨_, present⟩
  · exact changed row present
  · exact tracked other later present

theorem writeAll_tracked (tracked : LocksTrackState store) {chosen : Row → Prop}
    [∀ row, Decidable (chosen row)] {moved : Row → Row}
    (changed : ∀ row, (moved row).Tracked) :
    LocksTrackState (store.writeAll fun row => if chosen row then moved row else row) := by
  intro id later found
  obtain ⟨row, present, rfl⟩ := map_eq_some_iff.mp found
  split
  · exact changed row
  · exact tracked id row present

theorem reject_tracked {applied : Bool} {claimed : Claimed}
    (found : store.consumers[index]? = some consumer)
    (phase : consumer.phase = .handling claimed) (tracked : LocksTrackState store)
    (detail : String) :
    LocksTrackState (if applied then store.write claimed.id (fun row =>
        (Mark.invalid detail).apply store.clock row) else store) ↔
      RejectsUnlocked store (.reject index applied) := by
  cases applied with
  | false => exact iff_of_true tracked trivial
  | true =>
    have claims : consumer.phase.claimed = some claimed := by rw [phase]; rfl
    constructor
    · intro after rival here kept held row present
      cases found.symm.trans here
      cases claims.symm.trans held
      refine (Mark.invalid_tracked (tracked _ row present) store.clock detail).mp
        (after claimed.id _ ?_)
      simp only [write, if_true, mem_def.mp present, map_some]
    · intro unlocked
      refine write_tracked tracked fun row present => ?_
      exact (Mark.invalid_tracked (tracked _ row present) store.clock detail).mpr
        (unlocked consumer found claimed claims row present)

theorem step_tracked {label : Label} (outcomes : store.NoneInvalid)
    (taken : store.step label = some next) :
    next.NoneInvalid ∧
      (LocksTrackState store → (LocksTrackState next ↔ RejectsUnlocked store label)) := by
  cases label with
  | publish topic payload delay =>
    cases taken
    refine ⟨outcomes, fun tracked => iff_of_true ?_ trivial⟩
    intro id row found
    simp only [Store.publish] at found
    split at found
    · cases found
      simp [Row.Tracked]
    · exact tracked id row found
  | tick =>
    cases taken
    exact ⟨outcomes, fun tracked => iff_of_true tracked trivial⟩
  | spawn =>
    cases taken
    exact ⟨forall_append outcomes trivial, fun tracked => iff_of_true tracked trivial⟩
  | claim index id answered =>
    obtain ⟨consumer, _, rest⟩ := bind_eq_some_iff.mp taken
    obtain ⟨_, _, _, _, rfl⟩ := claim_cases rest
    have claimed (tracked : LocksTrackState store) :
        LocksTrackState (store.write id (Row.claim consumer.lockedBy store.clock)) :=
      write_tracked tracked fun row _ => by simp [Row.claim, Row.Tracked]
    split
    · exact ⟨forall_set outcomes trivial, fun tracked => iff_of_true (claimed tracked) trivial⟩
    · exact ⟨outcomes, fun tracked => iff_of_true (claimed tracked) trivial⟩
  | reject index applied =>
    obtain ⟨consumer, found, rest⟩ := bind_eq_some_iff.mp taken
    obtain ⟨_, phase, _, rfl⟩ := reject_cases rest
    refine ⟨?_, fun tracked => reject_tracked found phase tracked _⟩
    split <;> exact forall_set outcomes trivial
  | finish index result =>
    obtain ⟨consumer, _, rest⟩ := bind_eq_some_iff.mp taken
    obtain ⟨claimed, _, _, rfl⟩ := finish_cases rest
    exact ⟨forall_set outcomes (outcome_notInvalid consumer.workload claimed result),
      fun tracked => iff_of_true tracked trivial⟩
  | mark index applied answered =>
    obtain ⟨consumer, found, rest⟩ := bind_eq_some_iff.mp taken
    obtain ⟨claimed, mark, again, phase, _, rfl⟩ := mark_cases rest
    have outcome := outcomes consumer (mem_of_getElem? found)
    rw [phase] at outcome
    have kept : (if answered ∨ again then Phase.idle
        else .marking claimed mark true).NotInvalid := by
      split
      · trivial
      · exact outcome
    cases applied with
    | false => exact ⟨forall_set outcomes kept, fun tracked => iff_of_true tracked trivial⟩
    | true =>
      refine ⟨forall_set outcomes kept, fun tracked => iff_of_true ?_ trivial⟩
      exact write_tracked tracked fun row _ => Mark.apply_tracked outcome store.clock row
  | stop index =>
    obtain ⟨consumer, _, rfl⟩ := map_eq_some_iff.mp taken
    exact ⟨forall_set outcomes trivial, fun tracked => iff_of_true tracked trivial⟩
  | sweepReady | sweepDead =>
    cases taken
    refine ⟨outcomes, fun tracked => iff_of_true (writeAll_tracked tracked ?_) trivial⟩
    intro row
    simp [Row.Tracked]
  | forget topic retention ids =>
    cases taken
    refine ⟨outcomes, fun tracked => iff_of_true ?_ trivial⟩
    intro id row found
    exact tracked id row (eq_some_of_filter_eq_some found)

end Store

/-- Whatever publishers, consumers and sweepers do, in whatever order: the lock
columns track the state exactly in the runs in which no contract's rejection
is written to a row that is still claimed. -/
theorem locks_track_state (labels : List Label) :
    Along Store.step LocksTrackState Store.new labels ↔
      Meets Store.step RejectsUnlocked Store.new labels :=
  along_iff_meets (fun _ _ _ outcomes taken => (Store.step_tracked outcomes taken).1)
    (fun _ _ _ outcomes tracked taken => (Store.step_tracked outcomes taken).2 tracked)
    (fun _ absent => absurd absent not_mem_nil) (fun _ _ absent => by cases absent) labels

def refusing : Workload := ⟨"orders", .default, 30000, fun _ => ["id: required"]⟩

/-- One consumer, one message, no sweep: the refused message is dead and still
carries the consumer's lock. -/
theorem rejected_keeps_lock :
    (exec Store.step Store.new [.publish "orders" "\x7b\x7d" 0, .spawn refusing "a",
        .claim 0 1 true, .reject 0 true]).map
      (fun store => (store.rows 1).map fun row =>
        (row.state, row.lockedAt, row.lockedBy, decide row.Tracked)) =
    some (some (.dead, some 0, some "a", false)) := by
  decide

end Usai.Queue
