import Usai.Execution.Deadline

/-! How a failed guest entry is reported. Each place that enters the guest handles the error
itself: three of them ask whether the deadline has elapsed, the stop and the owner's
cancellation do not. -/

namespace Usai.Execution

open Ownership Transition

namespace World

/-- The world's declared deadline has elapsed when a guest entry returns. `elapsed` is what
`deadline_elapsed` says then, which is about the grace once the deadline has asked for a stop. -/
def Overdue (world : World) (elapsed : Bool) : Prop :=
  world.spec.deadline = true ∧ (world.stoppedAtDeadline = true ∨ elapsed = true)

def Faulted (world : World) : Prop := ∃ detail, world.termination = some (.faulted detail)

/-- The entries whose failure is reported as a fault although the deadline has elapsed: a stop
that somebody else asked for, the owner's cancellation, and, once the deadline has asked for
the stop, any other entry within the grace. -/
def Misreports (world : World) (elapsed : Bool) : Prop :=
  world.spec.deadline = true ∧
    match world.phase with
    | .stopping => world.stoppedAtDeadline = false ∧ elapsed = true
    | .cancelling _ atDeadline =>
      atDeadline = false ∧ (world.stoppedAtDeadline = true ∨ elapsed = true)
    | .invoking | .polling | .delivering _ => world.stoppedAtDeadline = true ∧ elapsed = false
    | _ => False

variable {world next : World}

theorem endDrive_faulted_iff (world : World) (termination : Termination) :
    (world.endDrive termination).Faulted ↔ ∃ detail, termination = .faulted detail := by
  unfold Faulted
  rw [show (world.endDrive termination).termination = some termination from
    congrArg Clock.termination (endDrive_clock world termination)]
  simp only [Option.some.injEq]

theorem unwindOverran_not_faulted (world : World) : ¬ world.unwindOverran.Faulted := by
  rintro ⟨_, faulted⟩
  rw [show world.unwindOverran.termination = some .deadlineExceeded from
    congrArg Clock.termination (unwindOverran_clock world)] at faulted
  cases faulted

theorem guestFailed_faulted_iff (world : World) (detail : String) (elapsed : Bool) :
    (world.guestFailed detail elapsed).Faulted ↔
      ¬ (world.spec.deadline = true ∧ elapsed = true) := by
  unfold World.guestFailed
  split
  case isTrue late =>
    refine iff_of_false ?_ (not_not.mpr late)
    split
    · exact unwindOverran_not_faulted world
    · simp [World.deadlineInterrupted, endDrive_faulted_iff]
  case isFalse soon => simp [endDrive_faulted_iff, soon]

theorem guestFailed_late_iff (world : World) (detail : String) (elapsed : Bool) :
    (world.guestFailed detail elapsed).Faulted ∧ world.Overdue elapsed ↔
      world.spec.deadline = true ∧ world.stoppedAtDeadline = true ∧ elapsed = false := by
  rw [guestFailed_faulted_iff, Overdue]
  cases elapsed <;> simp

theorem late_iff {detail : String} {elapsed : Bool} (undecided : world.termination = none)
    (taken : world.step (.returns (.error detail) elapsed) = some next) :
    next.Faulted ∧ world.Overdue elapsed ↔ world.Misreports elapsed := by
  have silent : ∀ {other : World}, other.termination = world.termination → ¬ other.Faulted := by
    rintro _ same ⟨detail, faulted⟩
    cases (same.trans undecided).symm.trans faulted
  unfold Misreports
  simp only [World.step, World.returns] at taken
  cases phase : world.phase <;> simp only [phase] at taken <;> cases taken
  case instantiating => exact iff_of_false (fun both => silent rfl both.1) (fun both => both.2)
  case invoking | polling => exact guestFailed_late_iff world detail elapsed
  case stopping =>
    cases stopped : world.stoppedAtDeadline with
    | true => simp [unwindOverran_not_faulted]
    | false => simp [endDrive_faulted_iff, Overdue, stopped]
  case delivering =>
    have left : world.leaveRoute.spec = world.spec ∧
        world.leaveRoute.stoppedAtDeadline = world.stoppedAtDeadline :=
      ⟨congrArg Clock.spec leaveRoute_clock, congrArg Clock.stopped leaveRoute_clock⟩
    have late := guestFailed_late_iff world.leaveRoute detail elapsed
    rwa [Overdue, left.1, left.2] at late
  case cancelling _ atDeadline =>
    cases atDeadline with
    | true => simp [World.deadlineInterrupted, endDrive_faulted_iff]
    | false => simp [endDrive_faulted_iff, Overdue]
  case finalizing =>
    exact iff_of_false (fun both => silent (congrArg Clock.termination (conclude_clock _ _)) both.1)
      (fun both => both.2)
  case detaching =>
    exact iff_of_false (fun both => silent (congrArg Clock.termination (finishRun_clock _)) both.1)
      (fun both => both.2)

/-- A failed guest entry ends the world as faulted after its deadline exactly in the cases of
`Misreports`, in whatever order the driver came there. -/
theorem failure_late_iff {detail : String} {elapsed : Bool} (undecided : world.termination = none)
    (taken : world.step (.returns (.error detail) elapsed) = some next) :
    next.Faulted ∧ world.Overdue elapsed ↔ world.Misreports elapsed :=
  late_iff undecided taken

theorem undecided_of_reached {spec : WorldSpec} {ledger : Ledger} {labels : List Label}
    (reached : exec World.step (World.create spec ledger) labels = some world)
    (entered : world.phase.driving = true ∨
      ∃ reason atDeadline, world.phase = .cancelling reason atDeadline) :
    world.termination = none := by
  have seen : (exec Timeline.step (.start spec ledger) labels).map Timeline.world =
      exec World.step (World.create spec ledger) (labels.map fun label => label) := by
    refine exec_view ?_ (fun _ _ _ => trivial) (meets_true _ _)
    intro timeline label _
    rw [Timeline.step, Option.map_map]
    exact Option.map_id'
  rw [List.map_id', reached] at seen
  obtain ⟨timeline, run, rfl⟩ := Option.map_eq_some_iff.mp seen
  have kept := along_reached (along_of_meets Timeline.step_kept (Timeline.start_kept spec ledger)
    (meets_true _ _)) run
  rcases entered with driving | ⟨reason, atDeadline, cancelling⟩
  · refine (kept.driven ?_).1
    rw [Clock.driving, World.clock]
    cases phase : timeline.world.phase <;> rw [phase] at driving <;> first | rfl | cases driving
  · exact (kept.cancelling reason atDeadline (congrArg Phase.clockStage cancelling)).1

theorem failures_late {spec : WorldSpec} {ledger : Ledger} {labels : List Label} {detail : String}
    {elapsed : Bool} (reached : exec World.step (World.create spec ledger) labels = some world)
    (entered : world.phase.driving = true ∨
      ∃ reason atDeadline, world.phase = .cancelling reason atDeadline)
    (taken : world.step (.returns (.error detail) elapsed) = some next) :
    next.Faulted ∧ world.Overdue elapsed ↔ world.Misreports elapsed :=
  late_iff (undecided_of_reached reached entered) taken

end World

def waitingWorld : Option World :=
  exec World.step (World.create ⟨true, true, true⟩ Ledger.new)
    [.returns (.ok ⟨true, 0⟩) false, .run, .returns (.ok ⟨true, 0⟩) false]

theorem failure_late_iff_polling : ∃ world next, waitingWorld = some world ∧
    world.step (.returns (.error "interrupted") true) = some next ∧
      (next.Faulted ∧ world.Overdue true ↔ world.Misreports true) ∧
        world.Overdue true ∧ ¬ world.Misreports true :=
  ⟨_, _, rfl, rfl, World.failure_late_iff rfl rfl, ⟨rfl, .inr rfl⟩, fun late => nomatch late.2.2⟩

theorem stop_interrupted_faults :
    (waitingWorld.bind fun world => exec World.step world
      [.returns (.ok ⟨true, 1⟩) false, .stopToken, .stopArm,
        .returns (.error "interrupted") true]).map
      (fun world => (world.spec.deadline, world.termination)) =
        some (true, some (.faulted "interrupted")) := by
  rfl

end Usai.Execution
