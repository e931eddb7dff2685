import Usai.Transition

/-! The wait of `Runtime::drain` beside the releases of in-flight work. The waiter reads the
count before it asks to be notified, and a release that takes the count to zero notifies only
those who have asked. -/

namespace Usai.Revisions

inductive WaitPhase where
  | reading
  /-- A count other than zero was read; `settled.notified()` is still to be called. -/
  | unregistered
  | asleep (notified : Bool)
  | settled
  -- `DrainTimeout`, with whether work was in flight then
  | expired (live : Bool)
  deriving DecidableEq, Repr

/-- `releasing` counts the releases that have taken the count to zero and have yet to call
`notify_waiters`. -/
structure DrainWait where
  inFlight : Nat
  releasing : Nat
  phase : WaitPhase
  deriving DecidableEq, Repr

inductive WaitLabel where
  | retain
  | release
  | notify
  | read
  | register
  | wake
  | expire
  deriving DecidableEq, Repr

namespace DrainWait

def notifyWaiters : WaitPhase → WaitPhase
  | .asleep _ => .asleep true
  | phase => phase

def step (wait : DrainWait) : WaitLabel → Option DrainWait
  | .retain => some { wait with inFlight := wait.inFlight + 1 }
  | .release =>
    match wait.inFlight with
    | 0 => none
    | 1 => some { wait with inFlight := 0, releasing := wait.releasing + 1 }
    | left + 1 => some { wait with inFlight := left }
  | .notify =>
    match wait.releasing with
    | 0 => none
    | left + 1 => some { wait with releasing := left, phase := notifyWaiters wait.phase }
  | .read =>
    if wait.phase = .reading then
      some { wait with phase := if wait.inFlight = 0 then .settled else .unregistered }
    else none
  | .register =>
    if wait.phase = .unregistered then some { wait with phase := .asleep false } else none
  | .wake => if wait.phase = .asleep true then some { wait with phase := .reading } else none
  | .expire =>
    if wait.phase = .asleep false then some { wait with phase := .expired (wait.inFlight ≠ 0) }
    else none

def Lost (wait : DrainWait) : Prop :=
  wait.phase = .asleep false ∧ wait.inFlight = 0 ∧ wait.releasing = 0

def Heard (wait : DrainWait) : Prop := ¬ wait.Lost ∧ wait.phase ≠ .expired false

/-- The last unit is not released and notified between the read and the registration, and
the timeout does not pass between the decrement to zero and its notification. -/
def Prompt (wait : DrainWait) : WaitLabel → Prop
  | .register => wait.inFlight = 0 → wait.releasing ≠ 0
  | .expire => wait.inFlight = 0 → wait.releasing = 0
  | _ => True

end DrainWait

open DrainWait

theorem heard_of_phase {wait : DrainWait} (awake : wait.phase ≠ .asleep false)
    (fine : wait.phase ≠ .expired false) : wait.Heard := ⟨fun lost => awake lost.1, fine⟩

theorem release_heard {wait next : DrainWait} (heard : wait.Heard)
    (taken : wait.step .release = some next) : next.Heard := by
  obtain ⟨_, _, _⟩ := wait
  simp only [DrainWait.step] at taken
  split at taken <;> cases taken
  · exact ⟨fun lost => Nat.succ_ne_zero _ lost.2.2, heard.2⟩
  · rename_i left several
    exact ⟨fun lost => several lost.2.1, heard.2⟩

theorem notify_heard {wait next : DrainWait} (heard : wait.Heard)
    (taken : wait.step .notify = some next) : next.Heard := by
  obtain ⟨_, releasing, phase⟩ := wait
  cases releasing with
  | zero => cases taken
  | succ =>
    cases taken
    cases phase with
    | expired => exact heard_of_phase (by simp [notifyWaiters]) heard.2
    | reading | unregistered | asleep | settled =>
      exact heard_of_phase (by simp [notifyWaiters]) (by simp [notifyWaiters])

theorem step_heard_iff (wait : DrainWait) (label : WaitLabel) (next : DrainWait)
    (heard : wait.Heard) (taken : wait.step label = some next) :
    next.Heard ↔ wait.Prompt label := by
  cases label with
  | retain =>
    cases taken
    exact iff_of_true ⟨fun lost => Nat.succ_ne_zero _ lost.2.1, heard.2⟩ trivial
  | release => exact iff_of_true (release_heard heard taken) trivial
  | notify => exact iff_of_true (notify_heard heard taken) trivial
  | read =>
    obtain ⟨_, rfl⟩ := Option.ite_some_none_eq_some.mp taken
    refine iff_of_true (heard_of_phase ?_ ?_) trivial <;> dsimp only <;> split <;> simp
  | register =>
    obtain ⟨_, rfl⟩ := Option.ite_some_none_eq_some.mp taken
    simp [Heard, Lost, Prompt]
  | wake =>
    obtain ⟨_, rfl⟩ := Option.ite_some_none_eq_some.mp taken
    exact iff_of_true (heard_of_phase (by simp) (by simp)) trivial
  | expire =>
    obtain ⟨asleep, rfl⟩ := Option.ite_some_none_eq_some.mp taken
    have awaited : wait.inFlight = 0 → wait.releasing ≠ 0 :=
      fun none notified => heard.1 ⟨asleep, none, notified⟩
    simp only [Heard, Lost, Prompt, reduceCtorEq, false_and, not_false_eq_true, true_and, ne_eq,
      WaitPhase.expired.injEq, decide_eq_false_iff_not, not_not]
    exact ⟨fun busy none => absurd none busy, fun prompt none => awaited none (prompt none)⟩

/-- The waits that hear of the last release are those that never register after it. -/
theorem drain_heard_iff (inFlight releasing : Nat) (labels : List WaitLabel) :
    Transition.Along DrainWait.step Heard ⟨inFlight, releasing, .reading⟩ labels ↔
      Transition.Meets DrainWait.step Prompt ⟨inFlight, releasing, .reading⟩ labels :=
  Transition.along_iff_meets (fun _ _ _ _ _ => trivial)
    (fun wait label next (_ : True) heard taken => step_heard_iff wait label next heard taken)
    trivial (heard_of_phase (by simp) (by simp)) labels

/-- One unit is in flight when the count is read, and is gone before the registration: the
drain sleeps, and ends with `DrainTimeout`. -/
theorem drain_misses_last_release :
    Transition.exec DrainWait.step ⟨1, 0, .reading⟩ [.read, .release, .notify, .register] =
        some ⟨0, 0, .asleep false⟩ ∧
      Transition.exec DrainWait.step ⟨1, 0, .reading⟩
        [.read, .release, .notify, .register, .expire] = some ⟨0, 0, .expired false⟩ := by
  decide

end Usai.Revisions
