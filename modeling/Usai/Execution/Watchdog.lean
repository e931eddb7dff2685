import Mathlib.Algebra.Group.Nat.Defs
import Usai.Transition

/-! One slot of the watchdog of `world.rs`: a world that arms and finishes its guest entries,
and the ticker, which reads the clock, then the slot's deadline, and then raises the flag. -/

namespace Usai.Execution

def asU64 (nanos : Nat) : Nat := nanos % 2 ^ 64

inductive Ticker where
  | sleeping
  | ticked (now : Nat)
  | decided (fires : Bool)
  deriving DecidableEq, Repr

/-- `due` is when the slice of the entered guest call has elapsed, if there is one. Times are
nanoseconds since the service's epoch. -/
structure WatchSlot where
  clock : Nat
  deadlineNs : Nat
  flag : Bool
  due : Option Nat
  ticker : Ticker
  deriving DecidableEq, Repr

inductive WatchLabel where
  | pass (nanos : Nat)
  | arm (slice : Nat)
  | finish
  | tick
  | load
  | store
  deriving DecidableEq, Repr

namespace WatchSlot

def register (clock : Nat) : WatchSlot := ⟨clock, 0, false, none, .sleeping⟩

def step (slot : WatchSlot) : WatchLabel → Option WatchSlot
  | .pass nanos => some { slot with clock := slot.clock + nanos }
  | .arm slice =>
    match slot.due with
    | some _ => none
    | none => some { slot with
        flag := false
        deadlineNs := max (asU64 (slot.clock + slice)) 1
        due := some (slot.clock + slice) }
  | .finish =>
    match slot.due with
    | some _ => some { slot with deadlineNs := 0, due := none }
    | none => none
  | .tick =>
    match slot.ticker with
    | .sleeping => some { slot with ticker := .ticked (asU64 slot.clock) }
    | .ticked _ | .decided _ => none
  | .load =>
    match slot.ticker with
    | .ticked now => some { slot with
        ticker := .decided (slot.deadlineNs ≠ 0 ∧ slot.deadlineNs ≤ now) }
    | .sleeping | .decided _ => none
  | .store =>
    match slot.ticker with
    | .decided fires => some { slot with ticker := .sleeping, flag := slot.flag || fires }
    | .sleeping | .ticked _ => none

def Overran (slot : WatchSlot) : Prop := ∀ due ∈ slot.due, due ≤ slot.clock

def Spared (slot : WatchSlot) : Prop := slot.flag = true → slot.Overran

/-- No call is entered while the ticker is about to raise the flag, nor one whose deadline
does not fit 64 bits. -/
def Settled (slot : WatchSlot) : WatchLabel → Prop
  | .arm slice => slot.ticker ≠ .decided true ∧ slot.clock + slice < 2 ^ 64
  | _ => True

/-- The deadline is that of the entered call, the ticker's clock is not ahead, and what it
has decided concerns a call that overran. -/
structure Watched (slot : WatchSlot) : Prop where
  deadline : ∀ due ∈ slot.due, slot.deadlineNs = max due 1
  behind : ∀ now, slot.ticker = .ticked now → now ≤ slot.clock
  decision : slot.ticker = .decided true → slot.Overran
  spared : slot.Spared

end WatchSlot

open WatchSlot

variable {slot : WatchSlot}

theorem overran_of_load (watched : slot.Watched) {now : Nat} (ticked : slot.ticker = .ticked now)
    (passed : slot.deadlineNs ≤ now) : slot.Overran := by
  intro due armed
  have behind := watched.behind now ticked
  have deadline := watched.deadline due armed
  omega

theorem step_watched (slot : WatchSlot) (label : WatchLabel) (next : WatchSlot)
    (watched : slot.Watched) (settled : slot.Settled label)
    (taken : slot.step label = some next) : next.Watched := by
  cases label <;> simp only [WatchSlot.step] at taken
  case pass =>
    cases taken
    refine ⟨watched.deadline, ?_, ?_, ?_⟩
    · intro now ticked
      exact Nat.le_add_right_of_le (watched.behind now ticked)
    · intro fires due armed
      exact Nat.le_add_right_of_le (watched.decision fires due armed)
    · intro raised due armed
      exact Nat.le_add_right_of_le (watched.spared raised due armed)
  case arm =>
    obtain ⟨undecided, fits⟩ := settled
    split at taken <;> cases taken
    refine ⟨?_, watched.behind, fun fires => absurd fires undecided, nofun⟩
    rintro due ⟨⟩
    simp only [asU64, Nat.mod_eq_of_lt fits]
  case finish =>
    split at taken <;> cases taken
    exact ⟨nofun, watched.behind, fun _ => nofun, fun _ => nofun⟩
  case tick =>
    split at taken
    · cases taken
      refine ⟨watched.deadline, ?_, nofun, watched.spared⟩
      rintro now ⟨⟩
      exact Nat.mod_le _ _
    all_goals cases taken
  case load =>
    split at taken
    · rename_i now ticked
      cases taken
      refine ⟨watched.deadline, nofun, ?_, watched.spared⟩
      intro fires due armed
      simp only [Ticker.decided.injEq, decide_eq_true_eq] at fires
      exact overran_of_load watched ticked fires.2 due armed
    all_goals cases taken
  case store =>
    split at taken
    · rename_i fires decided
      cases taken
      refine ⟨watched.deadline, nofun, nofun, ?_⟩
      intro raised
      rcases (Bool.or_eq_true _ _).mp raised with before | now
      · exact watched.spared before
      · exact watched.decision (decided.trans (congrArg _ now))
    all_goals cases taken

/-- While no guest call is entered between the ticker's look at the deadline and its raising
of the flag, a call sees the flag only when its own slice has elapsed. -/
theorem watchdog_spares (clock : Nat) (labels : List WatchLabel)
    (settled : Transition.Meets WatchSlot.step Settled (WatchSlot.register clock) labels) :
    Transition.Along WatchSlot.step Spared (WatchSlot.register clock) labels :=
  Transition.along_imp (fun _ watched => watched.spared)
    (Transition.along_of_meets step_watched ⟨nofun, nofun, nofun, nofun⟩ settled)

theorem watchdog_spares_next :
    Transition.Along WatchSlot.step Spared (WatchSlot.register 0)
      [.arm 10, .pass 12, .tick, .load, .store, .finish, .arm 10, .tick, .load, .store] :=
  watchdog_spares 0 _ ⟨⟨by decide, by decide⟩, trivial, trivial, trivial, trivial, trivial,
    ⟨by decide, by decide⟩, trivial, trivial, trivial, trivial⟩

/-- A call that finished just in time for the ticker's look is followed by one that is
interrupted before its slice. -/
theorem stale_decision_interrupts :
    Transition.exec WatchSlot.step (WatchSlot.register 0)
      [.arm 10, .pass 10, .tick, .load, .finish, .arm 10, .store] =
        some ⟨10, 20, true, some 20, .sleeping⟩ := by
  decide

end Usai.Execution
