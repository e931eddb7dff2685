import Usai.Transition
import Usai.Admission.Accounts

/-! Admissions against the retirement of their revision, at the grain of single
reads and writes: the state check and the in-flight count of an admission are
two steps, and so are the zero check and the `Retired` write of a retirement.
Threads of the multi-threaded executor interleave between any two of them. -/

namespace Usai.Admission

open Revisions (RevisionState)
open Option Transition

/-- Where a `drain` or a `retire_when_settled` stands: what it does next. -/
inductive Retirement where
  | drainRead
  | drainMark
  | drainWait
  | drainRetire
  | settleWait
  | settleRead
  | settleCount
  | settleRetire
  | ended
  deriving DecidableEq, Repr

/-- One revision. `admitting` counts the admissions between their state check
and their in-flight count, `live` the guards that are alive, `children` the
retained children, and `admitted` every admission that ever succeeded. -/
structure Race where
  state : RevisionState
  inFlight : Nat
  admitting : Nat
  live : Nat
  children : Nat
  admitted : Nat
  retirements : List Retirement
  deriving DecidableEq, Repr

def Race.new (state : RevisionState) (live children : Nat) : Race :=
  ⟨state, live + children, 0, live, children, 0, []⟩

def Entry.accepts : Entry → RevisionState → Bool
  | .admitActive, state => state = .active
  | .inFlight, state => state = .active ∨ state = .draining
  | .verification, state => ¬ (state = .draining ∨ state = .retired)

inductive Move where
  | check (entry : Entry)
  | count
  | refuse
  | drop
  | retain
  | release
  | drain
  | settle
  | advance (index : Nat) (expired : Bool)
  deriving DecidableEq, Repr

def Retirement.advance (race : Race) : Retirement → Bool → Option (RevisionState × Retirement)
  | .drainRead, _ => some (race.state, if race.state = .active then .drainMark else .drainWait)
  | .drainMark, _ => some (.draining, .drainWait)
  | .drainWait, true => some (race.state, .ended)
  | .drainWait, false => if race.inFlight = 0 then some (race.state, .drainRetire) else none
  | .drainRetire, _ => some (.retired, .ended)
  | .settleWait, expired =>
    if expired ∨ race.state ≠ .draining ∨ race.inFlight = 0 then some (race.state, .settleRead)
    else none
  | .settleRead, _ => some (race.state, if race.state = .draining then .settleCount else .ended)
  | .settleCount, _ => some (race.state, if race.inFlight = 0 then .settleRetire else .ended)
  | .settleRetire, _ => some (.retired, .ended)
  | .ended, _ => none

def Race.step (race : Race) : Move → Option Race
  | .check entry =>
    some (if entry.accepts race.state then { race with admitting := race.admitting + 1 } else race)
  | .count =>
    if race.admitting = 0 then none
    else some { race with
      admitting := race.admitting - 1
      inFlight := race.inFlight + 1
      live := race.live + 1
      admitted := race.admitted + 1 }
  | .refuse => if race.admitting = 0 then none else some { race with admitting := race.admitting - 1 }
  | .drop =>
    if race.live = 0 then none
    else some { race with live := race.live - 1, inFlight := race.inFlight - 1 }
  | .retain =>
    if race.live = 0 then none
    else some { race with children := race.children + 1, inFlight := race.inFlight + 1 }
  | .release =>
    if race.children = 0 then none
    else some { race with children := race.children - 1, inFlight := race.inFlight - 1 }
  | .drain => some { race with retirements := race.retirements ++ [.drainRead] }
  | .settle => some { race with retirements := race.retirements ++ [.settleWait] }
  | .advance index expired =>
    (race.retirements[index]?).bind (fun retirement =>
      (retirement.advance race expired).map (fun next =>
        { race with state := next.1, retirements := race.retirements.set index next.2 }))

def Empty (race : Race) : Prop := race.state = .retired → race.inFlight = 0

/-- After a state that is retired the revision stays retired, nothing is in
flight and no admission succeeds. -/
def Final (middle final : Race) : Prop :=
  middle.state = .retired →
    final.state = .retired ∧ final.inFlight = 0 ∧ final.admitted = middle.admitted

/-- What the write of a retirement has to find: `Retired` is written when
nothing is in flight and no admission stands between its check and its count,
and `Draining` is not written over `Retired`. -/
def Retirement.Unraced (race : Race) : Retirement → Prop
  | .drainRetire => race.inFlight = 0 ∧ race.admitting = 0
  | .settleRetire => race.inFlight = 0 ∧ race.admitting = 0
  | .drainMark => race.state ≠ .retired
  | _ => True

instance (race : Race) (retirement : Retirement) : Decidable (retirement.Unraced race) := by
  unfold Retirement.Unraced
  split <;> infer_instance

def Unraced (race : Race) : Move → Prop
  | .advance index _ => ∀ retirement ∈ race.retirements[index]?, retirement.Unraced race
  | _ => True

instance (race : Race) (move : Move) : Decidable (Unraced race move) := by
  unfold Unraced
  split <;> infer_instance

structure Race.Counted (race : Race) : Prop where
  count : race.inFlight = race.live + race.children
  retired : race.state = .retired → race.inFlight = 0 ∧ race.admitting = 0

theorem new_counted (notRetired : state ≠ .retired) (live children : Nat) :
    (Race.new state live children).Counted where
  count := rfl
  retired := fun retired => absurd retired notRetired

theorem accepts_not_retired {entry : Entry}
    (accepted : entry.accepts state = true) : state ≠ .retired := by
  rintro rfl
  cases entry <;> cases accepted

variable {race next : Race} {move : Move} {written : RevisionState × Retirement}
  {retirement : Retirement}

theorem advance_cases (advanced : retirement.advance race expired = some written) :
    written.1 = race.state ∨
      (written.1 = .draining ∧ retirement = .drainMark) ∨
      (written.1 = .retired ∧ (retirement = .drainRetire ∨ retirement = .settleRetire)) := by
  cases retirement with
  | drainRead | settleRead | settleCount =>
    cases advanced
    exact .inl rfl
  | drainMark =>
    cases advanced
    exact .inr (.inl ⟨rfl, rfl⟩)
  | drainWait =>
    cases expired with
    | true =>
      cases advanced
      exact .inl rfl
    | false =>
      obtain ⟨_, rfl⟩ := ite_some_none_eq_some.mp advanced
      exact .inl rfl
  | drainRetire =>
    cases advanced
    exact .inr (.inr ⟨rfl, .inl rfl⟩)
  | settleWait =>
    obtain ⟨_, rfl⟩ := ite_some_none_eq_some.mp advanced
    exact .inl rfl
  | settleRetire =>
    cases advanced
    exact .inr (.inr ⟨rfl, .inr rfl⟩)
  | ended => cases advanced

theorem quiet_safe (counted : race.Counted)
    (state : next.state = race.state) (inFlight : next.inFlight = race.inFlight)
    (live : next.live = race.live) (children : next.children = race.children)
    (admitted : next.admitted = race.admitted)
    (admitting : race.state = .retired → next.admitting ≤ race.admitting) :
    next.Counted ∧ Final race next := by
  refine ⟨⟨?_, ?_⟩, ?_⟩
  · rw [inFlight, live, children, counted.count]
  · intro retired
    have before := counted.retired (state ▸ retired)
    have fewer := admitting (state ▸ retired)
    exact ⟨inFlight.trans before.1, by omega⟩
  · intro retired
    exact ⟨state.trans retired, inFlight.trans (counted.retired retired).1, admitted⟩

theorem count_safe (state : next.state = race.state)
    (count : next.inFlight = next.live + next.children) (notRetired : race.state ≠ .retired) :
    next.Counted ∧ Final race next :=
  ⟨⟨count, fun retired => absurd (state.symm.trans retired) notRetired⟩,
    fun retired => absurd retired notRetired⟩

theorem not_retired_of_live (counted : race.Counted)
    (working : race.admitting ≠ 0 ∨ race.live ≠ 0 ∨ race.children ≠ 0) :
    race.state ≠ .retired := by
  intro retired
  have none := counted.retired retired
  have count := counted.count
  omega

theorem advance_safe (counted : race.Counted) (unraced : retirement.Unraced race)
    (advanced : retirement.advance race expired = some written) :
    Race.Counted { race with
      state := written.1, retirements := race.retirements.set index written.2 } ∧
    Final race { race with
      state := written.1, retirements := race.retirements.set index written.2 } := by
  rcases advance_cases advanced with same | ⟨drains, rfl⟩ | ⟨retires, writes⟩
  · exact quiet_safe counted same rfl rfl rfl rfl (fun _ => le_rfl)
  · -- `Draining` is written over a state that is not `Retired`.
    exact ⟨⟨counted.count, fun retired => absurd (drains.symm.trans retired) (by decide)⟩,
      fun retired => absurd retired unraced⟩
  · have idle : race.inFlight = 0 ∧ race.admitting = 0 := by
      rcases writes with rfl | rfl <;> exact unraced
    exact ⟨⟨counted.count, fun _ => idle⟩, fun _ => ⟨retires, idle.1, rfl⟩⟩

theorem step_safe (counted : race.Counted)
    (unraced : Unraced race move) (taken : race.step move = some next) :
    next.Counted ∧ Final race next := by
  have count := counted.count
  cases move with
  | check =>
    cases taken
    split
    · next accepted =>
      exact count_safe rfl count (accepts_not_retired accepted)
    · exact quiet_safe counted rfl rfl rfl rfl rfl (fun _ => le_rfl)
  | count =>
    obtain ⟨some_admitting, taken⟩ := ite_none_left_eq_some.mp taken
    cases taken
    exact count_safe rfl (by simp only; omega)
      (not_retired_of_live counted (.inl some_admitting))
  | refuse =>
    obtain ⟨_, taken⟩ := ite_none_left_eq_some.mp taken
    cases taken
    exact quiet_safe counted rfl rfl rfl rfl rfl (fun _ => Nat.sub_le _ _)
  | drop | retain =>
    obtain ⟨some_live, taken⟩ := ite_none_left_eq_some.mp taken
    cases taken
    exact count_safe rfl (by simp only; omega)
      (not_retired_of_live counted (.inr (.inl some_live)))
  | release =>
    obtain ⟨some_child, taken⟩ := ite_none_left_eq_some.mp taken
    cases taken
    exact count_safe rfl (by simp only; omega)
      (not_retired_of_live counted (.inr (.inr some_child)))
  | drain | settle =>
    cases taken
    exact quiet_safe counted rfl rfl rfl rfl rfl (fun _ => le_rfl)
  | advance =>
    obtain ⟨retirement, found, advances⟩ := bind_eq_some_iff.mp taken
    obtain ⟨_, advanced, rfl⟩ := map_eq_some_iff.mp advances
    exact advance_safe counted (unraced retirement found) advanced

theorem final_trans (first second third : Race) (before : Final first second)
    (after : Final second third) : Final first third := by
  intro retired
  obtain ⟨still, _, admitted⟩ := before retired
  obtain ⟨stays, inFlight, later⟩ := after still
  exact ⟨stays, inFlight, later.trans admitted⟩

theorem count_fills (admitting : race.admitting ≠ 0) :
    ∃ next, race.step .count = some next ∧ next.state = race.state ∧ next.inFlight ≠ 0 :=
  ⟨_, if_neg admitting, rfl, Nat.succ_ne_zero race.inFlight⟩

theorem early_retirement_breaks
    (taken : race.step move = some next) (retired : next.state = .retired)
    (inFlight : next.inFlight = race.inFlight) (admitting : next.admitting = race.admitting)
    (busy : ¬ (race.inFlight = 0 ∧ race.admitting = 0)) :
    ∃ more, ¬ Along Race.step Empty race (move :: more) := by
  by_cases idle : race.inFlight = 0
  · have waiting : next.admitting ≠ 0 := by
      rw [admitting]
      exact fun none => busy ⟨idle, none⟩
    obtain ⟨_, counts, state, filled⟩ := count_fills waiting
    refine ⟨[.count], ?_⟩
    rintro ⟨_, rest⟩
    simp only [taken, Along, counts] at rest
    exact filled (rest.2 (state.trans retired))
  · refine ⟨[], ?_⟩
    rintro ⟨_, rest⟩
    simp only [taken, Along] at rest
    exact idle (inFlight.symm.trans (rest retired))

theorem raced_breaks (raced : ¬ Unraced race move) (taken : race.step move = some next) :
    ∃ more, ¬ (Along Race.step Empty race (move :: more) ∧
      Between Race.step Final race (move :: more)) := by
  cases move with
  | advance =>
    obtain ⟨retirement, found, advances⟩ := bind_eq_some_iff.mp taken
    obtain ⟨_, advanced, rfl⟩ := map_eq_some_iff.mp advances
    have written_raced : ¬ retirement.Unraced race := by
      intro unraced
      refine raced (fun other same => ?_)
      cases found.symm.trans same
      exact unraced
    cases retirement with
    | drainMark =>
      cases advanced
      refine ⟨[], fun safe => ?_⟩
      have between := safe.2
      simp only [Between, taken, Along] at between
      cases (between.1 (not_not.mp written_raced)).1
    | drainRetire | settleRetire =>
      cases advanced
      obtain ⟨more, breaks⟩ := early_retirement_breaks taken rfl rfl rfl written_raced
      exact ⟨more, fun safe => breaks safe.1⟩
    | drainRead | drainWait | settleWait | settleRead | settleCount | ended =>
      exact absurd trivial written_raced
  | check | count | refuse | drop | retain | release | drain | settle => exact absurd trivial raced

/-- In every run whose retirements are all unraced, a revision that has become
`Retired` has nothing in flight from then on and admits nothing more; and the
condition is the weakest one: a raced write, in whatever state, can be
continued into a broken promise. -/
theorem retired_revision_idle {state : RevisionState} (notRetired : state ≠ .retired)
    (live children : Nat) (moves : List Move)
    (unraced : Meets Race.step Unraced (Race.new state live children) moves) :
    Along Race.step Empty (Race.new state live children) moves ∧
    Between Race.step Final (Race.new state live children) moves ∧
    ∀ race move, (race.step move).isSome → ¬ Unraced race move →
      ∃ more, ¬ (Along Race.step Empty race (move :: more) ∧
        Between Race.step Final race (move :: more)) := by
  have initial := new_counted notRetired live children
  have preserved : ∀ race move next, Race.Counted race → Unraced race move →
      race.step move = some next → Race.Counted next :=
    fun _ _ _ counted unraced taken => (step_safe counted unraced taken).1
  have related : ∀ race move next, Race.Counted race → Unraced race move →
      race.step move = some next → Final race next :=
    fun _ _ _ counted unraced taken => (step_safe counted unraced taken).2
  refine ⟨?_, ?_, ?_⟩
  · exact along_imp (fun _ counted retired => (counted.retired retired).1)
      (along_of_meets preserved initial unraced)
  · exact between_of_meets final_trans preserved related initial unraced
  · intro race move enabled raced
    obtain ⟨_, taken⟩ := isSome_iff_exists.mp enabled
    exact raced_breaks raced taken

def quietDrain : List Move :=
  [.check .admitActive, .count, .drain, .advance 0 false, .advance 0 false, .drop,
    .advance 0 false, .advance 0 false, .check .inFlight]

theorem retired_revision_idle_quiet_drain :
    Meets Race.step Unraced (Race.new .active 0 0) quietDrain ∧
    Along Race.step Empty (Race.new .active 0 0) quietDrain ∧
    (exec Race.step (Race.new .active 0 0) quietDrain).map (fun race => (race.state, race.inFlight)) =
      some (.retired, 0) :=
  ⟨by decide, (retired_revision_idle (by decide) 0 0 quietDrain (by decide)).1, by decide⟩

/-- A request passes its state check, a drain finds nothing in flight and
retires the revision, and then the request counts itself. -/
def lateCount : List Move :=
  [.check .admitActive, .drain, .advance 0 false, .advance 0 false, .advance 0 false,
    .advance 0 false, .count]

theorem admission_after_retirement :
    ∃ final, exec Race.step (Race.new .active 0 0) lateCount = some final ∧
      final.state = .retired ∧ final.inFlight = 1 ∧ final.admitted = 1 ∧
      ¬ Along Race.step Empty (Race.new .active 0 0) lateCount :=
  ⟨_, rfl, rfl, rfl, rfl, fun along => by
    have last := (along.2.2.2.2.2.2.2) rfl
    cases last⟩

end Usai.Admission
