import Mathlib.Data.List.Basic
import Mathlib.Data.Option.Basic

/-! Labelled transition systems with a partial step function, their runs, and
the induction rules for what a run preserves. -/

namespace Usai.Transition

variable {State Label : Type*}

/-- Runs the labels from the left. A label that is not enabled ends the
attempt, so `some` means that every label of the list was taken. -/
def exec (step : State → Label → Option State) (start : State) (labels : List Label) :
    Option State :=
  labels.foldlM step start

variable {step : State → Label → Option State}

@[simp] theorem exec_nil (start : State) : exec step start [] = some start := rfl

@[simp] theorem exec_cons (start : State) (label : Label) (labels : List Label) :
    exec step start (label :: labels) =
      (step start label).bind (fun next => exec step next labels) := by
  rfl

theorem exec_append (start : State) (front back : List Label) :
    exec step start (front ++ back) =
      (exec step start front).bind (fun middle => exec step middle back) := by
  simp only [exec, List.foldlM_append]
  rfl

/-- Every step the run takes meets the condition `allowed` in the state it is
taken from. The run ends at the first label that is not enabled. -/
def Meets (step : State → Label → Option State) (allowed : State → Label → Prop) :
    State → List Label → Prop
  | _, [] => True
  | start, label :: labels =>
    match step start label with
    | some next => allowed start label ∧ Meets step allowed next labels
    | none => True

instance Meets.decidable (allowed : State → Label → Prop)
    [∀ state label, Decidable (allowed state label)] :
    ∀ (start : State) (labels : List Label), Decidable (Meets step allowed start labels)
  | _, [] => isTrue trivial
  | start, label :: labels =>
    match taken : step start label with
    | some next =>
      have := Meets.decidable allowed next labels
      decidable_of_iff (allowed start label ∧ Meets step allowed next labels)
        (by simp only [Meets, taken])
    | none => isTrue (by simp only [Meets, taken])

/-- The property holds in every state the run passes. -/
def Along (step : State → Label → Option State) (property : State → Prop) :
    State → List Label → Prop
  | start, [] => property start
  | start, label :: labels =>
    property start ∧
      match step start label with
      | some next => Along step property next labels
      | none => True

variable {start : State} {labels : List Label} {allowed : State → Label → Prop}
  {relation : State → State → Prop} {Inv property : State → Prop}

theorem along_start (along : Along step property start labels) : property start := by
  cases labels with
  | nil => exact along
  | cons => exact along.1

theorem meets_cons {next : State} {label : Label}
    (meets : Meets step allowed start (label :: labels))
    (taken : step start label = some next) :
    allowed start label ∧ Meets step allowed next labels := by
  simpa only [Meets, taken] using meets

/-- When every step out of a good state leads to a good state exactly if it
meets the condition, the runs through good states only are the runs whose
steps all meet it. -/
theorem along_iff_meets
    (preserved : ∀ start label next, Inv start → step start label = some next → Inv next)
    (exactly : ∀ start label next, Inv start → property start → step start label = some next →
      (property next ↔ allowed start label))
    (invariant : Inv start) (good : property start) (labels : List Label) :
    Along step property start labels ↔ Meets step allowed start labels := by
  induction labels generalizing start with
  | nil => exact iff_of_true good trivial
  | cons label _ ih =>
    simp only [Along, Meets, good, true_and]
    cases taken : step start label with
    | none => exact Iff.rfl
    | some next =>
      have still := preserved start label next invariant taken
      have here := exactly start label next invariant good taken
      constructor
      · intro along
        have reached := along_start along
        exact ⟨here.mp reached, (ih still reached).mp along⟩
      · rintro ⟨allowed, rest⟩
        exact (ih still (here.mpr allowed)).mpr rest

theorem meets_true (start : State) (labels : List Label) :
    Meets step (fun _ _ => True) start labels := by
  induction labels generalizing start with
  | nil => trivial
  | cons label _ ih =>
    cases taken : step start label with
    | none => simp only [Meets, taken]
    | some next => simpa only [Meets, taken, true_and] using ih next

section

variable (preserved : ∀ start label next, Inv start → allowed start label →
  step start label = some next → Inv next)
include preserved

theorem meets_of_meets {required : State → Label → Prop}
    (implied : ∀ start label next, Inv start → allowed start label →
      step start label = some next → required start label)
    (initial : Inv start)
    (meets : Meets step allowed start labels) : Meets step required start labels := by
  induction labels generalizing start with
  | nil => trivial
  | cons label _ ih =>
    simp only [Meets]
    cases taken : step start label with
    | none => trivial
    | some next =>
      obtain ⟨head, tail⟩ := meets_cons meets taken
      exact ⟨implied start label next initial head taken,
        ih (preserved start label next initial head taken) tail⟩

omit preserved in
theorem meets_congr {first second : State → Label → Prop}
    (preserved : ∀ start label next, Inv start → first start label →
      step start label = some next → Inv next)
    (agree : ∀ start label, Inv start → (first start label ↔ second start label))
    (initial : Inv start) (labels : List Label) :
    Meets step first start labels ↔ Meets step second start labels := by
  constructor
  · exact meets_of_meets preserved
      (fun start label _ invariant meets _ => (agree start label invariant).mp meets) initial
  · exact meets_of_meets
      (fun start label next invariant meets taken =>
        preserved start label next invariant ((agree start label invariant).mpr meets) taken)
      (fun start label _ invariant meets _ => (agree start label invariant).mpr meets) initial

theorem along_of_meets (initial : Inv start)
    (meets : Meets step allowed start labels) : Along step Inv start labels := by
  induction labels generalizing start with
  | nil => exact initial
  | cons label _ ih =>
    refine ⟨initial, ?_⟩
    cases taken : step start label with
    | none => trivial
    | some next =>
      obtain ⟨head, tail⟩ := meets_cons meets taken
      exact ih (preserved start label next initial head taken) tail

end

theorem along_imp {first second : State → Prop} (implies : ∀ state, first state → second state)
    (along : Along step first start labels) :
    Along step second start labels := by
  induction labels generalizing start with
  | nil => exact implies start along
  | cons label _ ih =>
    obtain ⟨here, rest⟩ := along
    refine ⟨implies start here, ?_⟩
    cases taken : step start label with
    | none => trivial
    | some =>
      rw [taken] at rest
      exact ih rest

theorem along_reached {final : State}
    (along : Along step property start labels) (reached : exec step start labels = some final) :
    property final := by
  induction labels generalizing start with
  | nil =>
    rw [exec_nil, Option.some.injEq] at reached
    exact reached ▸ along
  | cons _ _ ih =>
    rw [exec_cons, Option.bind_eq_some_iff] at reached
    obtain ⟨_, taken, rest⟩ := reached
    have tail := along.2
    rw [taken] at tail
    exact ih tail rest

theorem meets_reached {middle : State}
    {front back : List Label} (meets : Meets step allowed start (front ++ back))
    (reached : exec step start front = some middle) : Meets step allowed middle back := by
  induction front generalizing start with
  | nil =>
    rw [exec_nil, Option.some.injEq] at reached
    exact reached ▸ meets
  | cons _ _ ih =>
    rw [exec_cons, Option.bind_eq_some_iff] at reached
    obtain ⟨_, taken, rest⟩ := reached
    exact ih (meets_cons meets taken).2 rest

/-- The relation holds between any two states of the run, in their order. -/
def Between (step : State → Label → Option State) (relation : State → State → Prop) :
    State → List Label → Prop
  | _, [] => True
  | start, label :: labels =>
    match step start label with
    | some next => Along step (relation start) next labels ∧ Between step relation next labels
    | none => True

theorem between_cons {next : State} {label : Label}
    (between : Between step relation start (label :: labels))
    (taken : step start label = some next) :
    Along step (relation start) next labels ∧ Between step relation next labels := by
  simpa only [Between, taken] using between

theorem between_reached {final : State}
    (between : Between step relation start labels) (moves : labels ≠ [])
    (reached : exec step start labels = some final) : relation start final := by
  cases labels with
  | nil => exact absurd rfl moves
  | cons =>
    rw [exec_cons, Option.bind_eq_some_iff] at reached
    obtain ⟨_, taken, rest⟩ := reached
    exact along_reached (between_cons between taken).1 rest

theorem between_imp {first second : State → State → Prop}
    (implies : ∀ before after, first before after → second before after)
    (between : Between step first start labels) :
    Between step second start labels := by
  induction labels generalizing start with
  | nil => trivial
  | cons label _ ih =>
    simp only [Between] at between ⊢
    cases taken : step start label with
    | none => trivial
    | some =>
      rw [taken] at between
      exact ⟨along_imp (implies start) between.1, ih between.2⟩

section

variable (trans : ∀ first second third, relation first second → relation second third →
  relation first third)
include trans

theorem between_of_meets (preserved : ∀ start label next, Inv start → allowed start label →
      step start label = some next → Inv next)
    (related : ∀ start label next, Inv start → allowed start label →
      step start label = some next → relation start next)
    (initial : Inv start)
    (meets : Meets step allowed start labels) : Between step relation start labels := by
  induction labels generalizing start with
  | nil => trivial
  | cons label _ ih =>
    simp only [Between]
    cases taken : step start label with
    | none => trivial
    | some next =>
      obtain ⟨head, tail⟩ := meets_cons meets taken
      have still := preserved start label next initial head taken
      have here := related start label next initial head taken
      refine ⟨?_, ih still tail⟩
      have kept : ∀ middle label last, (Inv middle ∧ relation start middle) →
          allowed middle label → step middle label = some last →
          Inv last ∧ relation start last := by
        rintro middle label last ⟨inv, reached⟩ meets taken
        exact ⟨preserved middle label last inv meets taken,
          trans start middle last reached (related middle label last inv meets taken)⟩
      exact along_imp (fun _ both => both.2) (along_of_meets kept ⟨still, here⟩ tail)

/-- For a transitive relation that holds across a step exactly if the step
meets the condition. -/
theorem between_iff_meets (exactly : ∀ start label next, step start label = some next →
      (relation start next ↔ allowed start label))
    (start : State) (labels : List Label) :
    Between step relation start labels ↔ Meets step allowed start labels := by
  constructor
  · intro between
    induction labels generalizing start with
    | nil => trivial
    | cons label _ ih =>
      simp only [Between] at between
      simp only [Meets]
      cases taken : step start label with
      | none => trivial
      | some next =>
        rw [taken] at between
        exact ⟨(exactly start label next taken).mp (along_start between.1), ih next between.2⟩
  · intro meets
    have preserved : ∀ (start : State) (label : Label) (next : State), True →
        allowed start label → step start label = some next → True := fun _ _ _ _ _ _ => trivial
    exact between_of_meets trans preserved
      (fun start label next _ meets taken => (exactly start label next taken).mpr meets)
      trivial meets

end

section

variable {Seen Sign : Type*} {watched : Seen → Sign → Option Seen} {view : State → Seen}
  {sign : Label → Sign} {allowed : State → Label → Prop} {permitted : Seen → Sign → Prop}

variable (agree : ∀ state label, allowed state label →
    (step state label).map view = watched (view state) (sign label))
  (stuck : ∀ state label, step state label = none → allowed state label)
include agree stuck

/-- What a view sees of a run is a run of its own system, where the two agree on
every step that is allowed. -/
theorem exec_view {start : State} {labels : List Label} (meets : Meets step allowed start labels) :
    (exec step start labels).map view = exec watched (view start) (labels.map sign) := by
  induction labels generalizing start with
  | nil => rfl
  | cons label _ ih =>
    rw [List.map_cons, exec_cons, exec_cons]
    cases taken : step start label with
    | none =>
      rw [← agree start label (stuck start label taken), taken]
      rfl
    | some =>
      obtain ⟨here, rest⟩ := meets_cons meets taken
      rw [← agree start label here, taken]
      exact ih rest

/-- The run meets a condition that the view can read exactly if what it sees does. -/
theorem meets_view (same : ∀ state label, permitted (view state) (sign label) ↔ allowed state label)
    (enabled : ∀ seen mark, watched seen mark = none → permitted seen mark)
    (start : State) (labels : List Label) :
    Meets watched permitted (view start) (labels.map sign) ↔ Meets step allowed start labels := by
  induction labels generalizing start with
  | nil => exact Iff.rfl
  | cons label _ ih =>
    by_cases here : allowed start label
    · have seen := agree start label here
      simp only [List.map_cons, Meets, ← seen]
      cases step start label with
      | none => exact Iff.rfl
      | some next => exact and_congr (same start label) (ih next)
    · simp only [List.map_cons, Meets]
      cases taken : step start label with
      | none => exact absurd (stuck start label taken) here
      | some =>
        cases shown : watched (view start) (sign label) with
        | none => exact absurd ((same start label).mp (enabled _ _ shown)) here
        | some =>
          exact iff_of_false (fun both => here ((same start label).mp both.1))
            (fun both => here both.1)

end

end Usai.Transition
