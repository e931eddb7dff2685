import Mathlib.Logic.Basic

/-! Routines that work on a state and may wait for something that never comes,
and the rules for what they ensure. -/

namespace Usai

/-- The result is `none` while the routine waits; the state is then the one it
waits in. -/
def Routine (State Result : Type) : Type := State → Option Result × State

namespace Routine

variable {State Result Next : Type}

instance : Monad (Routine State) where
  pure result := fun state => (some result, state)
  bind routine next := fun state =>
    match routine state with
    | (some result, final) => next result final
    | (none, final) => (none, final)

def current : Routine State State := fun state => (some state, state)

def change (update : State → State) : Routine State Unit := fun state => (some (), update state)

def wait : Routine State Result := fun state => (none, state)

def attempt (routine : Routine State Result) : Routine State (Option Result) := fun state =>
  (some (routine state).1, (routine state).2)

/-- `returned` holds of the result and the final state if the routine returns,
`waiting` of the state it waits in if it does not. -/
def Ensures (routine : Routine State Result) (returned : Result → State → Prop)
    (waiting : State → Prop) (start : State) : Prop :=
  match routine start with
  | (some result, final) => returned result final
  | (none, final) => waiting final

variable {returned : Result → State → Prop} {waiting : State → Prop} {start : State}
  {routine : Routine State Result}

@[simp] theorem ensures_pure (result : Result) :
    Ensures (pure result : Routine State Result) returned waiting start ↔
      returned result start := Iff.rfl

@[simp] theorem ensures_wait :
    Ensures (wait : Routine State Result) returned waiting start ↔ waiting start := Iff.rfl

@[simp] theorem ensures_current {returned : State → State → Prop} :
    Ensures current returned waiting start ↔ returned start start := Iff.rfl

@[simp] theorem ensures_change {returned : Unit → State → Prop} (update : State → State) :
    Ensures (change update) returned waiting start ↔ returned () (update start) := Iff.rfl

@[simp] theorem ensures_bind {returned : Next → State → Prop} (routine : Routine State Result)
    (next : Result → Routine State Next) :
    Ensures (routine >>= next) returned waiting start ↔
      Ensures routine (fun result => Ensures (next result) returned waiting) waiting start := by
  simp only [Ensures, bind]
  cases routine start with
  | mk result _ => cases result <;> rfl

@[simp] theorem ensures_attempt {returned : Option Result → State → Prop}
    (routine : Routine State Result) :
    Ensures (attempt routine) returned waiting start ↔
      Ensures routine (fun result => returned (some result)) (returned none) start := by
  simp only [Ensures, attempt]
  cases routine start with
  | mk result _ => cases result <;> rfl

theorem ensures_mono {stronger : Result → State → Prop} {strongerWaiting : State → Prop}
    (ensures : Ensures routine stronger strongerWaiting start)
    (returns : ∀ result final, stronger result final → returned result final)
    (waits : ∀ final, strongerWaiting final → waiting final) :
    Ensures routine returned waiting start := by
  simp only [Ensures] at ensures ⊢
  cases same : routine start with
  | mk result final =>
    rw [same] at ensures
    cases result with
    | none => exact waits final ensures
    | some result => exact returns result final ensures

theorem ensures_final {property : State → Prop}
    (ensures : Ensures routine (fun _ => property) property start) : property (routine start).2 := by
  simp only [Ensures] at ensures
  cases same : routine start with
  | mk result _ =>
    rw [same] at ensures
    cases result <;> exact ensures

end Routine

end Usai
