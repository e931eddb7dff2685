import Mathlib.Logic.Basic

/-! Routines that work on a state and may fail halfway, and the rules for what
they ensure of the state they leave; and what is known of a computation without
a state that returned, or of one that was made for each item of a list. -/

namespace Usai

open List Option

abbrev Fallible (Error State : Type) := ExceptT Error (StateM State)

namespace Fallible

variable {Error State Result Next : Type}

def lift (result : Except Error Result) : Fallible Error State Result :=
  match result with
  | .ok value => pure value
  | .error error => throw error

/-- `returned` holds of the result and the final state if the routine returns,
`failed` of the error and the state it leaves if it fails. -/
def Ensures (routine : Fallible Error State Result) (returned : Result → State → Prop)
    (failed : Error → State → Prop) (start : State) : Prop :=
  match routine.run.run start with
  | (.ok result, final) => returned result final
  | (.error error, final) => failed error final

variable {returned : Result → State → Prop} {failed : Error → State → Prop} {start : State}

@[simp] theorem ensures_pure (result : Result) :
    Ensures (pure result : Fallible Error State Result) returned failed start ↔
      returned result start := Iff.rfl

@[simp] theorem ensures_throw (error : Error) :
    Ensures (throw error : Fallible Error State Result) returned failed start ↔
      failed error start := Iff.rfl

@[simp] theorem ensures_modify {returned : Unit → State → Prop} (update : State → State) :
    Ensures (modify update : Fallible Error State Unit) returned failed start ↔
      returned () (update start) := Iff.rfl

@[simp] theorem ensures_get {returned : State → State → Prop} :
    Ensures (get : Fallible Error State State) returned failed start ↔ returned start start := Iff.rfl

@[simp] theorem ensures_bind {returned : Next → State → Prop}
    (routine : Fallible Error State Result) (next : Result → Fallible Error State Next) :
    Ensures (routine >>= next) returned failed start ↔
      Ensures routine (fun result => Ensures (next result) returned failed) failed start := by
  simp only [Ensures, ExceptT.run_bind, StateT.run_bind]
  cases routine.run.run start with
  | mk result _ => cases result <;> rfl

theorem bind_ok_cases {Part Value : Type} {first : Except Error Part}
    {next : Part → Except Error Value} {value : Value} (done : first.bind next = .ok value) :
    ∃ part, first = .ok part ∧ next part = .ok value := by
  cases first with
  | ok part => exact ⟨part, rfl, done⟩
  | error => cases done

theorem ok_of_ite_error {Value : Type} {failed : Prop} [Decidable failed] {error : Error}
    {rest : Except Error Value} {value : Value}
    (checked : (if failed then .error error else rest) = .ok value) :
    ¬ failed ∧ rest = .ok value := by
  split at checked
  · cases checked
  · next passed => exact ⟨passed, checked⟩

theorem ok_of_mapError {Part Problem : Type} {change : Error → Problem} {first : Except Error Part}
    {part : Part} (done : first.mapError change = .ok part) : first = .ok part := by
  cases first with
  | ok => exact congrArg Except.ok (Except.ok.inj done)
  | error => cases done

theorem map_ok_iff {Part Value : Type} {reading : Except Error Part} {build : Part → Value}
    {property : Value → Prop} :
    (∃ value, reading.map build = .ok value ∧ property value) ↔
      ∃ part, reading = .ok part ∧ property (build part) := by
  cases reading with
  | error => exact iff_of_false (by nofun) (by nofun)
  | ok => simp only [Except.map, Except.ok.injEq, exists_eq_left']

theorem forM_ok_iff {Item : Type} {items : List Item} {check : Item → Except Error Unit} :
    items.forM check = .ok () ↔ ∀ item ∈ items, check item = .ok () := by
  induction items with
  | nil => exact iff_of_true rfl (by nofun)
  | cons item items step =>
    have unrolled : (item :: items).forM check =
        (check item).bind (fun _ => items.forM check) := rfl
    rw [unrolled, forall_mem_cons, ← step]
    cases check item with
    | error => exact iff_of_false (by nofun) (by nofun)
    | ok => exact (and_iff_right rfl).symm

section

variable {Item Value Guard : Type} {take : Item → Option Value} {items : List Item}
  {outputs : List Value}

theorem mapM_agree (other : Item → Option Value) (taken : items.mapM take = some outputs) :
    items.mapM other = some outputs ↔
      ∀ item ∈ items, ∀ output, take item = some output → other item = some output := by
  induction items generalizing outputs with
  | nil =>
    cases taken
    exact iff_of_true rfl (by nofun)
  | cons _ _ step =>
    rw [mapM_cons] at taken
    obtain ⟨output, first, taken⟩ := bind_eq_some_iff.mp taken
    obtain ⟨_, rest, same⟩ := bind_eq_some_iff.mp taken
    cases same
    rw [forall_mem_cons, ← step rest, mapM_cons]
    constructor
    · intro parsed
      obtain ⟨_, first', parsed⟩ := bind_eq_some_iff.mp parsed
      obtain ⟨_, rest', same⟩ := bind_eq_some_iff.mp parsed
      cases same
      refine ⟨?_, rest'⟩
      intro another found
      cases first.symm.trans found
      exact first'
    · intro ⟨here, there⟩
      rw [here output first, there]
      rfl

theorem mapM_guard {guard : Item → Option Guard} :
    items.mapM (fun item => (guard item).bind (fun _ => take item)) = some outputs ↔
      (∀ item ∈ items, (guard item).isSome = true) ∧ items.mapM take = some outputs := by
  induction items generalizing outputs with
  | nil => simp
  | cons item _ step =>
    rw [mapM_cons, mapM_cons, forall_mem_cons]
    cases guard item with
    | none => simp
    | some =>
      cases take item with
      | none => simp
      | some =>
        simp only [bind_some, isSome_some, true_and, bind_eq_bind]
        constructor
        · intro taken
          obtain ⟨others, rest, same⟩ := bind_eq_some_iff.mp taken
          have rest := step.mp rest
          exact ⟨rest.1, bind_eq_some_iff.mpr ⟨others, rest.2, same⟩⟩
        · intro ⟨passing, taken⟩
          obtain ⟨others, rest, same⟩ := bind_eq_some_iff.mp taken
          exact bind_eq_some_iff.mpr ⟨others, step.mpr ⟨passing, rest⟩, same⟩

theorem mapM_isSome :
    (items.mapM take).isSome = true ↔ ∀ item ∈ items, (take item).isSome = true := by
  induction items with
  | nil => simp
  | cons item items step =>
    rw [mapM_cons, forall_mem_cons, ← step]
    cases take item with
    | none => simp
    | some => cases items.mapM take <;> simp

theorem length_mapM (taken : items.mapM take = some outputs) : items.length = outputs.length := by
  induction items generalizing outputs with
  | nil =>
    cases taken
    rfl
  | cons _ _ step =>
    rw [mapM_cons] at taken
    obtain ⟨_, _, taken⟩ := bind_eq_some_iff.mp taken
    obtain ⟨_, rest, same⟩ := bind_eq_some_iff.mp taken
    cases same
    exact congrArg (· + 1) (step rest)

theorem exists_of_mem_mapM (taken : items.mapM take = some outputs) {output : Value}
    (member : output ∈ outputs) : ∃ item ∈ items, take item = some output := by
  induction items generalizing outputs with
  | nil =>
    cases taken
    cases member
  | cons item _ step =>
    rw [mapM_cons] at taken
    obtain ⟨_, found, taken⟩ := bind_eq_some_iff.mp taken
    obtain ⟨_, rest, same⟩ := bind_eq_some_iff.mp taken
    cases same
    rcases mem_cons.mp member with rfl | member
    · exact ⟨item, mem_cons_self, found⟩
    · obtain ⟨other, inside, found⟩ := step rest member
      exact ⟨other, mem_cons_of_mem item inside, found⟩

end

end Fallible

end Usai
