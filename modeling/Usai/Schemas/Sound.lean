import Usai.Schemas.Fit

/-! What is asked of a value so that the parse gives the output for the value as it
stands: the parse has steps that a finalizer does not take. -/

namespace Usai.Schemas

open List Option Payload

section

variable (zod : Zod)

/-- The checks that the parse comes to pass the value; a `when` of the library or
the application may pass over one. -/
def admitted (checks : List Check) (value : Value) : Bool :=
  checks.all (fun check => check.when.any (fun condition => !condition.holds value) ||
    check.libraryCheck.any (fun library => zod.test library value))

variable {zod}

variable {checks : List Check} {value : Value} {payload : Payload}

theorem library_of_passes (passing : passes zod checks value = true) :
    ∀ check ∈ checks, check.libraryCheck.isSome = true := by
  intro check member
  exact isSome_of_any (all_eq_true.mp passing check member)

theorem faulted_verdict (payload : Payload) (abort : Bool) :
    (payload.faulted abort).verdict ≠ .clean := by
  intro clean
  have both := Verdict.join_eq_clean.mp clean
  cases abort with
  | true => cases both.2
  | false => cases both.2

theorem clean_of_check {check : Check}
    (clean : (check.run zod payload).verdict = .clean) : payload.verdict = .clean := by
  unfold Check.run at clean
  split at clean
  · cases action : check.action with
    | library | refinement =>
      simp only [action] at clean
      split at clean
      · exact clean
      · exact absurd clean (faulted_verdict _ _)
    | overwrite =>
      simp only [action] at clean
      exact clean
  · exact clean

theorem clean_of_runChecks
    (clean : (runChecks zod checks payload).verdict = .clean) : payload.verdict = .clean := by
  induction checks generalizing payload with
  | nil => exact clean
  | cons _ _ step => exact clean_of_check (step clean)

theorem runChecks_rejected (checks : List Check) (value : Value) :
    (runChecks zod checks (.rejected value)).output = none := by
  refine if_neg ?_
  intro clean
  cases clean_of_runChecks clean

theorem check_output {check : Check} {library : LibraryCheck}
    (found : check.libraryCheck = some library) (payload : Payload) :
    (check.run zod payload).output = payload.output.filter (fun value =>
      check.when.any (fun condition => !condition.holds value) || zod.test library value) := by
  by_cases clean : payload.verdict = .clean
  · have kind : check.action = .library library := by
      unfold Check.libraryCheck at found
      split at found
      · next action => rw [action, some.inj found]
      · cases found
      · cases found
    have applied : check.applies payload =
        !check.when.any (fun condition => !condition.holds payload.value) := by
      cases when : check.when with
      | none => simp [Check.applies, when, clean]
      | some => simp [Check.applies, when]
    rw [output.eq_def payload, if_pos clean, filter_some, Check.run, applied, kind]
    cases check.when.any (fun condition => !condition.holds payload.value) with
    | true => simp [output, clean]
    | false =>
      cases test : zod.test library payload.value with
      | true => simp [output, clean, test]
      | false => simp [output, faulted_verdict, test]
  · rw [output, if_neg (fun kept => clean (clean_of_check kept)), output,
      if_neg clean]
    rfl

theorem runChecks_output
    (library : ∀ check ∈ checks, check.libraryCheck.isSome = true) (payload : Payload) :
    (runChecks zod checks payload).output = payload.output.filter (admitted zod checks) := by
  induction checks generalizing payload with
  | nil =>
    change payload.output = _
    cases payload.output <;> rfl
  | cons check _ step =>
    rw [forall_mem_cons] at library
    obtain ⟨_, found⟩ := isSome_iff_exists.mp library.1
    have rest := step library.2 (check.run zod payload)
    rw [check_output found, Option.filter_filter] at rest
    refine rest.trans (congrArg (Option.filter · payload.output) (funext ?_))
    intro value
    simp only [admitted, all_cons, found, any_some]

theorem mapM_output (parts : List Payload) :
    parts.mapM output =
      if (parts.map verdict).foldr Verdict.join .clean = .clean then
        some (parts.map Payload.value)
      else none := by
  induction parts with
  | nil => rfl
  | cons part parts step =>
    rw [mapM_cons, step, map_cons, foldr_cons]
    simp only [Verdict.join_eq_clean, output]
    by_cases clean : part.verdict = .clean
    · by_cases rest : (parts.map verdict).foldr Verdict.join .clean = .clean
      · simp [clean, rest]
      · simp [clean, rest]
    · simp [clean]

theorem gather_output (build : List Value → Value) (parts : List Payload) :
    (gather build parts).output = (parts.mapM Payload.output).map build := by
  rw [mapM_output, apply_ite (Option.map build)]
  rfl

theorem checked_gather {output : Value}
    (passing : passes zod checks value = true) (build : List Value → Value)
    (parts : List Payload) :
    (runChecks zod checks (gather build parts)).output = some output ↔
      (parts.mapM Payload.output).map build = some output ∧ admitted zod checks output = true := by
  rw [runChecks_output (library_of_passes passing), gather_output, filter_eq_some_iff]

end

section

variable (zod : Zod)

/-- What a leaf asks beside the test of the finalizer: the check of a number format,
and that the value of a numeric enumeration is not one of its names. -/
def Leaf.Sound : Leaf → Value → Prop
  | .number _ (some own), value => zod.test own value = true
  | .enum entries, value => (enumValues entries).any value.same = true
  | _, _ => True

def Wrapper.Sound (wrapper : Wrapper) (inner : Schema) (sound : Value → Prop) (value : Value) :
    Prop :=
  match wrapper with
  | .optional =>
    if value.isUndefined then
      zod.optin inner = true → ∀ output, inner.parse zod value = some output → output = value
    else sound value
  | .nullable => value.isNull = false → sound value
  | .nonoptional | .default _ => value.isUndefined = false → sound value
  | .readonly | .prefault _ | .catching _ | .lazy _ => True

/-- The parse gives each key back. With the values of the key known, there is no
other key, and one that is missing may be. -/
def KeysSound (keyType valueType : Schema) (properties : List (String × Value)) : Prop :=
  match zod.values keyType with
  | some keys =>
    (∀ property ∈ properties, property.1 ∈ keys.map (Value.name zod)) ∧
    ∀ name ∈ keys.map (Value.name zod), (properties.lookup name).isNone = true →
      valueType.parse zod (Value.get properties name) = some .undefined
  | none => ∀ property ∈ properties,
      (keyType.parse zod (.string property.1)).map (Value.name zod) = some property.1

/-- A strict object has no undeclared key. A loose one has none with the name of an
inherited method, and takes the value of each as it is. -/
def CatchallSound (catchall : Option Schema) (extra : List (String × Value)) : Prop :=
  match catchall with
  | none => True
  | some (.leaf .never _) => extra = []
  | some schema => ∀ property ∈ extra, property.1 ∉ Text.objectMethods ∧
      schema.parse zod property.2 = some property.2

mutual

/-- The parse does nothing beyond what the finalizer does. Where a whole has
checks, the parse applies them to its output, not to the value. -/
def Schema.Sound : Schema → Value → Prop
  | .leaf leaf checks, value =>
    ((Schema.leaf leaf checks).fit zod value).isSome = true → leaf.Sound zod value
  | .wrap wrapper inner _, value => wrapper.Sound zod inner (fun value => inner.Sound value) value
  | .union options _, value => SoundOptions options value
  | .array element checks, value =>
    ∀ output, (Schema.array element checks).fit zod value = some output →
      (∀ items, value.items = some items → ∀ item ∈ items, element.Sound item) ∧
      admitted zod checks output = true
  | .tuple items rest checks, value =>
    ∀ output, (Schema.tuple items rest checks).fit zod value = some output →
      (∀ values, value.items = some values →
        SoundItems items values ∧ SoundRest rest (values.drop items.length)) ∧
      admitted zod checks output = true
  | .record keyType valueType checks, value =>
    ∀ output, (Schema.record keyType valueType checks).fit zod value = some output →
      (∀ brand properties, value.properties = some (brand, properties) →
        brand = none ∧ KeysSound zod keyType valueType properties ∧
        ∀ property ∈ properties, valueType.Sound property.2) ∧
      admitted zod checks output = true
  | .object shape catchall checks, value =>
    ∀ output, (Schema.object shape catchall checks).fit zod value = some output →
      (∀ brand properties, value.properties = some (brand, properties) →
        SoundShape shape properties ∧ CatchallSound zod catchall
          (properties.filter (fun property => property.1 ∉ shape.map Prod.fst))) ∧
      admitted zod checks output = true
  | .pipe _ _ _, _ | .intersection _ _ _, _ | .map _ _ _, _ | .set _ _, _ => True

/-- No option that has to convert the value comes before the one it fits. An option
that rejects what fits it leaves the value to those after it. -/
def SoundOptions : List Schema → Value → Prop
  | [], _ => True
  | option :: options, value =>
    match option.fit zod value, option.parse zod value with
    | some _, some _ => option.Sound value
    | some output, none => (runOptions zod options value).output = some output
    | none, some output => ∀ other, fitOptions zod options value = some other → output = other
    | none, none => SoundOptions options value

def SoundItems : List Schema → List Value → Prop
  | [], _ | _ :: _, [] => True
  | item :: items, value :: values => item.Sound value ∧ SoundItems items values

def SoundRest : Option Schema → List Value → Prop
  | none, _ => True
  | some rest, values => ∀ value ∈ values, rest.Sound value

def SoundShape : List (String × Schema) → List (String × Value) → Prop
  | [], _ => True
  | (key, field) :: shape, properties =>
    (if Value.has properties key || !zod.optin field then
      field.Sound (Value.get properties key)
    else field.parse zod .undefined = some .undefined) ∧
    SoundShape shape properties

end

def Final (schema : Schema) : Prop := ∃ depth finalize, zodFinalizer zod schema depth = some finalize

def Exact (schema : Schema) (value : Value) : Prop :=
  ∀ output, schema.fit zod value = some output → schema.parse zod value = some output

end

end Usai.Schemas
