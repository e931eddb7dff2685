import Usai.Schemas.Sound

/-! Schemas with a finalizer: what they are built from, and that neither the
finalizer nor the parse makes an absent value of one that is there. -/

namespace Usai.Schemas

open List Option

section

variable {zod : Zod}

def Schema.parts : Schema → List Schema
  | .wrap _ inner _ => [inner]
  | .union options _ => options
  | .array element _ => [element]
  | .tuple items rest _ => items ++ rest.toList
  | .record keyType valueType _ => [keyType, valueType]
  | .object shape _ _ => shape.map Prod.snd
  | .leaf _ _ | .pipe _ _ _ | .intersection _ _ _ | .map _ _ _ | .set _ _ => []

def Schema.checks : Schema → List Check
  | .leaf _ checks | .wrap _ _ checks | .pipe _ _ checks | .union _ checks
  | .intersection _ _ checks | .array _ checks | .tuple _ _ checks | .record _ _ checks
  | .map _ _ checks | .set _ checks | .object _ _ checks => checks

theorem zodFinalizers_final (built : zodFinalizers zod schemas depth = some finalizers) :
    ∀ schema ∈ schemas, Final zod schema := by
  induction schemas generalizing finalizers with
  | nil => nofun
  | cons _ _ step =>
    obtain ⟨finalize, first, built⟩ := bind_eq_some_iff.mp built
    obtain ⟨_, rest, _⟩ := bind_eq_some_iff.mp built
    exact forall_mem_cons.mpr ⟨⟨depth, finalize, first⟩, step rest⟩

theorem zodFields_final (built : zodFields zod shape depth = some fields) :
    ∀ field ∈ shape, Final zod field.2 := by
  induction shape generalizing fields with
  | nil => nofun
  | cons _ _ step =>
    obtain ⟨finalize, first, built⟩ := bind_eq_some_iff.mp built
    obtain ⟨_, rest, _⟩ := bind_eq_some_iff.mp built
    exact forall_mem_cons.mpr ⟨⟨depth, finalize, first⟩, step rest⟩

variable {wrapper : Wrapper} {checks : List Check} {schema : Schema} {options : List Schema}
  {passes : Value → Bool} {value output : Value}

theorem wrapFinalizer_cases {inner : Option Finalizer}
    (built : wrapFinalizer wrapper checks inner = some finalize) :
    checks = [] ∧ ∃ finalize, inner = some finalize := by
  obtain ⟨bare, built⟩ := ite_none_left_eq_some.mp built
  refine ⟨not_not.mp bare, ?_⟩
  cases wrapper with
  | optional | nullable | nonoptional | default =>
    obtain ⟨finalize, found, _⟩ := map_eq_some_iff.mp built
    exact ⟨finalize, found⟩
  | readonly | prefault | catching | lazy => cases built

theorem library_of_checksOf {test : Value → Bool} (built : checksOf zod checks = some test) :
    ∀ check ∈ checks, check.libraryCheck.isSome = true := by
  obtain ⟨_, found, _⟩ := map_eq_some_iff.mp built
  exact library_of_mapM found

theorem Final.wrap_bare {inner : Schema}
    (final : Final zod (.wrap wrapper inner checks)) : checks = [] := by
  obtain ⟨_, _, built⟩ := final
  exact (wrapFinalizer_cases (within_eq built)).1

theorem Final.union_bare (final : Final zod (.union options checks)) : checks = [] := by
  obtain ⟨_, _, built⟩ := final
  have built := within_eq built
  split at built
  · cases built
  · next bare => exact not_not.mp bare

theorem Final.built (final : Final zod schema) : (∀ part ∈ schema.parts, Final zod part) ∧
    ∀ check ∈ schema.checks, check.libraryCheck.isSome = true := by
  obtain ⟨_, finalize, built⟩ := final
  cases schema with
  | pipe | intersection | map | set => cases built
  | leaf leaf _ =>
    refine ⟨nofun, ?_⟩
    have built := within_eq built
    cases leaf with
    | string | number | boolean | null | literal | enum | any | unknown =>
      obtain ⟨_, found, _⟩ := map_eq_some_iff.mp built
      exact library_of_checksOf found
    | bigint | date | symbol | undefined | void | never | nan | file | templateLiteral
    | transform | custom => cases built
  | wrap =>
    obtain ⟨rfl, finalize, found⟩ := wrapFinalizer_cases (within_eq built)
    exact ⟨forall_mem_singleton.mpr ⟨_, finalize, found⟩, nofun⟩
  | union =>
    have built := within_eq built
    split at built
    · cases built
    · next bare =>
      obtain ⟨finalizers, found, _⟩ := bind_eq_some_iff.mp built
      cases not_not.mp bare
      exact ⟨zodFinalizers_final found, nofun⟩
  | array =>
    obtain ⟨item, found, built⟩ := bind_eq_some_iff.mp (within_eq built)
    obtain ⟨passing, tests, _⟩ := bind_eq_some_iff.mp built
    exact ⟨forall_mem_singleton.mpr ⟨_, item, found⟩, library_of_checksOf tests⟩
  | tuple =>
    obtain ⟨_, found, built⟩ := bind_eq_some_iff.mp (within_eq built)
    obtain ⟨_, more, built⟩ := bind_eq_some_iff.mp built
    obtain ⟨passing, tests, _⟩ := bind_eq_some_iff.mp built
    refine ⟨forall_mem_append.mpr ⟨zodFinalizers_final found, ?_⟩, library_of_checksOf tests⟩
    intro part member
    cases mem_toList.mp member
    obtain ⟨finalize, proved, _⟩ := map_eq_some_iff.mp more
    exact ⟨_, finalize, proved⟩
  | record =>
    obtain ⟨key, found, built⟩ := bind_eq_some_iff.mp (within_eq built)
    obtain ⟨item, more, built⟩ := bind_eq_some_iff.mp built
    obtain ⟨passing, tests, _⟩ := bind_eq_some_iff.mp built
    exact ⟨forall_mem_cons.mpr ⟨⟨_, key, found⟩,
      forall_mem_singleton.mpr ⟨_, item, more⟩⟩, library_of_checksOf tests⟩
  | object =>
    obtain ⟨_, found, built⟩ := bind_eq_some_iff.mp (within_eq built)
    obtain ⟨_, _, built⟩ := bind_eq_some_iff.mp built
    obtain ⟨_, tests, _⟩ := bind_eq_some_iff.mp built
    exact ⟨forall_mem_map.mpr (zodFields_final found), library_of_checksOf tests⟩

theorem Final.part {part : Schema} (final : Final zod schema) (member : part ∈ schema.parts) :
    Final zod part := final.built.1 part member

theorem arrayFinalizer_some {items : List Value → Option (List Value)}
    (found : arrayFinalizer items passes value = some output) :
    ∃ values outputs, value.items = some values ∧ passes value = true ∧
      items values = some outputs ∧ output = .array outputs := by
  obtain ⟨values, array, found⟩ := bind_eq_some_iff.mp found
  split at found
  · next passing =>
    obtain ⟨outputs, taken, rfl⟩ := map_eq_some_iff.mp found
    exact ⟨values, outputs, array, passing, taken, rfl⟩
  · cases found

theorem objectFinalizer_some {keys : List String}
    {fields : List (String × Value) → Option (List Value)}
    (found : objectFinalizer keys fields keep passes value = some output) :
    ∃ brand properties outputs, value.properties = some (brand, properties) ∧
      passes value = true ∧ fields properties = some outputs ∧
      output = .object none (keys.zip outputs ++ if keep then kept keys properties else []) := by
  obtain ⟨⟨brand, properties⟩, object, found⟩ := bind_eq_some_iff.mp found
  obtain ⟨passing, found⟩ := ite_none_right_eq_some.mp found
  obtain ⟨outputs, taken, rfl⟩ := map_eq_some_iff.mp found
  exact ⟨brand, properties, outputs, object, passing, taken, rfl⟩

theorem recordFinalizer_some (found : recordFinalizer key item passes value = some output) :
    ∃ brand properties outputs, value.properties = some (brand, properties) ∧
      passes value = true ∧
      properties.mapM (fun property => (key (.string property.1)).bind (fun _ =>
        item property.2)) = some outputs ∧
      output = assemble (properties.map Prod.fst) outputs := by
  obtain ⟨⟨brand, properties⟩, object, found⟩ := bind_eq_some_iff.mp found
  obtain ⟨passing, found⟩ := ite_none_right_eq_some.mp found
  obtain ⟨outputs, taken, rfl⟩ := map_eq_some_iff.mp found
  exact ⟨brand, properties, outputs, object, passing, taken, rfl⟩

theorem fitOptions_some (fitting : fitOptions zod options value = some output) :
    ∃ option ∈ options, option.fit zod value = some output := by
  induction options with
  | nil => cases fitting
  | cons option _ step =>
    rcases or_eq_some_iff.mp fitting with here | ⟨_, there⟩
    · exact ⟨option, mem_cons_self, here⟩
    · obtain ⟨other, member, found⟩ := step there
      exact ⟨other, mem_cons_of_mem option member, found⟩

theorem fit_present
    (fitting : schema.fit zod value = some output) (present : value.isUndefined = false) :
    output.isUndefined = false := by
  induction schema using Schema.induct generalizing output with
  | leaf =>
    rw [Schema.fit] at fitting
    split at fitting <;> cases fitting
    exact present
  | wrap wrapper _ _ step =>
    rw [Schema.fit] at fitting
    split at fitting
    · cases wrapper with
      | optional | nonoptional | default =>
        rw [Wrapper.fit, present] at fitting
        exact step fitting
      | nullable =>
        rw [Wrapper.fit] at fitting
        split at fitting
        · cases fitting
          exact present
        · exact step fitting
      | readonly | prefault | catching | lazy => cases fitting
    · cases fitting
  | union _ _ step =>
    rw [Schema.fit] at fitting
    split at fitting
    · obtain ⟨option, member, found⟩ := fitOptions_some fitting
      exact step option member found
    · cases fitting
  | array | tuple =>
    obtain ⟨_, _, _, _, _, rfl⟩ := arrayFinalizer_some fitting
    rfl
  | record =>
    obtain ⟨_, _, _, _, _, _, rfl⟩ := recordFinalizer_some fitting
    rfl
  | object =>
    obtain ⟨_, _, fitting⟩ := bind_eq_some_iff.mp fitting
    obtain ⟨_, _, _, _, _, _, rfl⟩ := objectFinalizer_some fitting
    rfl
  | pipe | intersection | map | set => cases fitting

theorem runOptions_output (option : Schema) (options : List Schema) (value : Value) :
    (runOptions zod (option :: options) value).output =
      (option.parse zod value).or (runOptions zod options value).output := by
  rw [runOptions, Schema.parse, Payload.output.eq_def (option.run zod value)]
  split
  · next clean => rw [Payload.output, if_pos clean, some_or]
  · next failed =>
    rfl

theorem runOptions_some (parsed : (runOptions zod options value).output = some output) :
    ∃ option ∈ options, option.parse zod value = some output := by
  induction options with
  | nil => cases parsed
  | cons option _ step =>
    rw [runOptions_output] at parsed
    rcases or_eq_some_iff.mp parsed with here | ⟨_, there⟩
    · exact ⟨option, mem_cons_self, here⟩
    · obtain ⟨other, member, found⟩ := step there
      exact ⟨other, mem_cons_of_mem option member, found⟩

theorem output_of_checks (library : ∀ check ∈ checks, check.libraryCheck.isSome = true)
    (parsed : (runChecks zod checks payload).output = some output) :
    payload.output = some output := by
  rw [runChecks_output library] at parsed
  exact (filter_eq_some_iff.mp parsed).1

theorem required_output (payload : Payload) :
    payload.required.output = payload.output.filter (fun value => !value.isUndefined) := by
  obtain ⟨_, value, verdict⟩ := payload
  cases verdict <;> cases value <;> rfl

theorem defaulted_output (supply : Supply) (payload : Payload) :
    (payload.defaulted supply).output =
      payload.output.map (fun value => if value.isUndefined then supply.value else value) := by
  obtain ⟨_, value, verdict⟩ := payload
  cases verdict <;> cases value <;> rfl

theorem absent_output (payload : Payload) :
    payload.absent.output = some (payload.output.getD .undefined) := by
  obtain ⟨_, _, verdict⟩ := payload
  cases verdict <;> rfl

theorem absent_exact (payload : Payload) :
    payload.absent.output = some .undefined ↔
      ∀ output, payload.output = some output → output = .undefined := by
  rw [absent_output]
  cases payload.output with
  | none => exact iff_of_true rfl nofun
  | some => simp

theorem gather_some {build : List Value → Value}
    (gathered : (gather build parts).output = some output) : ∃ values, output = build values := by
  rw [gather_output] at gathered
  obtain ⟨values, _, rfl⟩ := map_eq_some_iff.mp gathered
  exact ⟨values, rfl⟩

theorem own_output
    (final : Final zod (.leaf leaf checks)) (parsed : (leaf.own zod value).output = some output) :
    output = value := by
  obtain ⟨_, _, built⟩ := final
  have built := within_eq built
  have checked {own : LibraryCheck}
      (parsed : (if zod.test own value then Payload.accepted value
        else (Payload.accepted value).faulted false).output = some output) : output = value := by
    split at parsed
    · exact (some.inj parsed).symm
    · cases parsed
  cases leaf with
  | string _ own | number _ own =>
    cases own with
    | none => exact (some.inj parsed).symm
    | some => exact checked parsed
  | boolean | null | literal | enum | any | unknown => exact (some.inj parsed).symm
  | bigint | date | symbol | undefined | void | never | nan | file | templateLiteral | transform
  | custom => cases built

theorem typed_present
    (final : Final zod (.leaf leaf checks)) (tested : leaf.typed zod value = some typed)
    (present : value.isUndefined = false) : typed.isUndefined = false := by
  obtain ⟨_, _, built⟩ := final
  have built := within_eq built
  cases leaf with
  | string =>
    simp only [Leaf.typed] at tested
    split at tested
    · cases tested
      rfl
    · obtain ⟨_, tested⟩ := ite_none_right_eq_some.mp tested
      obtain ⟨_, _, rfl⟩ := map_eq_some_iff.mp tested
      rfl
  | number =>
    simp only [Leaf.typed] at tested
    split at tested
    · cases tested
      rfl
    · cases tested
    · obtain ⟨_, tested⟩ := ite_none_right_eq_some.mp tested
      obtain ⟨amount, _, tested⟩ := bind_eq_some_iff.mp tested
      cases amount with
      | finite =>
        cases tested
        rfl
      | infinity | nan => cases tested
  | boolean =>
    simp only [Leaf.typed] at tested
    split at tested
    · cases tested
      rfl
    · obtain ⟨_, rfl⟩ := ite_some_none_eq_some.mp tested
      rfl
  | null | literal | enum =>
    obtain ⟨_, rfl⟩ := ite_some_none_eq_some.mp tested
    exact present
  | any | unknown =>
    cases tested
    exact present
  | bigint | date | symbol | undefined | void | never | nan | file | templateLiteral | transform
  | custom => cases built

theorem wrap_parse {inner : Schema} (value : Value) :
    (Schema.wrap wrapper inner []).parse zod value =
      (wrapper.run zod inner (inner.run zod) value).output := rfl

theorem parse_present (final : Final zod schema)
    (parsed : schema.parse zod value = some output) (present : value.isUndefined = false) :
    output.isUndefined = false := by
  induction schema using Schema.induct generalizing output with
  | leaf =>
    have parsed := output_of_checks final.built.2 parsed
    unfold Leaf.run at parsed
    split at parsed
    · next typed tested =>
      rw [own_output final parsed]
      exact typed_present final tested present
    · cases parsed
  | wrap wrapper inner _ step =>
    cases final.wrap_bare
    have step {output : Value} (parsed : inner.parse zod value = some output) :=
      step (final.part mem_cons_self) parsed
    rw [wrap_parse] at parsed
    cases wrapper with
    | optional =>
      rw [Wrapper.run, present] at parsed
      exact step parsed
    | nullable =>
      rw [Wrapper.run] at parsed
      split at parsed
      · cases parsed
        exact present
      · exact step parsed
    | nonoptional =>
      rw [Wrapper.run, required_output] at parsed
      exact step (filter_eq_some_iff.mp parsed).1
    | default =>
      rw [Wrapper.run, present] at parsed
      obtain ⟨_, found, rfl⟩ :=
        map_eq_some_iff.mp ((defaulted_output ..).symm.trans parsed)
      rw [step found]
      exact step found
    | readonly | prefault | catching | lazy =>
      obtain ⟨_, _, built⟩ := final
      cases within_eq built
  | union _ _ step =>
    obtain ⟨option, member, found⟩ := runOptions_some (output_of_checks final.built.2 parsed)
    exact step option member (final.part member) found
  | array | object =>
    have parsed := output_of_checks final.built.2 parsed
    split at parsed
    · obtain ⟨_, rfl⟩ := gather_some parsed
      rfl
    · cases parsed
  | tuple =>
    have parsed := output_of_checks final.built.2 parsed
    split at parsed
    · split at parsed
      · cases parsed
      · obtain ⟨_, rfl⟩ := gather_some parsed
        rfl
    · cases parsed
  | record =>
    have parsed := output_of_checks final.built.2 parsed
    split at parsed
    · split at parsed
      · obtain ⟨_, rfl⟩ := gather_some parsed
        rfl
      · obtain ⟨_, rfl⟩ := gather_some parsed
        rfl
    · cases parsed
    · cases parsed
  | pipe | intersection | map | set =>
    obtain ⟨_, _, built⟩ := final
    cases built

end

end Usai.Schemas
