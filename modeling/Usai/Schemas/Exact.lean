import Usai.Fallible
import Usai.Schemas.Present

/-! When the output for a value as it stands is the output of the parse: one case
for every kind of node, and the whole tree by induction. -/

namespace Usai.Schemas

open Fallible Function List Option Payload Schema Text

section

variable {zod : Zod}

theorem own_format (own : LibraryCheck) (value : Value) :
    (if zod.test own value then accepted value
      else (accepted value).faulted false).output = some value ↔
      zod.test own value = true := by
  cases zod.test own value with
  | true => exact iff_of_true rfl rfl
  | false => exact iff_of_false nofun nofun

variable {leaf : Leaf} {value output : Value} {checks : List Check}
  {inner valueType keyType : Schema} {items : List Schema} {outputs values further first : List Value}
  {rest catchall : Option Schema} {names : List String} {properties : List (String × Value)}
  {shape : List (String × Schema)}

theorem leaf_exact (fitting : leaf.fits zod value = true) :
    (leaf.run zod value).output = some value ↔ leaf.Sound zod value := by
  cases leaf with
  | string _ own =>
    refine iff_of_true ?_ trivial
    cases value with
    | string =>
      cases own with
      | none => rfl
      | some own => exact (own_format own _).mpr fitting
    | _ => cases fitting
  | number _ own =>
    cases value with
    | number amount =>
      cases amount with
      | finite =>
        cases own with
        | none => exact iff_of_true rfl trivial
        | some own => exact own_format own _
      | infinity | nan => cases fitting
    | _ => cases fitting
  | boolean =>
    refine iff_of_true ?_ trivial
    cases value with
    | bool => rfl
    | _ => cases fitting
  | null =>
    refine iff_of_true ?_ trivial
    cases value with
    | null => rfl
    | _ => cases fitting
  | literal values =>
    refine iff_of_true ?_ trivial
    have listed : values.any value.same = true := fitting
    rw [Leaf.run, Leaf.typed, if_pos listed]
    rfl
  | enum entries =>
    rw [Leaf.run, Leaf.typed, Leaf.Sound]
    cases (enumValues entries).any value.same with
    | true => exact iff_of_true rfl rfl
    | false => exact iff_of_false (by rintro ⟨⟩) (by simp)
  | any | unknown => exact iff_of_true rfl trivial
  | bigint | date | symbol | undefined | void | never | nan | file | templateLiteral | transform
  | custom => cases fitting

theorem leaf_parse (fitting : (Schema.leaf leaf checks).fit zod value = some output) :
    (Schema.leaf leaf checks).parse zod value = some output ↔ leaf.Sound zod value := by
  obtain ⟨both, rfl⟩ := ite_some_none_eq_some.mp fitting
  obtain ⟨fits, passing⟩ := Bool.and_eq_true_iff.mp both
  rw [← leaf_exact fits, Schema.parse, Schema.run,
    runChecks_output (library_of_passes passing), filter_eq_some_iff]
  refine and_iff_left (all_eq_true.mpr ?_)
  intro check member
  rw [all_eq_true.mp passing check member, Bool.or_true]

def Settled (zod : Zod) (schema : Schema) : Prop :=
  ∀ value, Exact zod schema value ↔ schema.Sound zod value

theorem wrap_exact (final : Final zod (.wrap wrapper inner []))
    (inside : Final zod inner) (settled : Settled zod inner) :
    Settled zod (.wrap wrapper inner []) := by
  intro value
  unfold Exact
  rw [wrap_parse, fit, if_pos rfl, Schema.Sound]
  cases wrapper with
  | optional =>
    rw [Wrapper.fit, Wrapper.run, Wrapper.Sound]
    cases absent : value.isUndefined with
    | false => exact settled value
    | true =>
      cases value with
      | undefined =>
        cases zod.optin inner with
        | false => exact iff_of_true (fun _ same => same) (by simp)
        | true =>
          simp only [if_true, some.injEq, forall_eq', true_imp_iff]
          exact absent_exact (inner.run zod .undefined)
      | _ => cases absent
  | nullable =>
    rw [Wrapper.fit, Wrapper.run, Wrapper.Sound]
    cases null : value.isNull with
    | false =>
      exact (settled value).trans (forall_prop_of_true (q := fun _ => inner.Sound zod value) rfl).symm
    | true => exact iff_of_true (fun _ same => same) (by simp)
  | nonoptional =>
    rw [Wrapper.fit, Wrapper.run, Wrapper.Sound]
    cases absent : value.isUndefined with
    | true => exact iff_of_true (by simp) (by simp)
    | false =>
      rw [forall_prop_of_true rfl, ← settled value, required_output]
      refine forall_congr' (fun output => forall_congr' ?_)
      intro fitting
      have there := fit_present fitting absent
      exact filter_eq_some_iff.trans (and_iff_left (by rw [there]; rfl))
  | default supply =>
    rw [Wrapper.fit, Wrapper.run, Wrapper.Sound]
    cases absent : value.isUndefined with
    | true => exact iff_of_true (fun _ same => same) (by simp)
    | false =>
      -- the inner parse gives no absent value, so the default is not asked again
      have kept : (inner.parse zod value).map (fun value => if value.isUndefined then supply.value
          else value) = inner.parse zod value := by
        cases parsed : inner.parse zod value with
        | none => rfl
        | some => rw [map_some, parse_present inside parsed absent]; rfl
      rw [forall_prop_of_true rfl, ← settled value]
      refine forall_congr' (fun output => forall_congr' ?_)
      intro fitting
      rw [← kept]
      exact iff_of_eq (congrArg (· = some output) (defaulted_output supply (inner.run zod value)))
  | readonly | prefault | catching | lazy =>
    obtain ⟨_, _, built⟩ := final
    cases within_eq built

theorem options_exact (settled : ∀ option ∈ options, Settled zod option)
    (value : Value) :
    (∀ output, fitOptions zod options value = some output →
      (runOptions zod options value).output = some output) ↔ SoundOptions zod options value := by
  induction options with
  | nil => exact iff_of_true nofun trivial
  | cons option _ step =>
    rw [forall_mem_cons] at settled
    have here := settled.1 value
    have there := step settled.2
    rw [SoundOptions, runOptions_output, fitOptions]
    cases fits : option.fit zod value with
    | none =>
      cases parsed : option.parse zod value with
      | none => exact there
      | some =>
        refine forall_congr' (fun other => forall_congr' ?_)
        intro _
        exact some_inj
    | some =>
      unfold Exact at here
      rw [fits] at here
      cases parsed : option.parse zod value with
      | none => simp only [some_or, none_or, some.injEq, forall_eq']
      | some =>
        rw [parsed] at here
        exact here

theorem items_exact {items : List (Schema × Value)} (settled : ∀ item ∈ items, Settled zod item.1)
    (taken : items.mapM (fun item => item.1.fit zod item.2) = some outputs) :
    ((items.map (fun item => item.1.run zod item.2)).mapM Payload.output).map Value.array =
        some (.array outputs) ↔
      ∀ item ∈ items, item.1.Sound zod item.2 := by
  rw [mapM_map]
  have agree := mapM_agree (fun item => item.1.parse zod item.2) taken
  have parts : (∀ item ∈ items, Exact zod item.1 item.2) ↔
      ∀ item ∈ items, item.1.Sound zod item.2 :=
    forall₂_congr (fun item member => settled item member item.2)
  rw [← parts]
  refine Iff.trans ?_ agree
  rw [map_eq_some_iff]
  constructor
  · intro ⟨values, parsed, same⟩
    cases same
    exact parsed
  · intro parsed
    exact ⟨outputs, parsed, rfl⟩

theorem array_exact {element : Schema} (settled : Settled zod element)
    (fitting : (array element checks).fit zod value = some output) :
    (array element checks).parse zod value = some output ↔
      (∀ items, value.items = some items → ∀ item ∈ items, element.Sound zod item) ∧
        admitted zod checks output = true := by
  obtain ⟨values, outputs, array, passing, taken, rfl⟩ := arrayFinalizer_some fitting
  have each : ∀ item ∈ values.map (fun item => (element, item)), Settled zod item.1 :=
    forall_mem_map.mpr (fun _ _ => settled)
  have fits : (values.map (fun item => (element, item))).mapM (fun item => item.1.fit zod item.2) =
      some outputs := by
    rw [mapM_map]
    exact taken
  have items := items_exact each fits
  rw [Schema.parse, Schema.run, array]
  refine (checked_gather passing ..).trans (and_congr_left' ?_)
  simpa [comp_def] using items

theorem fitItems_full
    (fitting : fitItems zod items values = some first) : items.length ≤ values.length := by
  induction items generalizing values first with
  | nil => exact Nat.zero_le _
  | cons _ _ step =>
    cases values with
    | nil => cases fitting
    | cons =>
      obtain ⟨_, _, fitting⟩ := bind_eq_some_iff.mp fitting
      obtain ⟨_, taken, _⟩ := bind_eq_some_iff.mp fitting
      exact Nat.succ_le_succ (step taken)

theorem fitRest_none (fitting : fitRest zod none values = some further) : values = [] := by
  cases values with
  | nil => rfl
  | cons => cases fitting

theorem needed_le (zod : Zod) (items : List Schema) : needed zod items ≤ items.length := by
  have dropped : (items.reverse.dropWhile zod.optin).length ≤ items.reverse.length :=
    (dropWhile_suffix zod.optin).length_le
  rw [length_reverse] at dropped
  exact dropped

theorem fitItems_pairs
    (fitting : fitItems zod items values = some first)
    (more : fitRest zod rest (values.drop items.length) = some further) :
    (pairs items rest values).mapM (fun pair => pair.1.fit zod pair.2) =
      some (first ++ further) := by
  induction items generalizing values first with
  | nil =>
    cases fitting
    cases rest with
    | none =>
      cases values with
      | nil =>
        cases more
        rfl
      | cons => cases more
    | some =>
      rw [pairs, mapM_map]
      exact more
  | cons _ _ step =>
    cases values with
    | nil => cases fitting
    | cons =>
      obtain ⟨_, here, fitting⟩ := bind_eq_some_iff.mp fitting
      obtain ⟨_, taken, same⟩ := bind_eq_some_iff.mp fitting
      cases same
      rw [pairs, mapM_cons, step taken more, here]
      rfl

theorem sound_pairs (full : items.length ≤ values.length) :
    (SoundItems zod items values ∧ SoundRest zod rest (values.drop items.length)) ↔
      ∀ pair ∈ pairs items rest values, pair.1.Sound zod pair.2 := by
  induction items generalizing values with
  | nil =>
    cases rest with
    | none | some => simp [SoundItems, SoundRest, pairs]
  | cons _ _ step =>
    cases values with
    | nil => cases full
    | cons =>
      rw [pairs, forall_mem_cons, ← step (Nat.le_of_succ_le_succ full), SoundItems,
        and_assoc]
      rfl

theorem tuple_exact
    (first : ∀ item ∈ items, Settled zod item) (second : ∀ item ∈ rest, Settled zod item)
    (fitting : (tuple items rest checks).fit zod value = some output) :
    (tuple items rest checks).parse zod value = some output ↔
      (∀ values, value.items = some values →
          SoundItems zod items values ∧ SoundRest zod rest (values.drop items.length)) ∧
        admitted zod checks output = true := by
  obtain ⟨values, _, array, passing, taken, rfl⟩ := arrayFinalizer_some fitting
  obtain ⟨_, start, taken⟩ := bind_eq_some_iff.mp taken
  obtain ⟨further, more, rfl⟩ := map_eq_some_iff.mp taken
  have full := fitItems_full start
  -- the number of items is right
  have counted : (rest.isNone && (decide (values.length < needed zod items) ||
      decide (items.length < values.length))) = false := by
    cases rest with
    | some => rfl
    | none =>
      have ended : values.length ≤ items.length := drop_eq_nil_iff.mp (fitRest_none more)
      have enough := (needed_le zod items).trans full
      simp only [isNone_none, Bool.true_and, Bool.or_eq_false_iff, decide_eq_false_iff_not]
      omega
  rw [Schema.parse, Schema.run, array]
  dsimp only
  rw [counted]
  refine (checked_gather passing ..).trans (and_congr_left' ?_)
  rw [runItems_eq zod rest _ 0 full]
  refine (items_exact ?_ (fitItems_pairs start more)).trans ?_
  · intro pair member
    rcases mem_pairs member with declared | further
    · exact first pair.1 declared
    · exact second pair.1 further
  · rw [← sound_pairs full]
    simp

theorem assemble_inj
    (first : names.length = values.length) (second : others.length = outputs.length) :
    assemble names values = assemble others outputs ↔ names = others ∧ values = outputs := by
  constructor
  · intro same
    have zipped := (Value.object.inj same).2
    have left := congrArg (map Prod.fst) zipped
    have right := congrArg (map Prod.snd) zipped
    rw [map_fst_zip first.le, map_fst_zip second.le] at left
    rw [map_snd_zip first.ge, map_snd_zip second.ge] at right
    exact ⟨left, right⟩
  · rintro ⟨rfl, rfl⟩
    rfl

theorem zip_long
    (many : names.length = values.length) : names.zip (values ++ others) = names.zip values := by
  have zipped : (names ++ []).zip (values ++ others) = names.zip values ++ [].zip others :=
    zip_append many
  rwa [append_nil, zip_nil_left, append_nil] at zipped

theorem forall_properties {holds : Option ℕ → List (String × Value) → Prop}
    (object : value.properties = some (brand, properties)) :
    (∀ brand properties, value.properties = some (brand, properties) → holds brand properties) ↔
      holds brand properties := by
  rw [object]
  constructor
  · intro every
    exact every brand properties rfl
  · intro here brand properties same
    cases same
    exact here

def keyed (zod : Zod) (keyType valueType : Schema) (property : String × Value) : String × Payload :=
  let key := keyType.run zod (.string property.1)
  if key.verdict = .clean then
    (key.value.name zod, (valueType.run zod property.2).called key.calls)
  else (property.1, key.ended)

theorem keyed_name (valueType : Schema)
    (parsed : (keyType.parse zod (.string property.1)).isSome = true) :
    (keyType.parse zod (.string property.1)).map (Value.name zod) =
      some (keyed zod keyType valueType property).1 := by
  unfold keyed
  by_cases clean : (keyType.run zod (.string property.1)).verdict = .clean
  · rw [if_pos clean, Schema.parse, Payload.output, if_pos clean]
    rfl
  · rw [Schema.parse, Payload.output, if_neg clean] at parsed
    cases parsed

theorem record_unknown (many : properties.length = outputs.length) :
    (((properties.map (keyed zod keyType valueType)).map Prod.snd).mapM Payload.output).map
        (assemble ((properties.map (keyed zod keyType valueType)).map Prod.fst)) =
          some (assemble (properties.map Prod.fst) outputs) ↔
      (∀ property ∈ properties,
        (keyType.parse zod (.string property.1)).map (Value.name zod) = some property.1) ∧
      properties.mapM (fun property => valueType.parse zod property.2) = some outputs := by
  have run : ((properties.map (keyed zod keyType valueType)).map Prod.snd).mapM Payload.output =
      properties.mapM (fun property => (keyType.parse zod (.string property.1)).bind (fun _ =>
        valueType.parse zod property.2)) := by
    rw [List.map_map, List.mapM_map]
    refine congrArg (properties.mapM ·) (funext (fun property => ?_))
    by_cases clean : (keyType.run zod (.string property.1)).verdict = .clean
    · simp only [comp, keyed, Schema.parse, if_pos clean]
      rw [Payload.output.eq_def (keyType.run zod _), if_pos clean]
      rfl
    · simp only [comp, keyed, Schema.parse, if_neg clean]
      rw [Payload.ended, if_neg clean, Payload.output.eq_def (keyType.run zod _), if_neg clean]
      rfl
  rw [run, List.map_map, Option.map_eq_some_iff]
  constructor
  · rintro ⟨values, parsed, same⟩
    have parts := mapM_guard.mp parsed
    have many' := length_mapM parsed
    obtain ⟨names, rfl⟩ := (assemble_inj (by simpa using many') (by simpa using many)).mp same
    refine ⟨?_, parts.2⟩
    intro property member
    rw [keyed_name valueType (parts.1 property member)]
    exact congrArg some (map_inj_left.mp names property member)
  · rintro ⟨named, parsed⟩
    have keys : ∀ property ∈ properties, (keyType.parse zod (.string property.1)).isSome = true := by
      intro property member
      have named := congrArg isSome (named property member)
      rw [isSome_map] at named
      exact named
    refine ⟨outputs, mapM_guard.mpr ⟨keys, parsed⟩, ?_⟩
    refine (assemble_inj (by simpa using many) (by simpa using many)).mpr ⟨?_, rfl⟩
    refine map_inj_left.mpr ?_
    intro property member
    have name := keyed_name valueType (keys property member)
    rw [named property member] at name
    exact (some.inj name).symm

def listed (zod : Zod) (valueType : Schema) (names : List String) (property : String × Value) :
    Payload :=
  if property.1 ∈ names then valueType.run zod property.2 else .rejected property.2

def lacking (zod : Zod) (valueType : Schema) (names : List String)
    (properties : List (String × Value)) : List (String × Payload) :=
  (names.filter (fun name => (properties.lookup name).isNone)).map
    (fun name => (name, valueType.run zod (Value.get properties name)))

theorem output_undefined (payload : Payload) :
    payload.output = some .undefined ↔
      payload.output.isSome = true ∧ (!payload.value.isUndefined) = false := by
  obtain ⟨_, value, verdict⟩ := payload
  cases verdict with
  | clean => cases value <;> simp [output, Value.isUndefined]
  | faulty | aborted => simp [output]

theorem lacking_exact (valueType : Schema) (names : List String)
    (properties : List (String × Value)) :
    (((lacking zod valueType names properties).map Prod.snd).mapM Payload.output).isSome = true ∧
        (lacking zod valueType names properties).filter (fun part => !part.2.value.isUndefined) = [] ↔
      ∀ name ∈ names, (properties.lookup name).isNone = true →
        valueType.parse zod (Value.get properties name) = some .undefined := by
  rw [lacking, List.map_map, List.mapM_map, Fallible.mapM_isSome, List.filter_eq_nil_iff,
    List.forall_mem_map]
  simp only [mem_filter, and_imp, comp_apply, Bool.not_eq_true]
  constructor
  · intro ⟨parsed, empty⟩ name member absent
    exact (output_undefined _).mpr ⟨parsed name member absent, empty name member absent⟩
  · intro missing
    constructor
    · intro name member absent
      exact ((output_undefined _).mp (missing name member absent)).1
    · intro name member absent
      exact ((output_undefined _).mp (missing name member absent)).2

theorem record_known (many : properties.length = outputs.length) :
    ((properties.map (listed zod valueType names) ++
          (lacking zod valueType names properties).map Prod.snd).mapM Payload.output).map
        (fun values => Value.object none ((properties.map Prod.fst).zip values ++
          ((lacking zod valueType names properties).filter
            (fun part => !part.2.value.isUndefined)).map
              (fun part => (part.1, part.2.value)))) =
          some (assemble (properties.map Prod.fst) outputs) ↔
      ((∀ property ∈ properties, property.1 ∈ names) ∧
        ∀ name ∈ names, (properties.lookup name).isNone = true →
          valueType.parse zod (Value.get properties name) = some .undefined) ∧
      properties.mapM (fun property => valueType.parse zod property.2) = some outputs := by
  have run : (properties.map (listed zod valueType names)).mapM output =
      properties.mapM (fun property => (if property.1 ∈ names then some () else none).bind
        (fun _ => valueType.parse zod property.2)) := by
    rw [mapM_map]
    refine congrArg (properties.mapM ·) (funext ?_)
    intro property
    simp only [comp_apply, listed]
    split <;> rfl
  have guarded : (∀ property ∈ properties,
      (if property.1 ∈ names then some () else none).isSome = true) ↔
      ∀ property ∈ properties, property.1 ∈ names := by
    simp
  rw [← lacking_exact, ← guarded, mapM_append, run]
  constructor
  · intro built
    obtain ⟨_, parsed, same⟩ := map_eq_some_iff.mp built
    obtain ⟨values, present, parsed⟩ := bind_eq_some_iff.mp parsed
    obtain ⟨absent, others, parts⟩ := bind_eq_some_iff.mp parsed
    cases parts
    have parts := mapM_guard.mp present
    have long := length_mapM parts.2
    -- the names run out before the values of the missing keys
    have zipped := (Value.object.inj same).2
    rw [zip_long (by simpa using long)] at zipped
    have split := append_inj (zipped.trans (append_nil _).symm) (by simp [← long, ← many])
    obtain ⟨_, rfl⟩ := (assemble_inj (by simpa using long) (by simpa using many)).mp
      (congrArg (Value.object none) split.1)
    exact ⟨⟨parts.1, isSome_of_eq_some others, map_eq_nil_iff.mp split.2⟩, parts.2⟩
  · intro ⟨⟨guards, absent, empty⟩, parsed⟩
    obtain ⟨_, absent⟩ := isSome_iff_exists.mp absent
    rw [mapM_guard.mpr ⟨guards, parsed⟩, absent, empty]
    refine congrArg some (congrArg (Value.object none) ?_)
    exact (append_nil _).trans (zip_long (by simpa using many))

theorem record_exact (settled : Settled zod valueType)
    (fitting : (record keyType valueType checks).fit zod value = some output) :
    (record keyType valueType checks).parse zod value = some output ↔
      (∀ brand properties, value.properties = some (brand, properties) →
          brand = none ∧ KeysSound zod keyType valueType properties ∧
          ∀ property ∈ properties, valueType.Sound zod property.2) ∧
        admitted zod checks output = true := by
  obtain ⟨brand, _, _, object, passing, taken, rfl⟩ := recordFinalizer_some fitting
  rw [forall_properties object, Schema.parse, Schema.run, object]
  have many := length_mapM taken
  have values := (mapM_agree (fun property : String × Value =>
      valueType.parse zod property.2) (mapM_guard.mp taken).2).trans
    (forall₂_congr (fun property _ => settled property.2))
  cases brand with
  | some =>
    refine iff_of_false ?_ (by simp)
    rw [runChecks_rejected]
    simp
  | none =>
    rw [← values, KeysSound]
    cases known : zod.values keyType with
    | none =>
      refine (checked_gather passing ..).trans (and_congr_left' ?_)
      exact (record_unknown many).trans (and_iff_right rfl).symm
    | some =>
      refine (checked_gather passing ..).trans (and_congr_left' ?_)
      exact (record_known many).trans (and_iff_right rfl).symm

theorem get_absent
    (absent : Value.has properties key = false) : Value.get properties key = .undefined := by
  unfold Value.has at absent
  unfold Value.get
  rw [Bool.or_eq_false_iff, decide_eq_false_iff_not] at absent
  rw [isSome_eq_false_iff.mp absent.1 |> isNone_iff_eq_none.mp, if_neg absent.2]

def declared (zod : Zod) (field : String × Schema) : FinalField :=
  ⟨field.1, zod.optin field.2, field.2.fit zod⟩

theorem fitShape_eq (shape : List (String × Schema)) (properties : List (String × Value)) :
    fitShape zod shape properties =
      shape.mapM (fun field => (declared zod field).apply properties) := by
  induction shape with
  | nil => rfl
  | cons _ _ step =>
    rw [fitShape, step, mapM_cons]
    refine congrArg (Option.bind _) (funext ?_)
    intro output
    exact map_eq_bind

theorem field_exact (settled : Settled zod field)
    (properties : List (String × Value)) :
    (∀ output, (declared zod (key, field)).apply properties = some output →
        field.parse zod (Value.get properties key) = some output) ↔
      if Value.has properties key || !zod.optin field then
        field.Sound zod (Value.get properties key)
      else field.parse zod .undefined = some .undefined := by
  have here := settled (Value.get properties key)
  cases present : Value.has properties key with
  | true =>
    simp only [FinalField.apply, declared, present, if_true]
    exact here
  | false =>
    rw [get_absent present] at here ⊢
    cases optional : zod.optin field with
    | true => simp [FinalField.apply, declared, present, optional]
    | false =>
      simp only [FinalField.apply, declared, present, optional]
      exact here

theorem shape_exact (settled : ∀ field ∈ shape, Settled zod field.2)
    (taken : fitShape zod shape properties = some outputs) :
    shape.mapM (fun field => field.2.parse zod (Value.get properties field.1)) = some outputs ↔
      SoundShape zod shape properties := by
  rw [fitShape_eq] at taken
  refine (mapM_agree _ taken).trans ?_
  clear taken
  induction shape with
  | nil => exact iff_of_true nofun trivial
  | cons _ _ step =>
    rw [forall_mem_cons] at settled ⊢
    rw [step settled.2, SoundShape]
    exact and_congr_left' (field_exact settled.1 properties)

theorem kept_eq (keys : List String) (properties : List (String × Value)) :
    kept keys properties = (properties.filter (fun property => property.1 ∉ keys)).filter
      (fun property => property.1 ∉ objectMethods) := by
  rw [kept, List.filter_filter]
  refine filter_congr ?_
  intro property _
  rw [Bool.decide_and, Bool.and_comm]

theorem kept_exact (schema : Schema) (extra : List (String × Value)) :
    (∃ others, (extra.map (fun property => schema.run zod property.2)).mapM Payload.output =
          some others ∧
        (extra.map Prod.fst).zip others =
          extra.filter (fun property => property.1 ∉ objectMethods)) ↔
      ∀ property ∈ extra, property.1 ∉ objectMethods ∧
        schema.parse zod property.2 = some property.2 := by
  have pure : extra.mapM (fun property => some property.2) = some (extra.map Prod.snd) :=
    mapM_pure
  have agree := mapM_agree (fun property => schema.parse zod property.2) pure
  simp only [some.injEq, forall_eq'] at agree
  rw [mapM_map]
  constructor
  · intro ⟨others, parsed, same⟩
    have long := length_mapM parsed
    have full : (extra.filter (fun property => property.1 ∉ objectMethods)).length =
        extra.length := by
      rw [← same, length_zip, length_map, ← long, Nat.min_self]
    have plain := length_filter_eq_length_iff.mp full
    rw [filter_eq_self.mpr plain] at same
    have values := congrArg (map Prod.snd) same
    rw [map_snd_zip (by simp [long])] at values
    cases values
    have parsed := agree.mp parsed
    intro property member
    exact ⟨of_decide_eq_true (plain property member), parsed property member⟩
  · intro every
    refine ⟨extra.map Prod.snd, agree.mpr (fun property member => (every property member).2), ?_⟩
    rw [filter_eq_self.mpr (fun property member =>
      decide_eq_true (every property member).1)]
    exact (zip_of_prod rfl rfl).symm

theorem never_exact (checks : List Check) (extra : List (String × Value)) :
    (∃ others, (extra.map (fun property => (Schema.leaf .never checks).run zod property.2)).mapM
          Payload.output = some others ∧ (extra.map Prod.fst).zip others = []) ↔ extra = [] := by
  cases extra with
  | nil => exact iff_of_true ⟨[], rfl, rfl⟩ rfl
  | cons =>
    refine iff_of_false ?_ nofun
    intro ⟨others, parsed, _⟩
    rw [map_cons, mapM_cons, run, Leaf.run, Leaf.typed, runChecks_rejected]
      at parsed
    cases parsed

theorem catchall_exact (kind : keeps catchall = some keep)
    (keys : List String) (properties : List (String × Value)) :
    (∃ others, (runCatchall zod catchall (properties.filter (fun property =>
          property.1 ∉ keys))).mapM Payload.output = some others ∧
        ((properties.filter (fun property => property.1 ∉ keys)).map Prod.fst).zip others =
          if keep then kept keys properties else []) ↔
      CatchallSound zod catchall (properties.filter (fun property => property.1 ∉ keys)) := by
  rw [kept_eq]
  generalize properties.filter (fun property => property.1 ∉ keys) = extra
  unfold keeps at kind
  split at kind <;> cases kind
  · refine iff_of_true ⟨[], rfl, zip_nil_right⟩ trivial
  · exact never_exact _ extra
  · exact kept_exact _ extra
  · exact kept_exact _ extra

theorem object_exact (settled : ∀ field ∈ shape, Settled zod field.2)
    (fitting : (object shape catchall checks).fit zod value = some output) :
    (object shape catchall checks).parse zod value = some output ↔
      (∀ brand properties, value.properties = some (brand, properties) →
          SoundShape zod shape properties ∧ CatchallSound zod catchall
            (properties.filter (fun property => property.1 ∉ shape.map Prod.fst))) ∧
        admitted zod checks output = true := by
  obtain ⟨_, kind, fitting⟩ := bind_eq_some_iff.mp fitting
  obtain ⟨_, _, outputs, object, passing, taken, rfl⟩ := objectFinalizer_some fitting
  rw [forall_properties object, Schema.parse, Schema.run, object]
  refine (checked_gather passing ..).trans (and_congr_left' ?_)
  have many : shape.length = outputs.length := by
    rw [fitShape_eq] at taken
    exact length_mapM taken
  rw [← shape_exact settled taken, ← catchall_exact kind, mapM_append, runShape_eq,
    mapM_map]
  constructor
  · intro built
    obtain ⟨_, parsed, same⟩ := map_eq_some_iff.mp built
    obtain ⟨_, present, parsed⟩ := bind_eq_some_iff.mp parsed
    obtain ⟨others, further, parts⟩ := bind_eq_some_iff.mp parsed
    cases parts
    have long := length_mapM present
    have zipped := (Value.object.inj same).2
    rw [zip_append (by simpa using long)] at zipped
    have split := append_inj zipped (by simp [← long, ← many])
    obtain ⟨_, rfl⟩ := (assemble_inj (by simpa using long) (by simpa using many)).mp
      (congrArg (Value.object none) split.1)
    exact ⟨present, others, further, split.2⟩
  · rintro ⟨present, others, further, tail⟩
    rw [← tail]
    refine map_eq_some_iff.mpr ⟨outputs ++ others, ?_, ?_⟩
    · refine bind_eq_some_iff.mpr ⟨outputs, present, ?_⟩
      exact bind_eq_some_iff.mpr ⟨others, further, rfl⟩
    · exact congrArg (Value.object none) (zip_append (by simpa using many))

theorem exact_iff_sound (final : Final zod schema) : Settled zod schema := by
  induction schema using induct with
  | leaf =>
    intro value
    constructor
    · intro exact fitted
      obtain ⟨output, fitting⟩ := isSome_iff_exists.mp fitted
      exact (leaf_parse fitting).mp (exact output fitting)
    · intro sound output fitting
      exact (leaf_parse fitting).mpr (sound (isSome_of_eq_some fitting))
  | wrap _ _ _ step =>
    cases final.wrap_bare
    have inside := final.part mem_cons_self
    exact wrap_exact final inside (step inside)
  | union _ _ step =>
    intro value
    cases final.union_bare
    exact options_exact (fun option member => step option member (final.part member)) value
  | array _ _ step =>
    intro value
    exact forall_congr' (fun output => forall_congr'
      (array_exact (step (final.part mem_cons_self))))
  | tuple _ _ _ first second =>
    intro value
    exact forall_congr' (fun output => forall_congr' (tuple_exact
      (fun item member => first item member (final.part (mem_append_left _ member)))
      (fun item member => second item member
        (final.part (mem_append_right _ (mem_toList.mpr member))))))
  | record _ _ _ _ second =>
    intro value
    exact forall_congr' (fun output => forall_congr'
      (record_exact (second (final.part (mem_cons_of_mem _ mem_cons_self)))))
  | object _ _ _ first _ =>
    intro value
    exact forall_congr' (fun output => forall_congr' (object_exact
      (fun field member => first field member (final.part (mem_map_of_mem member)))))
  | pipe | intersection | map | set =>
    obtain ⟨_, _, built⟩ := final
    cases built

end

end Usai.Schemas
