import Usai.Schemas.Final

/-! What a finalizer is for: the output for a value that a schema takes as it
stands, with no conversion; absent values are filled in and undeclared keys are
dropped or kept. The finalizers of `prepare.ts` give just that. -/

namespace Usai.Schemas

open List Option

section

variable (zod : Zod)

def passes (checks : List Check) (value : Value) : Bool :=
  checks.all (fun check => check.libraryCheck.any (fun library => zod.test library value))

def Leaf.fits : Leaf → Value → Bool
  | .string _ own, value => value.isString && own.all (fun check => zod.test check value)
  | .number _ _, value => value.isFinite
  | .boolean _, value => value.isBool
  | .null, value => value.isNull
  | .literal values, value => values.any value.same
  | .enum entries, value => (entries.map Prod.snd).any value.same
  | .any, _ | .unknown, _ => true
  | _, _ => false

def Wrapper.fit (wrapper : Wrapper) (inner : Value → Option Value) (value : Value) :
    Option Value :=
  match wrapper with
  | .optional => if value.isUndefined then some value else inner value
  | .nullable => if value.isNull then some value else inner value
  | .nonoptional => if value.isUndefined then none else inner value
  | .default supply => if value.isUndefined then some supply.value else inner value
  | .readonly | .prefault _ | .catching _ | .lazy _ => none

mutual

def Schema.fit : Schema → Value → Option Value
  | .leaf leaf checks, value =>
    if leaf.fits zod value && passes zod checks value then some value else none
  | .wrap wrapper inner checks, value =>
    if checks = [] then wrapper.fit (fun value => inner.fit value) value else none
  | .union options checks, value => if checks = [] then fitOptions options value else none
  | .array element checks, value =>
    arrayFinalizer (fun values => values.mapM (fun value => element.fit value))
      (passes zod checks) value
  | .tuple items rest checks, value =>
    arrayFinalizer (fun values => (fitItems items values).bind (fun first =>
      (fitRest rest (values.drop items.length)).map (fun further => first ++ further)))
      (passes zod checks) value
  | .record keyType valueType checks, value =>
    recordFinalizer (fun key => keyType.fit key) (fun value => valueType.fit value)
      (passes zod checks) value
  | .object shape catchall checks, value => (keeps catchall).bind (fun keep =>
    objectFinalizer (shape.map Prod.fst) (fun properties => fitShape shape properties) keep
      (passes zod checks) value)
  | .pipe _ _ _, _ | .intersection _ _ _, _ | .map _ _ _, _ | .set _ _, _ => none

def fitOptions : List Schema → Value → Option Value
  | [], _ => none
  | option :: options, value => (option.fit value).or (fitOptions options value)

def fitItems : List Schema → List Value → Option (List Value)
  | [], _ => some []
  | _ :: _, [] => none
  | item :: items, value :: values => do
      let output ← item.fit value
      let outputs ← fitItems items values
      some (output :: outputs)

def fitRest : Option Schema → List Value → Option (List Value)
  | none, [] => some []
  | none, _ :: _ => none
  | some rest, values => values.mapM (fun value => rest.fit value)

def fitShape : List (String × Schema) → List (String × Value) → Option (List Value)
  | [], _ => some []
  | (key, field) :: shape, properties =>
    (FinalField.apply ⟨key, zod.optin field, fun value => field.fit value⟩ properties).bind
      (fun output => (fitShape shape properties).map (output :: ·))

end

variable {zod}

variable {checks : List Check} {finalize : Finalizer} {depth : ℕ} {test : Value → Bool}

theorem checksOf_eq (built : checksOf zod checks = some test) : test = passes zod checks := by
  obtain ⟨tests, found, rfl⟩ := map_eq_some_iff.mp built
  clear built
  funext value
  induction checks generalizing tests with
  | nil =>
    cases found
    rfl
  | cons _ _ step =>
    rw [mapM_cons] at found
    obtain ⟨_, here, found⟩ := bind_eq_some_iff.mp found
    obtain ⟨others, there, same⟩ := bind_eq_some_iff.mp found
    cases same
    have rest := step others there
    simp only [all_cons, passes, here, any_some] at rest ⊢
    rw [rest]

theorem scalar_fit (built : scalar zod test checks own = some finalize)
    (same : ∀ value, leaf.fits zod value =
      (test value && own.all (fun check => zod.test check value))) :
    finalize = (Schema.leaf leaf checks).fit zod := by
  obtain ⟨_, tests, rfl⟩ := map_eq_some_iff.mp built
  funext value
  rw [checksOf_eq tests, Schema.fit, same, Bool.and_right_comm]

theorem leafFinalizer_fit (built : leafFinalizer zod leaf checks = some finalize) :
    finalize = (Schema.leaf leaf checks).fit zod := by
  have plain {test : Value → Bool} (value : Value) :
      test value = (test value && (none : Option LibraryCheck).all
        (fun check => zod.test check value)) := (Bool.and_true _).symm
  cases leaf with
  | string => exact scalar_fit built (fun _ => rfl)
  | number | boolean | null | literal | enum | any | unknown => exact scalar_fit built plain
  | bigint | date | symbol | undefined | void | never | nan | file | templateLiteral | transform
  | custom => cases built

theorem within_eq (built : within depth finalizer = some finalize) : finalizer = some finalize := by
  unfold within at built
  split at built
  · cases built
  · exact built

def Fitted (zod : Zod) (schema : Schema) : Prop :=
  ∀ depth finalize, zodFinalizer zod schema depth = some finalize → finalize = schema.fit zod

theorem wrapFinalizer_fit {inner : Schema}
    (fitted : ∀ finalize, built = some finalize → finalize = inner.fit zod)
    (wrapped : wrapFinalizer wrapper checks built = some finalize) :
    finalize = (Schema.wrap wrapper inner checks).fit zod := by
  funext value
  obtain ⟨bare, wrapped⟩ := ite_none_left_eq_some.mp wrapped
  rw [Schema.fit, if_pos (not_not.mp bare)]
  cases wrapper with
  | optional | nullable | nonoptional | default =>
    obtain ⟨inside, here, rfl⟩ := map_eq_some_iff.mp wrapped
    rw [fitted inside here]
    rfl
  | readonly | prefault | catching | lazy => cases wrapped

theorem zodFinalizers_fit (fitted : ∀ schema ∈ schemas, Fitted zod schema)
    (built : zodFinalizers zod schemas depth = some finalizers) :
    finalizers = schemas.map (fun schema => schema.fit zod) := by
  induction schemas generalizing finalizers with
  | nil =>
    cases built
    rfl
  | cons _ _ step =>
    rw [forall_mem_cons] at fitted
    obtain ⟨finalize, first, built⟩ := bind_eq_some_iff.mp built
    obtain ⟨_, rest, same⟩ := bind_eq_some_iff.mp built
    cases same
    rw [fitted.1 depth finalize first, step fitted.2 rest]
    rfl

theorem findSome_fit (options : List Schema) (value : Value) :
    (options.map (fun option => option.fit zod)).findSome? (fun finalize => finalize value) =
      fitOptions zod options value := by
  induction options with
  | nil => rfl
  | cons option _ step =>
    rw [map_cons, findSome?_cons, step, fitOptions]
    cases option.fit zod value <;> rfl

theorem finalItems_fit (items : List Schema) (rest : Option Schema) (values : List Value) :
    finalItems (items.map (fun item => item.fit zod)) (rest.map (fun rest => rest.fit zod)) values =
      (fitItems zod items values).bind (fun first =>
        (fitRest zod rest (values.drop items.length)).map (fun further => first ++ further)) := by
  induction items generalizing values with
  | nil =>
    cases rest with
    | none => cases values <;> rfl
    | some => simp [finalItems, fitItems, fitRest]
  | cons item items step =>
    cases values with
    | nil => rfl
    | cons value values =>
      simp only [map_cons, finalItems, step, fitItems, length_cons,
        drop_succ_cons]
      cases item.fit zod value with
      | none => rfl
      | some =>
        cases fitItems zod items values with
        | none => rfl
        | some => cases fitRest zod rest (values.drop items.length) <;> rfl

theorem zodFields_fit (fitted : ∀ field ∈ shape, Fitted zod field.2)
    (built : zodFields zod shape depth = some fields) (properties : List (String × Value)) :
    fields.map FinalField.key = shape.map Prod.fst ∧
      fields.mapM (fun field : FinalField => field.apply properties) =
        fitShape zod shape properties := by
  induction shape generalizing fields with
  | nil =>
    cases built
    exact ⟨rfl, rfl⟩
  | cons field shape step =>
    rw [forall_mem_cons] at fitted
    obtain ⟨finalize, first, built⟩ := bind_eq_some_iff.mp built
    obtain ⟨_, rest, same⟩ := bind_eq_some_iff.mp built
    cases same
    obtain ⟨keys, applied⟩ := step fitted.2 rest
    refine ⟨congrArg (field.1 :: ·) keys, ?_⟩
    rw [mapM_cons, applied, fitted.1 depth finalize first, fitShape]
    cases fitShape zod shape properties <;> rfl

theorem zodFinalizer_fit (schema : Schema) : Fitted zod schema := by
  induction schema using Schema.induct <;> intro depth finalize built
  case leaf => exact leafFinalizer_fit (within_eq built)
  case wrap _ _ _ step => exact wrapFinalizer_fit (step (depth + 1)) (within_eq built)
  case union options _ step =>
    funext value
    have built := within_eq built
    split at built
    · cases built
    · next bare =>
      obtain ⟨finalizers, found, built⟩ := bind_eq_some_iff.mp built
      split at built <;> cases built
      rw [zodFinalizers_fit step found, Schema.fit, if_pos (not_not.mp bare)]
      exact findSome_fit options value
  case array _ _ step =>
    obtain ⟨item, found, built⟩ := bind_eq_some_iff.mp (within_eq built)
    obtain ⟨passing, tests, same⟩ := bind_eq_some_iff.mp built
    cases same
    rw [step _ item found, checksOf_eq tests]
    rfl
  case tuple items rest _ first second =>
    obtain ⟨_, found, built⟩ := bind_eq_some_iff.mp (within_eq built)
    obtain ⟨further, more, built⟩ := bind_eq_some_iff.mp built
    obtain ⟨passing, tests, same⟩ := bind_eq_some_iff.mp built
    cases same
    have last : further = rest.map (fun rest => rest.fit zod) := by
      cases rest with
      | none =>
        cases more
        rfl
      | some rest =>
        obtain ⟨finalize, proved, rfl⟩ := map_eq_some_iff.mp more
        exact congrArg some (second rest rfl _ finalize proved)
    rw [zodFinalizers_fit first found, last, checksOf_eq tests]
    rw [funext (finalItems_fit items rest)]
    rfl
  case record _ _ _ first second =>
    obtain ⟨key, found, built⟩ := bind_eq_some_iff.mp (within_eq built)
    obtain ⟨item, more, built⟩ := bind_eq_some_iff.mp built
    obtain ⟨passing, tests, same⟩ := bind_eq_some_iff.mp built
    cases same
    rw [first _ key found, second _ item more, checksOf_eq tests]
    rfl
  case pipe | intersection | map | set => cases built
  case object _ _ _ first _ =>
    obtain ⟨_, found, built⟩ := bind_eq_some_iff.mp (within_eq built)
    obtain ⟨_, kind, built⟩ := bind_eq_some_iff.mp built
    obtain ⟨_, tests, same⟩ := bind_eq_some_iff.mp built
    cases same
    have applied := zodFields_fit first found
    rw [(applied []).1, checksOf_eq tests]
    simp only [(applied _).2, Schema.fit, kind, bind_some]

end

end Usai.Schemas
