import Usai.Schemas.Exact

/-! The two shortcuts of `sdk.ts`: the contract of a response, and an input slot
that the host has validated. -/

namespace Usai.Schemas

section

variable {zod : Zod} {schema : Schema}

theorem hostFinal_fit {finalize : Finalizer} (built : hostFinal zod schema = some finalize) :
    finalize = schema.fit zod ∧ Settled zod schema := by
  refine ⟨zodFinalizer_fit schema 0 finalize built, ?_⟩
  exact exact_iff_sound ⟨0, finalize, built⟩

theorem sound_of_unfit {value : Value} (settled : Settled zod schema)
    (unfit : schema.fit zod value = none) : schema.Sound zod value := by
  refine (settled value).mp ?_
  intro output fitting
  cases unfit.symm.trans fitting

theorem sound_iff_of_fit {value output : Value} (settled : Settled zod schema)
    (fitting : schema.fit zod value = some output) :
    schema.Sound zod value ↔ schema.parse zod value = some output := by
  rw [← settled value]
  constructor
  · intro exact
    exact exact output fitting
  · intro parsed other found
    cases fitting.symm.trans found
    exact parsed

theorem answer_inj {status : ℕ} (body : carries status = true) (headers : Headers)
    (first second : Value) :
    answer status headers first = answer status headers second ↔ first = second := by
  constructor
  · intro same
    have json := congrArg HttpOutput.json same
    simp only [answer, body, Bool.true_and] at json
    cases first with
    | undefined =>
      cases second with
      | undefined => rfl
      | _ => cases json
    | _ =>
      cases second with
      | undefined => cases json
      | _ => exact Option.some.inj json
  · intro same
    rw [same]

variable (zod)

/-- What is asked of a body for its contract to be enforced. A status without a body
sends nothing of the output, so there the parse need only accept what fits. -/
def Enforced (status : ℕ) (schema : Schema) (body : Value) : Prop :=
  (hostFinal zod schema).isSome = true →
    if carries status then schema.Sound zod body
    else (schema.fit zod body).isSome = true → (schema.parse zod body).isSome = true

variable {zod}

theorem enforced_iff (status : ℕ) (headers : Headers) (schema : Schema) (body : Value) :
    (match enforce zod schema body with
      | .ok output => Except.ok (answer status headers output)
      | .error issues => Except.error (violation status issues)) =
    (match validateWith zod schema body with
      | .ok output => Except.ok (answer status headers output)
      | .error issues => Except.error (violation status issues)) ↔
      Enforced zod status schema body := by
  unfold enforce Enforced
  cases built : hostFinal zod schema with
  | none => exact iff_of_true rfl nofun
  | some =>
    obtain ⟨rfl, settled⟩ := hostFinal_fit built
    cases fitting : schema.fit zod body with
    | none =>
      refine iff_of_true ?_ ?_
      · rw [Option.bind_some, fitting]
      · intro _
        split
        · exact sound_of_unfit settled fitting
        · nofun
    | some output =>
      rw [Option.bind_some, fitting, imp_iff_right (Option.isSome_some (a := schema.fit zod)),
        validateWith]
      cases body : carries status with
      | true =>
        rw [if_pos rfl, sound_iff_of_fit settled fitting]
        cases parsed : schema.parse zod _ with
        | none => exact iff_of_false nofun nofun
        | some other =>
          simp only [Except.ok.injEq, Option.some.injEq]
          exact (answer_inj body headers output other).trans eq_comm
      | false =>
        cases schema.parse zod _ with
        | none => exact iff_of_false nofun (fun accepts => nomatch accepts rfl)
        | some other =>
          refine iff_of_true ?_ (fun _ => rfl)
          unfold answer
          rw [body]
          rfl

/-- A response is what the parse of its contract makes of it, just when the parse
does nothing that the finalizer leaves out. -/
theorem response_contract_enforced (zod : Zod) (contracts : Contracts) (result : Result) :
    encodeHttp zod contracts result = encodeWith (validateWith zod) contracts result ↔
      ∀ reply schema, result = .reply reply → contract contracts reply = some schema →
        Enforced zod (asks contracts reply).1 schema (asks contracts reply).2.2 := by
  cases result with
  | raw => exact iff_of_true rfl nofun
  | reply reply =>
    obtain ⟨⟨status, headers, body⟩, asked⟩ : ∃ answer, asks contracts reply = answer := ⟨_, rfl⟩
    simp only [encodeHttp, encodeWith, asked]
    cases found : contract contracts reply with
    | none =>
      refine iff_of_true rfl ?_
      intro other schema same here
      cases same
      cases found.symm.trans here
    | some schema =>
      refine (enforced_iff ..).trans ?_
      constructor
      · intro enforced other declared same
        cases same
        intro here
        cases found.symm.trans here
        rw [asked]
        exact enforced
      · intro enforced
        have here := enforced reply schema rfl found
        rw [asked] at here
        exact here

def plainZod : Zod where
  test check value :=
    match check, value with
    | .numberFormat _, .number (.finite amount) => amount.den = 1
    | _, _ => true
  toText _ := none
  toNumber value :=
    match value with
    | .string text => some (Numeral.number text.toList)
    | _ => none
  toBigint _ := none
  truthy _ := true
  toDate _ := none
  isDate _ := false
  isSymbol _ := false
  isFile _ := false
  entries _ := none
  members _ := none
  merge _ _ := none
  values _ := none
  optin _ := false
  touched _ := []
  issues _ _ := [("invalid", "")]

def receipt : Schema :=
  .object [("id", .leaf (.number false (some (.numberFormat "safeint"))) [])]
    (some (.leaf .never [])) []

/-- A number that is no integer goes out under `z.int()`, and of an object with an
undeclared key the rest goes out under `z.strictObject`; the parse refuses both. -/
theorem response_contract_bypassed :
    encodeHttp plainZod (some [(200, receipt)])
        (.reply (.value (.object none [("id", .number (.finite (3 / 2)))]))) =
      .ok ⟨200, [], some (.object none [("id", .number (.finite (3 / 2)))]), none, none⟩ ∧
    encodeHttp plainZod (some [(200, receipt)])
        (.reply (.value (.object none [("id", .number (.finite 1)), ("token", .string "x")]))) =
      .ok ⟨200, [], some (.object none [("id", .number (.finite 1))]), none, none⟩ ∧
    (receipt.parse plainZod (.object none [("id", .number (.finite (3 / 2)))])).isNone = true ∧
    (receipt.parse plainZod
      (.object none [("id", .number (.finite 1)), ("token", .string "x")])).isNone = true :=
  ⟨rfl, rfl, by decide +kernel, by decide +kernel⟩

theorem validated_slot_parsed (zod : Zod) (slot : String) (schema : Option Schema) (value : Value)
    (validated : Option (List String)) :
    parseValidated zod slot schema value validated = parse zod slot schema value ↔
      ∀ declared slots, schema = some declared → validated = some slots → slot ∈ slots →
        (hostFinal zod declared).isSome = true → declared.Sound zod value := by
  cases schema with
  | none => exact iff_of_true rfl nofun
  | some schema =>
    cases validated with
    | none => exact iff_of_true rfl nofun
    | some slots =>
      have reads : (∀ declared known, some schema = some declared → some slots = some known →
          slot ∈ known → (hostFinal zod declared).isSome = true → declared.Sound zod value) ↔
          (slot ∈ slots → (hostFinal zod schema).isSome = true → schema.Sound zod value) := by
        simp only [Option.some.injEq, forall_apply_eq_imp_iff, forall_eq']
      rw [reads, parseValidated]
      split
      · next listed =>
        rw [imp_iff_right listed]
        cases built : hostFinal zod schema with
        | none => exact iff_of_true rfl nofun
        | some =>
          obtain ⟨rfl, settled⟩ := hostFinal_fit built
          rw [imp_iff_right (Option.isSome_some (a := schema.fit zod))]
          cases fitting : schema.fit zod value with
          | none =>
            refine iff_of_true ?_ (sound_of_unfit settled fitting)
            simp only [fitting]
          | some =>
            rw [sound_iff_of_fit settled fitting]
            simp only [fitting, parse, validateWith]
            cases parsed : schema.parse zod value with
            | none => exact iff_of_false nofun nofun
            | some => simp [eq_comm]
      · next unlisted => exact iff_of_true rfl (fun listed => absurd listed unlisted)

mutual

/-- What the host makes of a value, for scalars without checks and their unions: the
JSON Schema of a scalar has its `type`, with or without coercion, that of a union
is the `anyOf` of its options. -/
def hostAccepts : Schema → Value → Bool
  | .leaf (.string _ none) [], value => value.isString
  | .leaf (.number _ none) [], value => value.isFinite
  | .leaf (.boolean _) [], value => value.isBool
  | .leaf .null [], value => value.isNull
  | .union options [], value => anyAccepts options value
  | _, _ => false

def anyAccepts : List Schema → Value → Bool
  | [], _ => false
  | option :: options, value => hostAccepts option value || anyAccepts options value

end

def amount : Schema := .union [.leaf (.number true none) [], .leaf (.string false none) []] []

/-- A text of digits stays a text in a validated slot, where the parse makes it a
number. -/
theorem validated_slot_not_converted :
    hostAccepts amount (.string "5") = true ∧
    parseValidated plainZod "body" (some amount) (.string "5") (some ["body"]) =
      .ok (.string "5") ∧
    (parse plainZod "body" (some amount) (.string "5")).toOption.any
      (fun output => output.same (.number (.finite 5))) = true :=
  ⟨rfl, rfl, by decide +kernel⟩

end

end Usai.Schemas
