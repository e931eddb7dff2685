import Usai.Schemas.Zod

/-! The second implementation of a validator: the finalizer that `prepare.ts`
builds from a schema, and the two places of `sdk.ts` where it stands in for the
parse, `encodeHttp` for the bodies of responses and `parseValidated` for inputs
that the host has validated. -/

namespace Usai.Schemas

/-- Gives the output, or nothing when only the parse can decide (`REPARSE`). -/
abbrev Finalizer := Value → Option Value

section

variable (zod : Zod)

def Check.libraryCheck (check : Check) : Option LibraryCheck :=
  match check.action with
  | .library library => some library
  | .refinement _ _ | .overwrite _ _ => none

theorem library_of_mapM {checks : List Check} (found : checks.mapM Check.libraryCheck = some tests) :
    ∀ check ∈ checks, check.libraryCheck.isSome = true := by
  induction checks generalizing tests with
  | nil => nofun
  | cons _ _ step =>
    rw [List.mapM_cons] at found
    obtain ⟨_, here, found⟩ := Option.bind_eq_some_iff.mp found
    obtain ⟨_, there, _⟩ := Option.bind_eq_some_iff.mp found
    exact List.forall_mem_cons.mpr ⟨Option.isSome_of_eq_some here, step there⟩

def checksOf (checks : List Check) : Option (Value → Bool) :=
  (checks.mapM Check.libraryCheck).map (fun tests value =>
    tests.all (fun check => zod.test check value))

def scalar (test : Value → Bool) (checks : List Check) (own : Option LibraryCheck) :
    Option Finalizer :=
  (checksOf zod checks).map (fun passes value =>
    if test value && passes value && own.all (fun check => zod.test check value) then some value
    else none)

def Value.isString : Value → Bool
  | .string _ => true
  | _ => false

def Value.isFinite : Value → Bool
  | .number (.finite _) => true
  | _ => false

def Value.isBool : Value → Bool
  | .bool _ => true
  | _ => false

def leafFinalizer (leaf : Leaf) (checks : List Check) : Option Finalizer :=
  match leaf with
  | .string _ own => scalar zod Value.isString checks own
  | .number _ _ => scalar zod Value.isFinite checks none
  | .boolean _ => scalar zod Value.isBool checks none
  | .null => scalar zod Value.isNull checks none
  | .literal values => scalar zod (fun value => values.any value.same) checks none
  | .enum entries => scalar zod (fun value => (entries.map Prod.snd).any value.same) checks none
  | .any | .unknown => scalar zod (fun _ => true) checks none
  | .bigint _ _ | .date _ | .symbol | .undefined | .void | .never | .nan | .file
  | .templateLiteral _ | .transform _ _ | .custom _ _ => none

def wrapFinalizer (wrapper : Wrapper) (checks : List Check) (inner : Option Finalizer) :
    Option Finalizer :=
  if checks ≠ [] then none
  else
    match wrapper with
    | .optional => inner.map (fun inner value =>
      if value.isUndefined then some value else inner value)
    | .nullable => inner.map (fun inner value => if value.isNull then some value else inner value)
    | .nonoptional => inner.map (fun inner value => if value.isUndefined then none else inner value)
    | .default supply => inner.map (fun inner value =>
      if value.isUndefined then some supply.value else inner value)
    | .readonly | .prefault _ | .catching _ | .lazy _ => none

def finalItems : List Finalizer → Option Finalizer → List Value → Option (List Value)
  | [], none, [] => some []
  | [], none, _ :: _ => none
  | [], some rest, values => values.mapM rest
  | _ :: _, _, [] => none
  | item :: items, rest, value :: values => do
      let output ← item value
      let outputs ← finalItems items rest values
      some (output :: outputs)

structure FinalField where
  key : String
  optional : Bool
  finalize : Finalizer

def FinalField.apply (field : FinalField) (properties : List (String × Value)) : Option Value :=
  if Value.has properties field.key then field.finalize (Value.get properties field.key)
  else if field.optional then some .undefined
  else field.finalize .undefined

/-- What the type of the catchall says of undeclared keys: they are dropped
(`strictObject` too), or they are kept. Another catchall is not final. -/
def keeps : Option Schema → Option Bool
  | none => some false
  | some (.leaf .never _) => some false
  | some (.leaf .unknown _) | some (.leaf .any _) => some true
  | some _ => none

/-- The undeclared properties that a loose object keeps. The loop asks `in` of the
output, which has the inherited methods. -/
def kept (keys : List String) (properties : List (String × Value)) : List (String × Value) :=
  properties.filter (fun property =>
    property.1 ∉ keys ∧ property.1 ∉ Text.objectMethods)

def objectFinalizer (keys : List String) (fields : List (String × Value) → Option (List Value))
    (keep : Bool) (passes : Value → Bool) : Finalizer := fun value => do
  let (_, properties) ← value.properties
  if passes value then
    (fields properties).map (fun outputs => .object none (keys.zip outputs ++
      if keep then kept keys properties else []))
  else none

def recordFinalizer (key item : Finalizer) (passes : Value → Bool) : Finalizer := fun value => do
  let (_, properties) ← value.properties
  if passes value then
    (properties.mapM (fun property => (key (.string property.1)).bind (fun _ =>
      item property.2))).map (assemble (properties.map Prod.fst))
  else none

def arrayFinalizer (items : List Value → Option (List Value)) (passes : Value → Bool) : Finalizer :=
  fun value => do
    let values ← value.items
    if passes value then (items values).map .array else none

def within (depth : ℕ) (finalizer : Option Finalizer) : Option Finalizer :=
  if 32 < depth then none else finalizer

mutual

def zodFinalizer : Schema → ℕ → Option Finalizer
  | .leaf leaf checks, depth => within depth (leafFinalizer zod leaf checks)
  | .wrap wrapper inner checks, depth =>
    within depth (wrapFinalizer wrapper checks (zodFinalizer inner (depth + 1)))
  | .union options checks, depth => within depth
      (if checks ≠ [] then none
      else (zodFinalizers options (depth + 1)).bind (fun options =>
        if options.isEmpty then none
        else some (fun value => options.findSome? (fun finalize => finalize value))))
  | .array element checks, depth => within depth (do
      let item ← zodFinalizer element (depth + 1)
      let passes ← checksOf zod checks
      some (arrayFinalizer (fun values => values.mapM item) passes))
  | .tuple items rest checks, depth => within depth (do
      let items ← zodFinalizers items (depth + 1)
      let rest ← restFinalizer rest (depth + 1)
      let passes ← checksOf zod checks
      some (arrayFinalizer (finalItems items rest) passes))
  | .record keyType valueType checks, depth => within depth (do
      let key ← zodFinalizer keyType (depth + 1)
      let value ← zodFinalizer valueType (depth + 1)
      let passes ← checksOf zod checks
      some (recordFinalizer key value passes))
  | .object shape catchall checks, depth => within depth (do
      let fields ← zodFields shape (depth + 1)
      let keep ← keeps catchall
      let passes ← checksOf zod checks
      some (objectFinalizer (fields.map FinalField.key)
        (fun properties => fields.mapM (fun field => field.apply properties)) keep passes))
  | .pipe _ _ _, _ | .intersection _ _ _, _ | .map _ _ _, _ | .set _ _, _ => none

def zodFinalizers : List Schema → ℕ → Option (List Finalizer)
  | [], _ => some []
  | schema :: schemas, depth => do
      let finalizer ← zodFinalizer schema depth
      let finalizers ← zodFinalizers schemas depth
      some (finalizer :: finalizers)

def restFinalizer : Option Schema → ℕ → Option (Option Finalizer)
  | none, _ => some none
  | some rest, depth => (zodFinalizer rest depth).map some

def zodFields : List (String × Schema) → ℕ → Option (List FinalField)
  | [], _ => some []
  | (key, schema) :: shape, depth => do
      let finalize ← zodFinalizer schema depth
      let fields ← zodFields shape depth
      some (⟨key, zod.optin schema, finalize⟩ :: fields)

end

def hostFinal (schema : Schema) : Option Finalizer := zodFinalizer zod schema 0

end

section

variable (zod : Zod)

abbrev Issue := String × String

def validateWith (schema : Schema) (value : Value) : Except (List Issue) Value :=
  match schema.parse zod value with
  | some output => .ok output
  | none => .error (zod.issues schema value)

structure UsaiError where
  code : String
  status : ℕ
  message : String
  slot : Option String
  issues : List Issue
  deriving DecidableEq, Repr

def parse (slot : String) (schema : Option Schema) (value : Value) : Except UsaiError Value :=
  match schema with
  | none => .ok value
  | some schema =>
    match validateWith zod schema value with
    | .ok output => .ok output
    | .error issues =>
      .error ⟨"validation_failed", 400, slot ++ " failed validation", some slot, issues⟩

def parseValidated (slot : String) (schema : Option Schema) (value : Value)
    (validated : Option (List String)) : Except UsaiError Value :=
  match schema, validated with
  | some declared, some slots =>
    if slot ∈ slots then
      match hostFinal zod declared with
      | none => parse zod slot schema value
      | some finalize =>
        match finalize value with
        | none => parse zod slot schema value
        | some output => .ok output
    else parse zod slot schema value
  | _, _ => parse zod slot schema value

abbrev Headers := List (String × String)

inductive Reply where
  | response (status : ℕ) (headers : Headers) (body : Value)
  | value (body : Value)

inductive Result where
  | raw (status : ℕ) (headers : Headers) (text : Option String) (bytes : Option (List UInt8))
  | reply (reply : Reply)

structure HttpOutput where
  status : ℕ
  headers : Headers
  json : Option Value
  text : Option String
  bytes : Option (List UInt8)

abbrev Contracts := Option (List (ℕ × Schema))

def defaultStatus (contracts : Contracts) : ℕ :=
  (((contracts.getD []).map Prod.fst).filter (fun status => 200 ≤ status ∧ status < 300)).min?.getD 200

def carries (status : ℕ) : Bool := status ≠ 204 ∧ status ≠ 205 ∧ status ≠ 304

def answer (status : ℕ) (headers : Headers) (body : Value) : HttpOutput :=
  ⟨status, headers, if carries status && !body.isUndefined then some body else none, none, none⟩

def violation (status : ℕ) (issues : List Issue) : UsaiError :=
  ⟨"response_contract_violation", 500,
    "response for status " ++ toString status ++ " does not match its contract", none, issues⟩

def asks (contracts : Contracts) : Reply → ℕ × Headers × Value
  | .response status headers body => (status, headers, body)
  | .value body =>
    if (body.isUndefined || body.isNull) && contracts.isNone then (204, [], body)
    else (defaultStatus contracts, [], body)

def contract (contracts : Contracts) (reply : Reply) : Option Schema :=
  (contracts.getD []).lookup (asks contracts reply).1

def enforce (schema : Schema) (body : Value) : Except (List Issue) Value :=
  match (hostFinal zod schema).bind (fun finalize => finalize body) with
  | some fast => .ok fast
  | none => validateWith zod schema body

def encodeWith (enforce : Schema → Value → Except (List Issue) Value) (contracts : Contracts) :
    Result → Except UsaiError HttpOutput
  | .raw status headers text bytes => .ok ⟨status, headers, none, text, bytes⟩
  | .reply reply =>
    let (status, headers, body) := asks contracts reply
    match contract contracts reply with
    | none => .ok (answer status headers body)
    | some schema =>
      match enforce schema body with
      | .ok output => .ok (answer status headers output)
      | .error issues => .error (violation status issues)

def encodeHttp (contracts : Contracts) (result : Result) : Except UsaiError HttpOutput :=
  encodeWith (enforce zod) contracts result

end

end Usai.Schemas
