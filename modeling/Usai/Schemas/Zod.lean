import Usai.Numeral

/-! Schemas of Zod 4 as trees, and how the library runs them. What a schema is
applied to and what it gives are the values of the language; the callbacks that an
application hangs into a tree carry a number, and a run says which it has called.
The inner workings of the library that its documentation leaves open are
parameters. -/

namespace Usai.Schemas

/-- An object has a brand when it is the instance of a class; the properties are
its own enumerable ones. Symbols and functions are told apart by a number. -/
inductive Value where
  | undefined
  | null
  | bool (value : Bool)
  | number (value : Num)
  | bigint (value : ℤ)
  | string (value : String)
  | other (identity : ℕ)
  | array (items : List Value)
  | object (brand : Option ℕ) (properties : List (String × Value))
  deriving Repr

namespace Value

def same : Value → Value → Bool
  | .undefined, .undefined | .null, .null => true
  | .bool first, .bool second => first = second
  | .number first, .number second => first = second
  | .bigint first, .bigint second => first = second
  | .string first, .string second => first = second
  | .other first, .other second => first = second
  | _, _ => false

def isUndefined : Value → Bool
  | .undefined => true
  | _ => false

def isNull : Value → Bool
  | .null => true
  | _ => false

def items : Value → Option (List Value)
  | .array items => some items
  | _ => none

def properties : Value → Option (Option ℕ × List (String × Value))
  | .object brand properties => some (brand, properties)
  | _ => none

def finite : Num → Option Value
  | .finite amount => some (.number (.finite amount))
  | .infinity _ | .nan => none

def has (properties : List (String × Value)) (key : String) : Bool :=
  (properties.lookup key).isSome || key ∈ Text.objectMethods

def get (properties : List (String × Value)) (key : String) : Value :=
  match properties.lookup key with
  | some value => value
  | none => if key ∈ Text.objectMethods then .other 0 else .undefined

end Value

inductive LibraryCheck where
  | minLength (minimum : Num)
  | maxLength (maximum : Num)
  | lengthEquals (length : Num)
  | greaterThan (value : Value) (inclusive : Bool)
  | lessThan (value : Value) (inclusive : Bool)
  | multipleOf (value : Value)
  | stringFormat (format : String) (pattern : Option (String → Bool))
  | numberFormat (format : String)
  | bigintFormat (format : String)
  | minSize (minimum : Num)
  | maxSize (maximum : Num)
  | sizeEquals (size : Num)

inductive Action where
  | library (check : LibraryCheck)
  | refinement (call : ℕ) (accepts : Value → Bool)
  | overwrite (call : Option ℕ) (change : Value → Value)

structure Condition where
  call : Option ℕ
  holds : Value → Bool

structure Check where
  action : Action
  when : Option Condition
  abort : Bool

/-- The nodes without children. A string or number node may itself be a format.
`transform` gives nothing when it reports an issue. -/
inductive Leaf where
  | string (coerce : Bool) (own : Option LibraryCheck)
  | number (coerce : Bool) (own : Option LibraryCheck)
  | bigint (coerce : Bool) (own : Option LibraryCheck)
  | boolean (coerce : Bool)
  | date (coerce : Bool)
  | symbol
  | null
  | undefined
  | void
  | never
  | nan
  | any
  | unknown
  | file
  | templateLiteral (matching : String → Bool)
  | literal (values : List Value)
  | enum (entries : List (String × Value))
  | transform (call : ℕ) (change : Value → Option Value)
  | custom (call : ℕ) (accepts : Value → Bool)

structure Supply where
  call : Option ℕ
  value : Value

inductive Wrapper where
  | optional
  | nullable
  | readonly
  | nonoptional
  | default (supply : Supply)
  | prefault (supply : Supply)
  | catching (supply : Supply)
  | lazy (call : ℕ)

inductive Schema where
  | leaf (leaf : Leaf) (checks : List Check)
  | wrap (wrapper : Wrapper) (inner : Schema) (checks : List Check)
  | pipe (input output : Schema) (checks : List Check)
  | union (options : List Schema) (checks : List Check)
  | intersection (left right : Schema) (checks : List Check)
  | array (element : Schema) (checks : List Check)
  | tuple (items : List Schema) (rest : Option Schema) (checks : List Check)
  | record (keyType valueType : Schema) (checks : List Check)
  | map (keyType valueType : Schema) (checks : List Check)
  | set (valueType : Schema) (checks : List Check)
  | object (shape : List (String × Schema)) (catchall : Option Schema) (checks : List Check)

theorem Schema.induct {motive : Schema → Prop} (leaf : ∀ leaf checks, motive (.leaf leaf checks))
    (wrap : ∀ wrapper inner checks, motive inner → motive (.wrap wrapper inner checks))
    (pipe : ∀ input output checks, motive input → motive output →
      motive (.pipe input output checks))
    (union : ∀ options checks, (∀ option ∈ options, motive option) →
      motive (.union options checks))
    (intersection : ∀ left right checks, motive left → motive right →
      motive (.intersection left right checks))
    (array : ∀ element checks, motive element → motive (.array element checks))
    (tuple : ∀ items rest checks, (∀ item ∈ items, motive item) →
      (∀ item ∈ rest, motive item) → motive (.tuple items rest checks))
    (record : ∀ keyType valueType checks, motive keyType → motive valueType →
      motive (.record keyType valueType checks))
    (map : ∀ keyType valueType checks, motive keyType → motive valueType →
      motive (.map keyType valueType checks))
    (set : ∀ valueType checks, motive valueType → motive (.set valueType checks))
    (object : ∀ shape catchall checks, (∀ field ∈ shape, motive field.2) →
      (∀ schema ∈ catchall, motive schema) → motive (.object shape catchall checks))
    (schema : Schema) : motive schema :=
  Schema.rec leaf wrap pipe union intersection array tuple record map set object
    (by nofun) (fun _ _ head tail => List.forall_mem_cons.mpr ⟨head, tail⟩)
    (by nofun) (fun _ found => by simpa only [Option.mem_some_iff, forall_eq'] using found)
    (by nofun) (fun _ _ head tail => List.forall_mem_cons.mpr ⟨head, tail⟩)
    (fun _ _ found => found) schema

/-- The library: what its checks accept, the conversions of `z.coerce`, the
instances of built-in classes, the merge of an intersection, the values that a
node is known to have, the `optin` of a node, the getters that reading the
structural properties of a node resolves, and the message and path of each issue
of a failed parse. -/
structure Zod where
  test : LibraryCheck → Value → Bool
  toText : Value → Option String
  toNumber : Value → Option Num
  toBigint : Value → Option ℤ
  truthy : Value → Bool
  toDate : Value → Option Value
  isDate : Value → Bool
  isSymbol : Value → Bool
  isFile : Value → Bool
  entries : Value → Option (List (Value × Value))
  members : Value → Option (List Value)
  merge : Value → Value → Option Value
  values : Schema → Option (List Value)
  optin : Schema → Bool
  touched : Schema → List ℕ
  issues : Schema → Value → List (String × String)

inductive Verdict where
  | clean
  | faulty
  | aborted
  deriving DecidableEq, Repr

namespace Verdict

def join : Verdict → Verdict → Verdict
  | .aborted, _ | _, .aborted => .aborted
  | .faulty, _ | _, .faulty => .faulty
  | .clean, .clean => .clean

theorem join_eq_clean {first second : Verdict} :
    first.join second = .clean ↔ first = .clean ∧ second = .clean := by
  cases first <;> cases second <;> decide

end Verdict

structure Payload where
  calls : List ℕ
  value : Value
  verdict : Verdict

namespace Payload

def accepted (value : Value) : Payload := ⟨[], value, .clean⟩

def rejected (value : Value) : Payload := ⟨[], value, .aborted⟩

def called (calls : List ℕ) (payload : Payload) : Payload :=
  { payload with calls := calls ++ payload.calls }

def faulted (payload : Payload) (abort : Bool) : Payload :=
  { payload with verdict := payload.verdict.join (if abort then .aborted else .faulty) }

def output (payload : Payload) : Option Value :=
  if payload.verdict = .clean then some payload.value else none

end Payload

section

variable (zod : Zod)

/-- Whether the check is run. One without a `when` is passed over after an issue
that ends the checks. -/
def Check.applies (check : Check) (payload : Payload) : Bool :=
  match check.when with
  | none => payload.verdict ≠ .aborted
  | some condition => condition.holds payload.value

def Check.asked (check : Check) : List ℕ := (check.when.bind Condition.call).toList

def Check.run (check : Check) (payload : Payload) : Payload :=
  let asked := { payload with calls := payload.calls ++ check.asked }
  if check.applies payload then
    match check.action with
    | .library library =>
      if zod.test library payload.value then asked else asked.faulted check.abort
    | .refinement call accepts =>
      let called := { asked with calls := asked.calls ++ [call] }
      if accepts payload.value then called else called.faulted check.abort
    | .overwrite call change =>
      { asked with calls := asked.calls ++ call.toList, value := change payload.value }
  else asked

def runChecks (checks : List Check) (payload : Payload) : Payload :=
  checks.foldl (fun payload check => check.run zod payload) payload

/-- The values of an enumeration: the names that a numeric one has for its
numbers are none. -/
def enumValues (entries : List (String × Value)) : List Value :=
  (entries.filter (fun entry => !entries.any (fun other =>
    match other.2 with
    -- `indexOf` finds no NaN
    | .number .nan => false
    | .number value => value = Numeral.number entry.1.toList
    | _ => false))).map Prod.snd

def Leaf.typed : Leaf → Value → Option Value
  | .string coerce _, value =>
    match value with
    | .string text => some (.string text)
    | value => if coerce then (zod.toText value).map .string else none
  | .number coerce _, value =>
    match value with
    | .number (.finite amount) => some (.number (.finite amount))
    | .number _ => none
    | value => if coerce then (zod.toNumber value).bind Value.finite else none
  | .bigint coerce _, value =>
    match value with
    | .bigint integer => some (.bigint integer)
    | value => if coerce then (zod.toBigint value).map .bigint else none
  | .boolean coerce, value =>
    match value with
    | .bool flag => some (.bool flag)
    | value => if coerce then some (.bool (zod.truthy value)) else none
  | .date coerce, value =>
    if zod.isDate value then some value else if coerce then zod.toDate value else none
  | .symbol, value => if zod.isSymbol value then some value else none
  | .file, value => if zod.isFile value then some value else none
  | .null, value => if value.isNull then some value else none
  | .undefined, value | .void, value => if value.isUndefined then some value else none
  | .never, _ => none
  | .nan, value => if value.same (.number .nan) then some value else none
  | .any, value | .unknown, value | .custom _ _, value | .transform _ _, value => some value
  | .templateLiteral matching, value =>
    match value with
    | .string text => if matching text then some value else none
    | _ => none
  | .literal values, value => if values.any value.same then some value else none
  | .enum entries, value => if (enumValues entries).any value.same then some value else none

/-- What the node itself does with a value of its type: the check of its format,
the predicate of a custom schema, the function of a transform. -/
def Leaf.own : Leaf → Value → Payload
  | .string _ (some check), value | .number _ (some check), value | .bigint _ (some check), value =>
    if zod.test check value then .accepted value else (Payload.accepted value).faulted false
  | .custom call accepts, value =>
    (if accepts value then .accepted value else (Payload.accepted value).faulted false).called
      [call]
  | .transform call change, value =>
    (match change value with
      | some changed => Payload.accepted changed
      | none => Payload.rejected value).called [call]
  | _, value => .accepted value

def Leaf.run (leaf : Leaf) (value : Value) : Payload :=
  match leaf.typed zod value with
  | some typed => leaf.own zod typed
  | none => .rejected value

namespace Payload

def required (payload : Payload) : Payload :=
  if payload.verdict = .clean && payload.value.isUndefined then { payload with verdict := .aborted }
  else payload

def defaulted (supply : Supply) (payload : Payload) : Payload :=
  if payload.value.isUndefined then
    { payload with calls := payload.calls ++ supply.call.toList, value := supply.value }
  else payload

def caught (supply : Supply) (payload : Payload) : Payload :=
  if payload.verdict = .clean then payload
  else ⟨payload.calls ++ supply.call.toList, supply.value, .clean⟩

def absent (payload : Payload) : Payload :=
  if payload.verdict = .clean then payload else ⟨payload.calls, .undefined, .clean⟩

def ended (payload : Payload) : Payload :=
  if payload.verdict = .clean then payload else { payload with verdict := .aborted }

end Payload

def Wrapper.run (wrapper : Wrapper) (inner : Schema) (run : Value → Payload) (value : Value) :
    Payload :=
  match wrapper with
  | .optional =>
    if value.isUndefined then
      if zod.optin inner then (run value).absent else .accepted value
    else run value
  | .nullable => if value.isNull then .accepted value else run value
  | .readonly => run value
  | .nonoptional => (run value).required
  | .default supply =>
    if value.isUndefined then (Payload.accepted supply.value).called supply.call.toList
    else (run value).defaulted supply
  | .prefault supply =>
    if value.isUndefined then (run supply.value).called supply.call.toList else run value
  | .catching supply => (run value).caught supply
  | .lazy call => (run value).called [call]

def gather (build : List Value → Value) (parts : List Payload) : Payload where
  calls := parts.flatMap Payload.calls
  value := build (parts.map Payload.value)
  verdict := (parts.map Payload.verdict).foldr Verdict.join .clean

/-- The object with these properties. In an output a declared property that is
absent has the value `undefined`: the two read the same, and JSON has neither. -/
def assemble (names : List String) (values : List Value) : Value := .object none (names.zip values)

def needed (items : List Schema) : ℕ :=
  (items.reverse.dropWhile zod.optin).length

def Value.name (value : Value) : String :=
  match value with
  | .string text => text
  | value => (zod.toText value).getD ""

mutual

def Schema.run : Schema → Value → Payload
  | .leaf leaf checks, value => runChecks zod checks (leaf.run zod value)
  | .wrap wrapper inner checks, value =>
    runChecks zod checks (wrapper.run zod inner (fun value => inner.run value) value)
  | .pipe input output checks, value =>
    let first := input.run value
    runChecks zod checks
      (if first.verdict = .clean then (output.run first.value).called first.calls
      else first.ended)
  | .union options checks, value => runChecks zod checks (runOptions options value)
  | .intersection left right checks, value =>
    let first := left.run value
    let second := right.run value
    let calls := first.calls ++ second.calls
    runChecks zod checks
      (match first.verdict.join second.verdict with
      | .clean =>
        match zod.merge first.value second.value with
        | some merged => ⟨calls, merged, .clean⟩
        | none => ⟨calls, value, .aborted⟩
      | verdict => ⟨calls, value, verdict⟩)
  | .array element checks, value =>
    runChecks zod checks (match value.items with
      | some items => gather .array (items.map (fun item => element.run item))
      | none => .rejected value)
  | .tuple items rest checks, value =>
    runChecks zod checks (match value.items with
      | some given =>
        if rest.isNone && (given.length < needed zod items || items.length < given.length) then
          .rejected value
        else
          gather .array (runItems items (needed zod items) 0 given ++
            runRest rest (given.drop items.length))
      | none => .rejected value)
  | .record keyType valueType checks, value =>
    runChecks zod checks (match value.properties with
      | some (none, properties) =>
        match zod.values keyType with
        | some keys =>
          -- every key has to be there, and no other
          let names := keys.map (Value.name zod)
          let present := properties.map (fun property =>
            if property.1 ∈ names then valueType.run property.2 else .rejected property.2)
          let missing := (names.filter (fun name => (properties.lookup name).isNone)).map
            (fun name => (name, valueType.run (Value.get properties name)))
          let supplied := missing.filter (fun part => !part.2.value.isUndefined)
          gather (fun values => .object none ((properties.map Prod.fst).zip values ++
              supplied.map (fun part => (part.1, part.2.value))))
            (present ++ missing.map Prod.snd)
        | none =>
          let parts := properties.map (fun property =>
            let key := keyType.run (.string property.1)
            if key.verdict = .clean then
              (key.value.name zod, (valueType.run property.2).called key.calls)
            else (property.1, key.ended))
          gather (assemble (parts.map Prod.fst)) (parts.map Prod.snd)
      | some (some _, _) | none => .rejected value)
  | .map keyType valueType checks, value =>
    runChecks zod checks (match zod.entries value with
      | some entries => gather (fun _ => value)
          (entries.map (fun entry => keyType.run entry.1) ++
            entries.map (fun entry => valueType.run entry.2))
      | none => .rejected value)
  | .set valueType checks, value =>
    runChecks zod checks (match zod.members value with
      | some members => gather (fun _ => value) (members.map (fun member => valueType.run member))
      | none => .rejected value)
  | .object shape catchall checks, value =>
    runChecks zod checks (match value.properties with
      | some (_, properties) =>
        let extra := properties.filter (fun property => property.1 ∉ shape.map Prod.fst)
        gather (assemble (shape.map Prod.fst ++ extra.map Prod.fst))
          (runShape shape properties ++ runCatchall catchall extra)
      | none => .rejected value)

def runOptions : List Schema → Value → Payload
  | [], value => .rejected value
  | option :: options, value =>
    let first := option.run value
    if first.verdict = .clean then first else (runOptions options value).called first.calls

def runItems : List Schema → ℕ → ℕ → List Value → List Payload
  | [], _, _, _ => []
  | item :: items, needed, index, given =>
    match given with
    | value :: given => item.run value :: runItems items needed (index + 1) given
    | [] =>
      if needed ≤ index then []
      else item.run .undefined :: runItems items needed (index + 1) []

def runRest : Option Schema → List Value → List Payload
  | none, _ => []
  | some rest, values => values.map (fun value => rest.run value)

def runShape : List (String × Schema) → List (String × Value) → List Payload
  | [], _ => []
  | (key, field) :: shape, properties =>
    field.run (Value.get properties key) :: runShape shape properties

def runCatchall : Option Schema → List (String × Value) → List Payload
  | none, _ => []
  | some catchall, extra => extra.map (fun property => catchall.run property.2)

end

theorem runShape_eq (shape : List (String × Schema)) (properties : List (String × Value)) :
    runShape zod shape properties =
      shape.map (fun field => field.2.run zod (Value.get properties field.1)) := by
  induction shape with
  | nil => rfl
  | cons field _ step => exact congrArg (field.2.run zod _ :: ·) step

def pairs : List Schema → Option Schema → List Value → List (Schema × Value)
  | [], none, _ => []
  | [], some rest, values => values.map (fun value => (rest, value))
  | _ :: _, _, [] => []
  | item :: items, rest, value :: values => (item, value) :: pairs items rest values

theorem runItems_eq (rest : Option Schema)
    (needed index : ℕ) (full : items.length ≤ values.length) :
    runItems zod items needed index values ++ runRest zod rest (values.drop items.length) =
      (pairs items rest values).map (fun pair => pair.1.run zod pair.2) := by
  induction items generalizing values index with
  | nil =>
    cases rest with
    | none => rfl
    | some => simp [runItems, runRest, pairs]
  | cons item _ step =>
    cases values with
    | nil => cases full
    | cons value _ =>
      exact congrArg (item.run zod value :: ·)
        (step (index + 1) (Nat.le_of_succ_le_succ full))

theorem mem_pairs (member : pair ∈ pairs items rest values) :
    pair.1 ∈ items ∨ pair.1 ∈ rest := by
  induction items generalizing values with
  | nil =>
    cases rest with
    | none => cases member
    | some =>
      obtain ⟨_, _, rfl⟩ := List.mem_map.mp member
      exact .inr rfl
  | cons item _ step =>
    cases values with
    | nil => cases member
    | cons =>
      rcases List.mem_cons.mp member with rfl | member
      · exact .inl List.mem_cons_self
      · exact (step member).imp (List.mem_cons_of_mem item) id

def Schema.parse (schema : Schema) (value : Value) : Option Value := (schema.run zod value).output

end

end Usai.Schemas
