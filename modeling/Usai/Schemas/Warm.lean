import Usai.Schemas.Final

/-! The warm-up of `sdk.ts`: every declared schema is prepared before the image is
taken, by runs on `undefined` and on an empty object where `prepare.ts` takes
them to fail at once, and by the parse of a sample. What a run calls is all that
is kept of it. -/

namespace Usai.Schemas

def hasWhen (checks : List Check) : Bool := checks.any (fun check => check.when.isSome)

def Leaf.failsFast : Leaf → Bool
  | .any | .unknown | .transform _ _ | .custom _ _ => false
  | _ => true

def Wrapper.forwards : Wrapper → Bool
  | .optional | .nullable | .readonly | .nonoptional => true
  | .default _ | .prefault _ | .catching _ | .lazy _ => false

def zodFailsFast : Schema → ℕ → Bool
  | .leaf leaf checks, depth => depth ≤ 64 && leaf.failsFast && !hasWhen checks
  | .object _ _ checks, depth | .array _ checks, depth | .tuple _ _ checks, depth
  | .record _ _ checks, depth | .map _ _ checks, depth | .set _ checks, depth =>
    depth ≤ 64 && !hasWhen checks
  | .wrap wrapper inner checks, depth =>
    depth ≤ 64 && wrapper.forwards && checks.isEmpty && zodFailsFast inner (depth + 1)
  | .pipe input _ checks, depth => depth ≤ 64 && checks.isEmpty && zodFailsFast input (depth + 1)
  | .union _ _, _ | .intersection _ _ _, _ => false

def emptied : Schema → Bool
  | .object shape _ checks => !hasWhen checks && shape.all (fun field => zodFailsFast field.2 0)
  | _ => false

mutual

/-- The nodes that are visited: the `rest` of a tuple and what is behind a `lazy` are
not. -/
def Schema.nodes : Schema → List Schema
  | .leaf leaf checks => [.leaf leaf checks]
  | .wrap (.lazy call) inner checks => [.wrap (.lazy call) inner checks]
  | .wrap wrapper inner checks => .wrap wrapper inner checks :: inner.nodes
  | .pipe input output checks => .pipe input output checks :: (input.nodes ++ output.nodes)
  | .union options checks => .union options checks :: nodesOf options
  | .intersection left right checks =>
    .intersection left right checks :: (left.nodes ++ right.nodes)
  | .array element checks => .array element checks :: element.nodes
  | .tuple items rest checks => .tuple items rest checks :: nodesOf items
  | .record keyType valueType checks =>
    .record keyType valueType checks :: (valueType.nodes ++ keyType.nodes)
  | .map keyType valueType checks =>
    .map keyType valueType checks :: (valueType.nodes ++ keyType.nodes)
  | .set valueType checks => .set valueType checks :: valueType.nodes
  | .object shape catchall checks =>
    .object shape catchall checks :: (nodesIn shape ++ nodesOfCatchall catchall)

def nodesOf : List Schema → List Schema
  | [] => []
  | schema :: schemas => schema.nodes ++ nodesOf schemas

def nodesIn : List (String × Schema) → List Schema
  | [] => []
  | (_, field) :: shape => field.nodes ++ nodesIn shape

def nodesOfCatchall : Option Schema → List Schema
  | none => []
  | some catchall => catchall.nodes

end

section

variable (zod : Zod)

def formatSamples : List (String × Value) :=
  [("email", .string "sample@example.com"),
    ("url", .string "https://example.com/"),
    ("uri", .string "https://example.com/"),
    ("uuid", .string "6f1a2b3c-4d5e-4f60-8a71-92b3c4d5e6f7"),
    ("guid", .string "6f1a2b3c-4d5e-4f60-8a71-92b3c4d5e6f7"),
    ("datetime", .string "2026-01-01T00:00:00Z"),
    ("date", .string "2026-01-01"),
    ("time", .string "00:00:00"),
    ("duration", .string "PT1S"),
    ("ipv4", .string "192.0.2.1"),
    ("ipv6", .string "2001:db8::1"),
    ("cidrv4", .string "192.0.2.0/24"),
    ("cidrv6", .string "2001:db8::/32"),
    ("base64", .string "aGVsbG8="),
    ("base64url", .string "aGVsbG8"),
    ("e164", .string "+15550000000"),
    ("emoji", .string "😀"),
    ("nanoid", .string "V1StGXR8_Z5jdHi6B-myT"),
    ("cuid", .string "cjld2cjxh0000qzrmn831i7rn"),
    ("cuid2", .string "tz4a98xxat96iws9zmbrgj3a"),
    ("ulid", .string "01ARZ3NDEKTSV4RRFFQ69G5FAV"),
    ("ksuid", .string "0ujsszwN8NRY24YaXiTIE2VWDTS"),
    ("xid", .string "9m4e2mr0ui3e8a215n4g"),
    ("lowercase", .string "sample"),
    ("uppercase", .string "SAMPLE"),
    ("jwt", .string
      "eyJhbGciOiJIUzI1NiJ9.e30.ZRrHA1JJJW8opsbCGfG_HACGpVUMN_a9IV7pAx_Zmeo")]

def candidates : List String :=
  ["x", "2026-01-01", "1", "a", "sample", "sample@example.com", "2026-01-01T00:00:00Z", "ABC-123",
    "12345", "+15550000000", "https://example.com/"]

def LibraryCheck.asFormat : LibraryCheck → Option (String × Option (String → Bool))
  | .stringFormat format pattern => some (format, pattern)
  | _ => none

def LibraryCheck.asMinLength : LibraryCheck → Option Num
  | .minLength minimum => some minimum
  | _ => none

def LibraryCheck.asLength : LibraryCheck → Option Num
  | .lengthEquals length => some length
  | _ => none

def LibraryCheck.asGreater : LibraryCheck → Option (Value × Bool)
  | .greaterThan value inclusive => some (value, inclusive)
  | _ => none

def LibraryCheck.asLess : LibraryCheck → Option (Value × Bool)
  | .lessThan value inclusive => some (value, inclusive)
  | _ => none

def LibraryCheck.asMultiple : LibraryCheck → Option Value
  | .multipleOf value => some value
  | _ => none

def LibraryCheck.isNumberFormat : LibraryCheck → Bool
  | .numberFormat _ => true
  | _ => false

def times : Num → Option ℕ
  | .finite count => some ⌊max 1 count⌋.toNat
  | .infinity negative => if negative then some 1 else none
  | .nan => some 0

def stringSample (named : List LibraryCheck) : Option Value :=
  match named.findSome? LibraryCheck.asFormat with
  | some ("regex", pattern) =>
    (pattern.bind (fun pattern => candidates.find? pattern)).map Value.string
  | some (format, _) =>
    let sample := Value.get formatSamples format
    if sample.isUndefined then none else some sample
  | none =>
    let length := (named.findSome? LibraryCheck.asLength).or
      (named.findSome? LibraryCheck.asMinLength)
    (times (length.getD (.finite 1))).map (fun count => .string (String.ofList (.replicate count 'x')))

def numeric : Value → Option Num
  | .number value => some value
  | value => zod.toNumber value

/-- The least number above the bound, the least multiple from there on, if the
upper bound allows it. -/
def numberSample (named : List LibraryCheck) : Option Value := do
  let least ← match named.findSome? LibraryCheck.asGreater with
    | none => some (.finite 1)
    | some (bound, inclusive) =>
      (numeric zod bound).map (fun bound => Double.add bound (.finite (if inclusive then 0 else 1)))
  let stepped ← match named.findSome? LibraryCheck.asMultiple with
    | none => some least
    | some unit => (numeric zod unit).map (fun unit =>
      Double.mul unit (Double.ceil (Double.div least unit)))
  let bounded ← match named.findSome? LibraryCheck.asLess with
    | none => some stepped
    | some (bound, inclusive) => (numeric zod bound).bind (fun bound =>
      if Double.less (Double.add bound (.finite (if inclusive then 0 else -1))) stepped then none
      else some stepped)
  some (.number (if named.any LibraryCheck.isNumberFormat then Double.ceil bounded else bounded))

def leafSample (named : List LibraryCheck) : Leaf → Option Value
  | .string _ _ => stringSample named
  | .number _ _ => numberSample zod named
  | .bigint _ _ => some (.bigint 1)
  | .boolean _ => some (.bool true)
  | .date _ => zod.toDate (.number (.finite 0))
  | .literal values => some (values.head?.getD .undefined)
  | .enum entries => (entries.map Prod.snd).head?
  | .null => some .null
  | .undefined => some .undefined
  | .any | .unknown => some (.string "sample")
  | .nan => some (.number .nan)
  | .symbol | .void | .never | .file | .templateLiteral _ | .transform _ _ | .custom _ _ => none

def structural (checks : List Check) (depth : ℕ) (sample : List LibraryCheck → Option Value) :
    Option Value :=
  if 32 < depth then none else (checks.mapM Check.libraryCheck).bind sample

def isTransform : Schema → Bool
  | .leaf (.transform _ _) _ => true
  | _ => false

def isNever : Schema → Bool
  | .leaf .never _ => true
  | _ => false

mutual

def zodSample : Schema → ℕ → Option Value
  | .leaf leaf checks, depth => structural checks depth (fun named => leafSample zod named leaf)
  | .wrap (.lazy _) _ _, _ => none
  | .wrap _ inner checks, depth => structural checks depth (fun _ => zodSample inner (depth + 1))
  | .pipe input output checks, depth => structural checks depth (fun _ =>
    if isTransform output then none else zodSample input (depth + 1))
  | .union options checks, depth => structural checks depth (fun _ =>
    match options with
    | [] => none
    | option :: _ => zodSample option (depth + 1))
  | .array element checks, depth => structural checks depth (fun named => do
      let count ← times ((named.findSome? LibraryCheck.asMinLength).getD (.finite 1))
      let item ← zodSample element (depth + 1)
      if count < 2 ^ 32 then some (.array (.replicate count item)) else none)
  | .tuple items _ checks, depth => structural checks depth (fun _ =>
    (zodSamples items (depth + 1)).map .array)
  | .record _ valueType checks, depth => structural checks depth (fun _ =>
    (zodSample valueType (depth + 1)).map (fun value => .object none [("key", value)]))
  | .object shape catchall checks, depth => structural checks depth (fun _ =>
    if catchall.all isNever then
      (sampleShape shape (depth + 1)).map (fun values =>
        .object none ((shape.map Prod.fst).zip values))
    else none)
  | .intersection _ _ _, _ | .map _ _ _, _ | .set _ _, _ => none

def zodSamples : List Schema → ℕ → Option (List Value)
  | [], _ => some []
  | schema :: schemas, depth => do
      let value ← zodSample schema depth
      let values ← zodSamples schemas depth
      some (value :: values)

def sampleShape : List (String × Schema) → ℕ → Option (List Value)
  | [], _ => some []
  | (_, field) :: shape, depth => do
      let value ← zodSample field depth
      let values ← sampleShape shape depth
      some (value :: values)

end

def structuralSample (schema : Schema) : Option Value := zodSample zod schema 0

end

section

variable (zod : Zod)

def prepareNode (node : Schema) : List ℕ :=
  zod.touched node ++
    (if zodFailsFast node 0 then (node.run zod .undefined).calls else []) ++
    (if emptied node then (node.run zod (.object none [])).calls else [])

def prepareSchema (schema : Schema) : List ℕ := schema.nodes.flatMap (prepareNode zod)

/-- One schema. `hostFinal` builds its functions from what the nodes are and calls
none of them. -/
def warmOne (schema : Schema) : List ℕ :=
  prepareSchema zod schema ++
    (match structuralSample zod schema with
    | some sample => (schema.run zod sample).calls
    | none => [])

structure Declared where
  params : Option Schema
  query : Option Schema
  headers : Option Schema
  body : Option Schema
  input : Option Schema
  message : Option Schema
  response : List (ℕ × Schema)

def Declared.schemas (contracts : Declared) : List Schema :=
  [contracts.params, contracts.query, contracts.headers, contracts.body, contracts.input,
    contracts.message].reduceOption ++ contracts.response.map Prod.snd

def warm (workloads : List Declared) : List ℕ :=
  workloads.flatMap (fun contracts => contracts.schemas.flatMap (warmOne zod))

end

end Usai.Schemas
