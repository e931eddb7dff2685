import Usai.Text
import Usai.Postgres.Leases

/-! Values between the server and JSON: `column_to_json` makes a JSON value of a column,
`to_sql` makes a parameter of a JSON value. -/

namespace Usai.Postgres.Codec

open Text

/-- A JSON value as `serde_json` holds it, with the integers apart from the
floating-point numbers. -/
inductive Value (F64 : Type) where
  | null
  | bool (value : Bool)
  | integer (value : Int)
  | float (value : F64)
  | string (value : String)
  | array (items : List (Value F64))
  | object (members : List (String × Value F64))

abbrev Signed (bits : Nat) := { value : Int // -2 ^ (bits - 1) ≤ value ∧ value < 2 ^ (bits - 1) }

/-- The formats of other crates, what the driver makes of the values it cannot hold
exactly, and what the server makes of a text. -/
structure Formats where
  F32 : Type
  F64 : Type
  finite32 : F32 → Bool
  finite64 : F64 → Bool
  widen : F32 → F64
  narrow : F64 → F32
  ofInteger : Int → F64
  narrow_widen : ∀ value, finite32 value = true → narrow (widen value) = value
  Numeric : Type
  Decimal : Type
  readNumeric : Numeric → Option Decimal
  writeNumeric : Decimal → Numeric
  decimalText : Decimal → String
  parseDecimal : String → Option Decimal
  decimalOf : F64 → Option Decimal
  parse_decimalText : ∀ value, parseDecimal (decimalText value) = some value
  Uuid : Type
  uuidText : Uuid → String
  parseUuid : String → Option Uuid
  parse_uuidText : ∀ value, parseUuid (uuidText value) = some value
  encodeBase64 : List UInt8 → String
  decodeBase64 : String → Option (List UInt8)
  decode_encode : ∀ bytes, decodeBase64 (encodeBase64 bytes) = some bytes
  Instant : Type
  Naive : Type
  Date : Type
  rfc3339Text : Instant → String
  parseFromRfc3339 : String → Option Instant
  /-- `DateTime::parse_from_str`, with the text first. -/
  parseZoned : String → String → Option Instant
  parseNaive : String → String → Option Naive
  parseDate : String → String → Option Date
  andUtc : Naive → Instant
  midnight : Date → Naive
  rfc3339_ink : ∀ value, ∀ char ∈ (rfc3339Text value).toList, unicodeSpace char = false
  /-- RFC 3339 has years of four digits only, `%Y` reads those with a sign too. -/
  parse_rfc3339Text : ∀ value, parseFromRfc3339 (rfc3339Text value) = some value ∨
    parseFromRfc3339 (rfc3339Text value) = none ∧
      parseZoned (rfc3339Text value) "%Y-%m-%dT%H:%M:%S%.f%#z" = some value
  /-- `Display`: `%Y-%m-%d %H:%M:%S%.f`. -/
  naiveText : Naive → String
  naive_display : ∀ value, 'T' ∉ (naiveText value).toList
  /-- `FromStr`: `%Y-%m-%dT%H:%M:%S%.f`. -/
  naiveFromStr : String → Option Naive
  naive_fromStr : ∀ text value, naiveFromStr text = some value → 'T' ∈ text.toList
  dateText : Date → String
  dateFromStr : String → Option Date
  date_fromStr : ∀ value, dateFromStr (dateText value) = some value
  Document : Type
  readDocument : Document → Option (Value F64)
  writeDocument : Value F64 → Document
  /-- The values of a type that the runtime does not know, and how they are written. -/
  Foreign : String → Type
  foreignText : (name : String) → Foreign name → String
  foreignInput : (name : String) → String → Option (Foreign name)
  foreign_input : ∀ name value, foreignInput name (foreignText name value) = some value
  charInput : String → Option UInt8
  oidInput : String → Option (Fin (2 ^ 32))
  render : Value F64 → String
  oid_input : ∀ value : Fin (2 ^ 32), oidInput (render (.integer value.val)) = some value

inductive TextKind where
  | text
  | varchar
  | bpchar
  | name
  | unknown

inductive JsonKind where
  | json
  | jsonb

inductive TextArrayKind where
  | text
  | varchar

inductive Column where
  | int2
  | int4
  | int8
  | oid
  | float4
  | float8
  | numeric
  | bool
  | text (kind : TextKind)
  | char
  | uuid
  | json (kind : JsonKind)
  | timestamptz
  | timestamp
  | date
  | bytea
  | textArray (kind : TextArrayKind)
  | int4Array
  | int8Array
  | void
  | enum (name : String)
  | enumArray (name : String)
  | other (name : String)

def Column.name : Column → String
  | .int2 => "int2"
  | .int4 => "int4"
  | .int8 => "int8"
  | .oid => "oid"
  | .float4 => "float4"
  | .float8 => "float8"
  | .numeric => "numeric"
  | .bool => "bool"
  | .text .text => "text"
  | .text .varchar => "varchar"
  | .text .bpchar => "bpchar"
  | .text .name => "name"
  | .text .unknown => "unknown"
  | .char => "char"
  | .uuid => "uuid"
  | .json .json => "json"
  | .json .jsonb => "jsonb"
  | .timestamptz => "timestamptz"
  | .timestamp => "timestamp"
  | .date => "date"
  | .bytea => "bytea"
  | .textArray .text => "_text"
  | .textArray .varchar => "_varchar"
  | .int4Array => "_int4"
  | .int8Array => "_int8"
  | .void => "void"
  | .enum name => name
  | .enumArray name => "_" ++ name
  | .other name => name

abbrev Column.Cell (formats : Formats) : Column → Type
  | .int2 => Signed 16
  | .int4 => Signed 32
  | .int8 => Signed 64
  | .oid => Fin (2 ^ 32)
  | .float4 => formats.F32
  | .float8 => formats.F64
  | .numeric => formats.Numeric
  | .bool => Bool
  | .text _ => String
  | .char => UInt8
  | .uuid => formats.Uuid
  | .json _ => formats.Document
  | .timestamptz => formats.Instant
  | .timestamp => formats.Naive
  | .date => formats.Date
  | .bytea => List UInt8
  | .textArray _ => List (Option String)
  | .int4Array => List (Option (Signed 32))
  | .int8Array => List (Option (Signed 64))
  | .void => Unit
  | .enum _ => String
  | .enumArray _ => List (Option String)
  | .other name => formats.Foreign name

section

variable (formats : Formats) (bigintStrings : Bool)

def safe : Int := 9007199254740992

def safeInteger (value : Int) : Value formats.F64 :=
  if !bigintStrings && (-safe ≤ value && value ≤ safe) then .integer value
  else .string (String.ofList (integerText value))

def finiteJson (finite : Bool) (value : formats.F64) : Value formats.F64 :=
  if finite then .float value else .null

def readsAsText (name : String) : Bool := name ∈ ["citext", "ltree", "lquery", "ltxtquery"]

def nullable {Cell : Type} (cell : Option Cell) (json : Cell → Option (Value formats.F64)) :
    Option (Value formats.F64) :=
  match cell with
  | none => some .null
  | some value => json value

/-- `none`: the driver refuses to read the column. -/
def columnToJson : (column : Column) → Option (column.Cell formats) → Option (Value formats.F64)
  | .int2, cell => nullable formats cell fun value => some (.integer value.val)
  | .int4, cell => nullable formats cell fun value => some (.integer value.val)
  | .int8, cell => nullable formats cell fun value => some (safeInteger formats bigintStrings value.val)
  | .oid, cell => nullable formats cell fun value => some (.integer value.val)
  | .float4, cell => nullable formats cell fun value =>
    some (finiteJson formats (formats.finite32 value) (formats.widen value))
  | .float8, cell => nullable formats cell fun value =>
    some (finiteJson formats (formats.finite64 value) value)
  | .numeric, cell => nullable formats cell fun value =>
    (formats.readNumeric value).map fun value => .string (formats.decimalText value)
  | .bool, cell => nullable formats cell fun value => some (.bool value)
  | .text _, cell => nullable formats cell fun value => some (.string value)
  -- the driver has no text for the one-byte type
  | .char, _ => none
  | .uuid, cell => nullable formats cell fun value => some (.string (formats.uuidText value))
  | .json _, cell => nullable formats cell formats.readDocument
  | .timestamptz, cell => nullable formats cell fun value =>
    some (.string (formats.rfc3339Text value))
  | .timestamp, cell => nullable formats cell fun value => some (.string (formats.naiveText value))
  | .date, cell => nullable formats cell fun value => some (.string (formats.dateText value))
  | .bytea, cell => nullable formats cell fun value => some (.string (formats.encodeBase64 value))
  | .textArray _, cell => nullable formats cell fun items =>
    (items.mapM id).map fun items => .array (items.map .string)
  | .int4Array, cell => nullable formats cell fun items =>
    (items.mapM id).map fun items => .array (items.map fun value => .integer value.val)
  | .int8Array, cell => nullable formats cell fun items =>
    (items.mapM id).map fun items =>
      .array (items.map fun value => safeInteger formats bigintStrings value.val)
  | .void, _ => some .null
  | .enum _, cell => nullable formats cell fun label => some (.string label)
  | .enumArray _, _ => none
  | .other name, cell =>
    if readsAsText name then
      nullable formats cell fun value => some (.string (formats.foreignText name value))
    else none

end

namespace Value

variable {F64 : Type}

def asI64 : Value F64 → Option (Signed 64)
  | .integer value => if fits : _ then some ⟨value, fits⟩ else none
  | _ => none

def asF64 (ofInteger : Int → F64) : Value F64 → Option F64
  | .integer value => some (ofInteger value)
  | .float value => some value
  | _ => none

def asBool : Value F64 → Option Bool
  | .bool value => some value
  | _ => none

def asStr : Value F64 → Option String
  | .string value => some value
  | _ => none

def asArray : Value F64 → Option (List (Value F64))
  | .array items => some items
  | _ => none

def isNull : Value F64 → Bool
  | .null => true
  | _ => false

def isScalar : Value F64 → Bool
  | .array _ | .object _ => false
  | _ => true

def shape : Value F64 → String
  | .null => "null"
  | .bool _ => "a boolean"
  | .integer _ | .float _ => "a number"
  | .string value => "a " ++ toString value.length ++ "-character string"
  | .array items => "an array of " ++ toString items.length
  | .object members => "an object with " ++ toString members.length ++ " field(s)"

end Value

section

variable (formats : Formats)

/-- What is sent for a parameter: a value in the type's binary format, or a text that
the server reads as the type. -/
inductive Bound (column : Column) where
  | null
  | binary (value : column.Cell formats)
  | text (text : String)

def narrowInteger (bits : Nat) (value : Signed 64) : Option (Signed bits) :=
  if fits : _ then some ⟨value.val, fits⟩ else none

def intParam (value : Value formats.F64) : Option (Signed 64) :=
  value.asI64.or ((value.asStr.bind fun text => parseSigned (Text.trim unicodeSpace text.toList)).bind
    fun value => if fits : _ then some ⟨value, fits⟩ else none)

def replaceFirst (old new : Char) : List Char → List Char
  | [] => []
  | char :: rest => if char = old then new :: rest else char :: replaceFirst old new rest

def parseTimestamptz (text : String) : Option formats.Instant :=
  let text := Text.trim unicodeSpace text.toList
  let normalized := replaceFirst ' ' 'T' text
  let zoned (candidate : List Char) : Option formats.Instant :=
    (formats.parseFromRfc3339 (String.ofList candidate)).or
      (["%Y-%m-%dT%H:%M:%S%.f%#z", "%Y-%m-%dT%H:%M:%S%.f%:z", "%Y-%m-%dT%H:%M:%S%#z"].findSome?
        (formats.parseZoned (String.ofList candidate)))
  (formats.parseFromRfc3339 (String.ofList text)).or
    (([normalized, normalized ++ ":00".toList].findSome? zoned).or
      -- without a zone it is UTC, without a time it is midnight
      (((formats.parseNaive (String.ofList normalized) "%Y-%m-%dT%H:%M:%S%.f").map formats.andUtc).or
        ((formats.parseDate (String.ofList text) "%Y-%m-%d").map fun date =>
          formats.andUtc (formats.midnight date))))

def cannotEncode (index : Nat) (column : Column) (value : Value formats.F64) : ResourceError :=
  paramError index column.name ("cannot encode " ++ value.shape)

def typed (index : Nat) (column : Column) (value : Value formats.F64)
    (converted : Option (column.Cell formats)) : Except ResourceError (Bound formats column) :=
  if value.isNull then .ok .null
  else
    match converted with
    | some converted => .ok (.binary converted)
    | none => .error (cannotEncode formats index column value)

def labels (value : Value formats.F64) : Option (List (Option String)) :=
  value.asArray.bind (·.mapM fun item => item.asStr.map some)

def toText (index : Nat) (column : Column) (value : Value formats.F64) :
    Except ResourceError (Bound formats column) :=
  match value with
  | .null => .ok .null
  | .string text => .ok (.text text)
  | value =>
    if value.isScalar then .ok (.text (formats.render value))
    else if column.name.toList.head? = some '_' then
      .error (paramError index column.name
        ("arrays bind as text[], int4[] or int8[]; for " ++ column.name ++
          " pass the values as strings and cast the column in SQL, e.g. `unnest($1::text[]) as u(t)`" ++
          " with `t::" ++ String.ofList (column.name.toList.dropWhile (· == '_')) ++ "`"))
    else
      .error (paramError index column.name
        ("expected a string in the type's text form (or cast the parameter in SQL, e.g. " ++
          "$1::text)"))

def toSql (index : Nat) (column : Column) (value : Value formats.F64) :
    Except ResourceError (Bound formats column) :=
  match column with
  | .int2 => typed formats index .int2 value ((intParam formats value).bind (narrowInteger 16))
  | .int4 => typed formats index .int4 value ((intParam formats value).bind (narrowInteger 32))
  | .int8 => typed formats index .int8 value (intParam formats value)
  | .float4 => typed formats index .float4 value ((value.asF64 formats.ofInteger).map formats.narrow)
  | .float8 => typed formats index .float8 value (value.asF64 formats.ofInteger)
  | .numeric => typed formats index .numeric value
      (((value.asStr.bind formats.parseDecimal).or
        ((value.asF64 formats.ofInteger).bind formats.decimalOf)).map formats.writeNumeric)
  | .bool => typed formats index .bool value value.asBool
  | .text kind => typed formats index (.text kind) value
      (value.asStr.or (if value.isScalar then some (formats.render value) else none))
  | .uuid => typed formats index .uuid value (value.asStr.bind formats.parseUuid)
  | .bytea => typed formats index .bytea value (value.asStr.bind formats.decodeBase64)
  -- a JSON value is sent as it is, the value `null` too
  | .json _ => .ok (.binary (formats.writeDocument value))
  | .timestamptz => typed formats index .timestamptz value
      (value.asStr.bind (parseTimestamptz formats))
  | .timestamp => typed formats index .timestamp value
      (value.asStr.bind formats.naiveFromStr)
  | .date => typed formats index .date value (value.asStr.bind formats.dateFromStr)
  | .textArray kind => typed formats index (.textArray kind) value
      (value.asArray.map fun items =>
        items.map fun item => some (item.asStr.getD (formats.render item)))
  | .int4Array => typed formats index .int4Array value
      (value.asArray.bind fun items =>
        items.mapM fun item => (item.asI64.bind (narrowInteger 32)).map some)
  | .int8Array => typed formats index .int8Array value
      (value.asArray.bind fun items => items.mapM fun item => item.asI64.map some)
  | .enum name => typed formats index (.enum name) value value.asStr
  | .enumArray name => typed formats index (.enumArray name) value (labels formats value)
  | .oid => toText formats index .oid value
  | .char => toText formats index .char value
  | .void => toText formats index .void value
  | .other name => toText formats index (.other name) value

/-- What the server takes the parameter to be, `none` for a text that it refuses. -/
def store : (column : Column) → Bound formats column → Option (Option (column.Cell formats))
  | _, .null => some none
  | _, .binary value => some (some value)
  | .oid, .text text => (formats.oidInput text).map some
  | .other name, .text text => (formats.foreignInput name text).map some
  | .char, .text text => (formats.charInput text).map some
  | _, .text _ => none

end

end Usai.Postgres.Codec
