import Usai.Numeral

/-! The environment contract of the SDK (`env.ts`): the fields that the
constructors build, and `resolveEnv`, which a world applies to the variables
that the host hands it. -/

namespace Usai.Environment

open Text

inductive Kind where
  | string
  | url
  | secret
  | int
  | bool
  | enum
  | cidr
  | list
  deriving DecidableEq, Repr

/-- What a parser is applied to: a text, one half of a surrogate pair (a cut at
the empty separator is between code units), or a method that every object
inherits. -/
inductive Raw where
  | text (chars : List Char)
  | half (unit : Nat)
  | method
  deriving DecidableEq, Repr

inductive Value where
  | raw (value : Raw)
  | number (value : Num)
  | flag (value : Bool)
  | list (items : List Value)
  deriving Repr

structure EnvField where
  kind : Kind
  required : Bool
  values : Option (List (List Char))
  items : Option Kind
  separator : Option (List Char)
  group : Option String
  parse : Raw → Except String Value

namespace Raw

def codeUnits (char : Char) : List Raw :=
  if char.toNat < 0x10000 then [.text [char]]
  else
    let offset := char.toNat - 0x10000
    [.half (0xD800 + offset / 0x400), .half (0xDC00 + offset % 0x400)]

def split (separator : List Char) : Raw → Except String (List Raw)
  | .text chars =>
    .ok (if separator = [] then chars.flatMap codeUnits else (Text.split separator chars).map .text)
  | .half unit => .ok [.half unit]
  | .method => .error "not a function"

def trim : Raw → Raw
  | .text chars => .text (Text.trim scriptSpace chars)
  | .half unit => .half unit
  | .method => .method

def number : Raw → Num
  | .text chars => Numeral.number chars
  | .half _ | .method => .nan

end Raw

section

-- `JSON.stringify` within a message
variable (quote : Raw → String)

def field (kind : Kind) (parse : Raw → Except String Value) : EnvField where
  kind := kind
  required := true
  values := none
  items := none
  separator := none
  group := none
  parse := parse

def string : EnvField := field .string (fun raw => .ok (.raw raw))

def url : EnvField := field .url (fun raw => .ok (.raw raw))

def secret : EnvField := field .secret (fun raw => .ok (.raw raw))

def int : EnvField := field .int (fun raw =>
  if Numeral.isInteger raw.number then .ok (.number raw.number)
  else .error ("expected an integer, got " ++ quote raw))

def bool : EnvField := field .bool (fun raw =>
  if raw = .text "true".toList ∨ raw = .text "1".toList then .ok (.flag true)
  else if raw = .text "false".toList ∨ raw = .text "0".toList then .ok (.flag false)
  else .error ("expected a boolean, got " ++ quote raw))

def enum (values : List (List Char)) : EnvField :=
  { field .enum (fun raw =>
      if raw ∈ values.map .text then .ok (.raw raw)
      else .error ("expected one of " ++ ", ".intercalate (values.map String.ofList) ++ ", got " ++
        quote raw)) with
    values := some values }

def cidr : EnvField := field .cidr (fun raw => do
  let parts ← raw.split ['/']
  if parts.length = 2 then .ok (.raw raw)
  else .error ("expected an address with a prefix length, like 10.0.0.0/8, got " ++ quote raw))

def parseItems (parse : Raw → Except String Value) : Nat → List Raw → Except String (List Value)
  | _, [] => .ok []
  | index, item :: rest =>
    if item.trim = .text [] then .error ("item " ++ toString (index + 1) ++ " is empty")
    else
      match parse item.trim with
      | .error problem =>
        .error ("item " ++ toString (index + 1) ++ " (" ++ quote item.trim ++ "): " ++ problem)
      | .ok value => (parseItems parse (index + 1) rest).map (value :: ·)

def list (inner : EnvField) (separator : Option (List Char)) : EnvField :=
  { field .list (fun raw => do
      let items ← raw.split (separator.getD [','])
      let values ← parseItems quote inner.parse 0 items
      .ok (.list values)) with
    values := inner.values
    items := some inner.kind
    separator := some (separator.getD [',']) }

def group (name : String) (inner : EnvField) : EnvField :=
  { inner with required := false, group := some name }

def optional (inner : EnvField) : EnvField :=
  { field inner.kind inner.parse with required := false, values := inner.values }

inductive Field where
  | string
  | url
  | secret
  | int
  | bool
  | enum (values : List (List Char))
  | cidr
  | list (inner : Field) (separator : Option (List Char))
  | group (name : String) (inner : Field)
  | optional (inner : Field)
  deriving DecidableEq, Repr

def Field.build : Field → EnvField
  | .string => Environment.string
  | .url => Environment.url
  | .secret => Environment.secret
  | .int => Environment.int quote
  | .bool => Environment.bool quote
  | .enum values => Environment.enum quote values
  | .cidr => Environment.cidr quote
  | .list inner separator => Environment.list quote inner.build separator
  | .group name inner => Environment.group name inner.build
  | .optional inner => Environment.optional inner.build

end

/-- The fields under which `describe` and `envOf` collect a declaration: an
assignment to the name of the accessor for the prototype makes no property. -/
def merged (fields : List (String × EnvField)) : List (String × EnvField) :=
  fields.filter (fun field => field.1 ≠ "__proto__")

def resolve (name : String) (field : EnvField) : Option Raw → Except String (Option Value)
  | none | some (.text []) =>
    if field.required then .error ("missing required environment variable " ++ name)
    else .ok none
  | some value => (field.parse value).map some

def resolveEnv (raw : String → Option Raw) :
    List (String × EnvField) → Except String (List (String × Option Value))
  | [] => .ok []
  | (name, field) :: rest => do
      let value ← resolve name field (raw name)
      let values ← resolveEnv raw rest
      .ok ((name, value) :: values)

end Usai.Environment
