import Usai.Postgres.Codec

/-! Which values survive the way to JSON and back as a parameter of their own type. -/

namespace Usai.Postgres.Codec

open List Option Text

variable {formats : Formats} {bigintStrings : Bool} {json : Value formats.F64}

section

variable (formats bigintStrings)

/-- If the column can be read, its JSON is accepted as a parameter of the same type and
the server has the same value again. -/
def Survives (column : Column) (cell : Option (column.Cell formats)) : Prop :=
  ∀ json, columnToJson formats bigintStrings column cell = some json →
    ∀ index, ∃ bound, toSql formats index column json = .ok bound ∧
      store formats column bound = some cell

def Kept : (column : Column) → Option (column.Cell formats) → Prop
  | .float4, some value => formats.finite32 value = true
  | .float8, some value => formats.finite64 value = true
  | .numeric, some value => ∀ decimal, formats.readNumeric value = some decimal →
      formats.writeNumeric decimal = value
  | .json _, none => False
  | .json _, some document => ∀ value, formats.readDocument document = some value →
      formats.writeDocument value = document
  | .timestamp, some _ => False
  | .int8Array, some items => ∀ values : List (Signed 64), items = values.map some → ∀ value ∈ values,
      bigintStrings = false ∧ -safe ≤ value.val ∧ value.val ≤ safe
  | .void, some _ => False
  | _, _ => True

end

section

variable {column : Column}

theorem survives_some (read : columnToJson formats bigintStrings column (some value) = some json)
    (bind : ∀ index, ∃ bound, toSql formats index column json = .ok bound ∧
      store formats column bound = some (some value)) :
    Survives formats bigintStrings column (some value) := by
  intro other produced index
  rw [read] at produced
  cases produced
  exact bind index

theorem typed_binary (present : json.isNull = false) (back : converted = some value) :
    typed formats index column json converted = .ok (.binary value) := by
  simp [typed, present, back]

theorem survives_typed (back : converted = some value)
    (read : columnToJson formats bigintStrings column (some value) = some json)
    (present : json.isNull = false)
    (bind : ∀ index, toSql formats index column json = typed formats index column json converted) :
    Survives formats bigintStrings column (some value) := by
  refine survives_some read fun index => ⟨.binary value, ?_, by cases column <;> rfl⟩
  rw [bind index, typed_binary present back]

theorem intParam_integer (value : Signed 64) :
    intParam formats (.integer value.val) = some value := by
  have read : (Value.integer value.val : Value formats.F64).asI64 = some value := dif_pos value.property
  rw [intParam, read]
  rfl

theorem intParam_safeInteger (value : Signed 64) :
    intParam formats (safeInteger formats bigintStrings value.val) = some value := by
  unfold safeInteger
  split
  · exact intParam_integer value
  · have trimmed : Text.trim unicodeSpace (integerText value.val) = integerText value.val :=
      trim_eq_self (ink_of_integerText value.val)
    simp only [intParam, Value.asI64, Value.asStr, bind_some, String.toList_ofList, trimmed,
      parseSigned_integerText value.property, Option.or]
    exact dif_pos value.property

theorem narrowInteger_widen (value : Signed bits)
    (fits : -2 ^ 63 ≤ value.val ∧ value.val < 2 ^ 63) :
    (intParam formats (.integer value.val)).bind (narrowInteger bits) = some value := by
  rw [intParam_integer ⟨value.val, fits⟩, bind_some]
  exact dif_pos value.property

theorem replaceFirst_absent (absent : old ∉ text) :
    replaceFirst old new text = text := by
  induction text with
  | nil => rfl
  | cons _ _ ih =>
    rw [mem_cons, not_or] at absent
    rw [replaceFirst, if_neg (fun same => absent.1 same.symm), ih absent.2]

theorem parseTimestamptz_rfc3339Text (value : formats.Instant) :
    parseTimestamptz formats (formats.rfc3339Text value) = some value := by
  have trimmed := trim_eq_self (formats.rfc3339_ink value)
  have same : replaceFirst ' ' 'T' (formats.rfc3339Text value).toList =
      (formats.rfc3339Text value).toList :=
    replaceFirst_absent fun member => absurd (formats.rfc3339_ink value ' ' member) (by decide)
  simp only [parseTimestamptz, trimmed, same, String.ofList_toList]
  rcases formats.parse_rfc3339Text value with read | ⟨failed, read⟩
  · rw [read]
    rfl
  · simp only [failed, none_or, findSome?_cons, String.ofList_toList, read, some_or]

end

section

variable {Item : Type} {values : List Item}

theorem mapM_id_iff :
    items.mapM id = some values ↔ items = values.map some := by
  constructor
  · intro read
    induction items generalizing values with
    | nil =>
      cases read
      rfl
    | cons _ items ih =>
      rw [mapM_cons] at read
      obtain ⟨_, present, rest⟩ := bind_eq_some_iff.mp read
      obtain ⟨_, tail, same⟩ := bind_eq_some_iff.mp rest
      cases same
      rw [map_cons, ← ih tail]
      exact congrArg (· :: items) present
  · rintro rfl
    induction values with
    | nil => rfl
    | cons _ _ ih =>
      rw [map_cons, mapM_cons, ih]
      rfl

theorem mapM_convert {json : Item → Value formats.F64}
    {convert : Value formats.F64 → Option (Option Item)} :
    (values.map json).mapM convert = some (values.map some) ↔
      ∀ value ∈ values, convert (json value) = some (some value) := by
  induction values with
  | nil => simp
  | cons value values ih =>
    rw [map_cons, mapM_cons, forall_mem_cons, ← ih]
    cases convert (json value) with
    | none => simp
    | some =>
      cases (values.map json).mapM convert with
      | none => simp
      | some => simp

end

section

variable (formats bigintStrings)

variable {column : Column} {index : Nat}

theorem columnToJson_none
    (read : columnToJson formats bigintStrings column none = some json) : json = .null := by
  cases column <;> simp_all [columnToJson, nullable]

variable {formats}

theorem typed_null
    (bind : typed formats index column json converted = .ok .null) : json = .null := by
  unfold typed at bind
  split at bind
  · rename_i null
    cases json <;> first | rfl | cases null
  · split at bind <;> cases bind

theorem toText_null (bind : toText formats index column json = .ok .null) : json = .null := by
  unfold toText at bind
  split at bind
  · rfl
  · cases bind
  · split at bind
    · cases bind
    · split at bind <;> cases bind

end

section

theorem survives_int8Array_iff (items : List (Option (Signed 64))) :
    Survives formats bigintStrings .int8Array (some items) ↔
      Kept formats bigintStrings .int8Array (some items) := by
  have converts : ∀ value : Signed 64,
      (safeInteger formats bigintStrings value.val).asI64.map some = some (some value) ↔
        bigintStrings = false ∧ -safe ≤ value.val ∧ value.val ≤ safe := by
    intro value
    have whole : (Value.integer value.val : Value formats.F64).asI64 = some value :=
      dif_pos value.property
    unfold safeInteger
    split
    · rename_i small
      simpa [whole] using small
    · rename_i large
      simpa [Value.asI64] using large
  have sent : ∀ (index : Nat) (values : List (Signed 64)), toSql formats index .int8Array
      (.array (values.map fun value => safeInteger formats bigintStrings value.val)) =
      typed formats index .int8Array
        (.array (values.map fun value => safeInteger formats bigintStrings value.val))
        ((values.map fun value => safeInteger formats bigintStrings value.val).mapM
          fun item => item.asI64.map some) := fun _ _ => rfl
  constructor
  · rintro survives values rfl
    have read : columnToJson formats bigintStrings .int8Array (some (values.map some)) =
        some (.array (values.map fun value => safeInteger formats bigintStrings value.val)) := by
      simp only [columnToJson, nullable, mapM_id_iff.mpr rfl, map_some]
    obtain ⟨_, bind, stored⟩ := survives _ read 0
    rw [sent] at bind
    cases converted : (values.map fun value => safeInteger formats bigintStrings value.val).mapM
        fun item => item.asI64.map some with
    | none =>
      rw [converted] at bind
      cases bind
    | some =>
      rw [converted] at bind
      cases bind
      cases stored
      intro value member
      exact (converts value).mp (mapM_convert.mp converted value member)
  · intro kept json produced index
    obtain ⟨values, read, rfl⟩ := map_eq_some_iff.mp produced
    have form := mapM_id_iff.mp read
    refine ⟨.binary items, ?_, rfl⟩
    rw [sent, mapM_convert.mpr fun value member => (converts value).mpr (kept values form value member),
      ← form]
    rfl

theorem survives_none_iff (column : Column) :
    Survives formats bigintStrings column none ↔ Kept formats bigintStrings column none := by
  cases column
  case json kind =>
    refine ⟨fun survives => ?_, False.elim⟩
    obtain ⟨_, bind, stored⟩ := survives .null rfl 0
    cases bind
    cases stored
  case char => exact ⟨fun _ => trivial, nofun⟩
  case enumArray => exact ⟨fun _ => trivial, nofun⟩
  case other name =>
    refine ⟨fun _ => trivial, fun _ json produced index => ?_⟩
    have null := columnToJson_none formats bigintStrings produced
    subst null
    exact ⟨.null, rfl, rfl⟩
  all_goals
    refine ⟨fun _ => trivial, fun _ json produced index => ?_⟩
    cases produced
    exact ⟨.null, rfl, rfl⟩

variable {column : Column}

theorem not_survives (read : columnToJson formats bigintStrings column (some value) = some .null)
    (bind : toSql formats 0 column .null = .ok .null) :
    ¬ Survives formats bigintStrings column (some value) := by
  intro survives
  obtain ⟨_, sent, stored⟩ := survives .null read 0
  rw [bind] at sent
  cases sent
  cases column <;> cases stored

theorem survives_read_iff {Read : Type}
    {reading : Option Read} {json : Read → Value formats.F64} {write : Read → column.Cell formats}
    (read : columnToJson formats bigintStrings column (some value) = reading.map json)
    (bind : ∀ index found, toSql formats index column (json found) = .ok (.binary (write found))) :
    Survives formats bigintStrings column (some value) ↔
      ∀ found, reading = some found → write found = value := by
  have stores : ∀ cell, store formats column (.binary cell) = some (some cell) := by
    cases column <;> exact fun _ => rfl
  constructor
  · rintro survives found rfl
    obtain ⟨_, sent, stored⟩ := survives (json found) read 0
    rw [bind 0 found] at sent
    cases sent
    exact some.inj (some.inj stored)
  · intro same other produced index
    rw [read] at produced
    obtain ⟨found, present, rfl⟩ := map_eq_some_iff.mp produced
    refine ⟨.binary (write found), bind index found, ?_⟩
    rw [stores, same found present]

theorem survives_float_iff (back : finite = true → converted = some value)
    (read : columnToJson formats bigintStrings column (some value) =
      some (finiteJson formats finite float))
    (bind : ∀ index, toSql formats index column (.float float) =
      typed formats index column (.float float) converted)
    (null : toSql formats 0 column .null = .ok .null) :
    Survives formats bigintStrings column (some value) ↔ finite = true := by
  cases finite with
  | true => exact ⟨fun _ => rfl, fun _ => survives_typed (back rfl) read rfl bind⟩
  | false =>
    refine ⟨fun survives => absurd survives (not_survives read null), fun impossible => ?_⟩
    cases impossible

theorem survives_some_iff (column : Column) (value : column.Cell formats) :
    Survives formats bigintStrings column (some value) ↔
      Kept formats bigintStrings column (some value) := by
  cases column
  case int2 | int4 =>
    refine ⟨fun _ => trivial, fun _ => ?_⟩
    exact survives_typed (narrowInteger_widen value (by omega)) rfl rfl fun _ => rfl
  case int8 =>
    refine ⟨fun _ => trivial, fun _ => ?_⟩
    refine survives_typed (intParam_safeInteger value) rfl ?_ fun _ => rfl
    unfold safeInteger
    split <;> rfl
  case oid =>
    refine ⟨fun _ => trivial, fun _ => survives_some rfl fun index => ⟨_, rfl, ?_⟩⟩
    exact congrArg (Option.map some) (formats.oid_input value)
  case float4 =>
    exact survives_float_iff (fun finite => congrArg some (formats.narrow_widen value finite)) rfl
      (fun _ => rfl) rfl
  case float8 => exact survives_float_iff (fun _ => rfl) rfl (fun _ => rfl) rfl
  case numeric =>
    refine survives_read_iff rfl fun index decimal => typed_binary rfl ?_
    simp only [Value.asStr, bind_some, formats.parse_decimalText, some_or,
      map_some]
  case char => exact ⟨fun _ => trivial, nofun⟩
  case uuid =>
    exact ⟨fun _ => trivial, fun _ =>
      survives_typed (formats.parse_uuidText value) rfl rfl fun _ => rfl⟩
  case json kind =>
    have read : columnToJson formats bigintStrings (.json kind) (some value) =
        (formats.readDocument value).map id := by rw [Option.map_id]; rfl
    exact survives_read_iff read fun _ _ => rfl
  case timestamptz =>
    exact ⟨fun _ => trivial, fun _ =>
      survives_typed (parseTimestamptz_rfc3339Text value) rfl rfl fun _ => rfl⟩
  case timestamp =>
    refine ⟨fun survives => ?_, False.elim⟩
    have refused : formats.naiveFromStr (formats.naiveText value) = none := by
      cases read : formats.naiveFromStr (formats.naiveText value) with
      | none => rfl
      | some => exact absurd (formats.naive_fromStr _ _ read) (formats.naive_display value)
    obtain ⟨_, sent, _⟩ := survives (.string (formats.naiveText value)) rfl 0
    simp only [toSql, typed, Value.isNull, Value.asStr, bind_some, refused] at sent
    cases sent
  case date =>
    exact ⟨fun _ => trivial, fun _ =>
      survives_typed (formats.date_fromStr value) rfl rfl fun _ => rfl⟩
  case bytea =>
    exact ⟨fun _ => trivial, fun _ =>
      survives_typed (formats.decode_encode value) rfl rfl fun _ => rfl⟩
  case textArray kind =>
    refine ⟨fun _ => trivial, fun _ json produced index => ?_⟩
    obtain ⟨values, read, rfl⟩ := map_eq_some_iff.mp produced
    have sent : toSql formats index (.textArray kind) (.array (values.map .string)) =
        .ok (.binary (values.map some)) := by
      simp [toSql, typed, Value.isNull, Value.asArray, Value.asStr]
    exact ⟨_, sent, by rw [mapM_id_iff.mp read]; rfl⟩
  case int4Array =>
    refine ⟨fun _ => trivial, fun _ json produced index => ?_⟩
    obtain ⟨values, read, rfl⟩ := map_eq_some_iff.mp produced
    have converts : (values.map fun value => (.integer value.val : Value formats.F64)).mapM
        (fun item => (item.asI64.bind (narrowInteger 32)).map some) = some (values.map some) := by
      refine mapM_convert.mpr fun item _ => ?_
      have bounds := item.property
      have whole : (Value.integer item.val : Value formats.F64).asI64 =
          some ⟨item.val, by omega⟩ := dif_pos _
      rw [whole, bind_some]
      exact congrArg (Option.map some) (dif_pos bounds)
    have sent : toSql formats index .int4Array
        (.array (values.map fun value => .integer value.val)) =
        .ok (.binary (values.map some)) := by
      simp only [toSql, typed, Value.isNull, Value.asArray, bind_some, converts]
      rfl
    exact ⟨_, sent, by rw [mapM_id_iff.mp read]; rfl⟩
  case int8Array => exact survives_int8Array_iff value
  case void => exact ⟨fun survives => absurd survives (not_survives rfl rfl), False.elim⟩
  case other name =>
    refine ⟨fun _ => trivial, fun _ => ?_⟩
    intro json produced index
    obtain ⟨_, rfl⟩ := ite_some_none_eq_some.mp produced
    exact ⟨.text _, rfl, congrArg (Option.map some) (formats.foreign_input name value)⟩
  case enumArray => exact ⟨fun _ => trivial, nofun⟩
  all_goals
    exact ⟨fun _ => trivial, fun _ => survives_typed (Eq.refl (some value)) rfl rfl fun _ => rfl⟩

/-- A value survives the way to JSON and back exactly when it is kept; `NULL` is read as
`null` only, and sent for `null` only. -/
theorem codec_round_trip_iff (formats : Formats) (bigintStrings : Bool) (column : Column)
    (cell : Option (column.Cell formats)) :
    (Survives formats bigintStrings column cell ↔ Kept formats bigintStrings column cell) ∧
      (∀ json, columnToJson formats bigintStrings column none = some json → json = .null) ∧
      (∀ index json, toSql formats index column json = .ok .null → json = .null) := by
  refine ⟨?_, fun _ => columnToJson_none formats bigintStrings, fun index json bind => ?_⟩
  · cases cell with
    | none => exact survives_none_iff column
    | some value => exact survives_some_iff column value
  · cases column
    case json => cases bind
    all_goals first | exact typed_null bind | exact toText_null bind

def sampleFormats : Formats where
  F32 := Unit
  F64 := Unit
  finite32 _ := true
  finite64 _ := true
  widen := id
  narrow := id
  ofInteger _ := ()
  narrow_widen _ _ := rfl
  Numeric := Unit
  Decimal := Unit
  readNumeric := some
  writeNumeric := id
  decimalText _ := "0"
  parseDecimal _ := some ()
  decimalOf := some
  parse_decimalText _ := rfl
  Uuid := Unit
  uuidText _ := "00000000-0000-0000-0000-000000000000"
  parseUuid _ := some ()
  parse_uuidText _ := rfl
  encodeBase64 bytes := String.ofList (bytes.map fun byte => Char.ofNat byte.toNat)
  decodeBase64 text := some (text.toList.map fun char => UInt8.ofNat char.toNat)
  decode_encode bytes := by
    have back : ∀ byte : UInt8, UInt8.ofNat (Char.ofNat byte.toNat).toNat = byte := by
      intro byte
      rw [toNat_ofNat_byte, UInt8.ofNat_toNat]
    simp [Function.comp_def, back]
  Instant := Unit
  Naive := Unit
  Date := Unit
  rfc3339Text _ := "2026-01-01T00:00:00+00:00"
  parseFromRfc3339 _ := some ()
  parseZoned _ _ := none
  parseNaive _ _ := none
  parseDate _ _ := none
  andUtc := id
  midnight := id
  rfc3339_ink _ char member := by
    have ink : "2026-01-01T00:00:00+00:00".toList.all (fun char => !unicodeSpace char) = true := rfl
    simpa using List.all_eq_true.mp ink char member
  parse_rfc3339Text _ := .inl rfl
  naiveText _ := "2026-01-01 00:00:00"
  naive_display _ := by decide
  naiveFromStr text := if 'T' ∈ text.toList then some () else none
  naive_fromStr text value read := (Option.ite_none_right_eq_some.mp read).1
  dateText _ := "2026-01-01"
  dateFromStr _ := some ()
  date_fromStr _ := rfl
  Document := Unit
  readDocument _ := some .null
  writeDocument _ := ()
  Foreign _ := Unit
  foreignText _ _ := ""
  foreignInput _ _ := some ()
  foreign_input _ _ := rfl
  charInput _ := none
  oidInput text := (parseUnsigned (2 ^ 32) text.toList).bind fun value =>
    if fits : value < 2 ^ 32 then some ⟨value, fits⟩ else none
  render
    | .integer value => String.ofList (integerText value)
    | _ => ""
  oid_input value := by
    have small : natural (Nat.toDigits 10 value.val) < 2 ^ 32 := by
      rw [natural_toDigits]
      exact value.isLt
    have read := parseUnsigned_digits Nat.toDigits_ne_nil (digit_toDigits value.val) small
    rw [natural_toDigits] at read
    have text : (String.ofList (integerText (value.val : Int))).toList = Nat.toDigits 10 value.val :=
      String.toList_ofList
    simp only [text, read, Option.bind_some, dif_pos value.isLt]

/-- An integer beyond the 53 bits in an array, a moment without a zone, and a missing
JSON value. -/
theorem unsafe_array_lost :
    ¬ Survives sampleFormats false .int8Array (some [some ⟨9007199254740993, by decide⟩]) ∧
      ¬ Survives sampleFormats false .timestamp (some ()) ∧
      ¬ Survives sampleFormats false (.json .jsonb) none := by
  refine ⟨fun survives => ?_, fun survives => (survives_some_iff .timestamp _).mp survives,
    fun survives => (survives_none_iff (.json .jsonb)).mp survives⟩
  have kept := (survives_some_iff .int8Array _).mp survives
  obtain ⟨_, _, small⟩ := kept [⟨9007199254740993, by decide⟩] rfl _ mem_cons_self
  exact absurd small (by decide)

end

end Usai.Postgres.Codec
