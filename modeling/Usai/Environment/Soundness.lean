import Usai.Environment.Activate
import Usai.Fallible

/-! When a world can read an environment that the host has accepted, with the
integers that its texts denote. -/

namespace Usai.Environment

open Fallible List Option Text

namespace Field

/-- Every integer among the values that a handler sees is the one that its text
denotes. -/
def Exact : Field → Raw → Value → Prop
  | .int, raw, value => ∃ chars, ∃ integer : ℤ, raw = .text chars ∧
      Numeral.denoted chars = some (.finite integer) ∧ value = .number (.finite integer)
  | .list inner separator, raw, value => ∃ pieces items,
      raw.split (separator.getD [',']) = .ok pieces ∧ value = .list items ∧
        List.Forall₂ (fun piece item => inner.Exact piece.trim item) pieces items
  | .group _ inner, raw, value | .optional inner, raw, value => inner.Exact raw value
  | .string, _, _ | .url, _, _ | .secret, _, _ | .bool, _, _ | .enum _, _, _ | .cidr, _, _ => True

def Reads : Field → Raw → Prop
  | .string, _ | .url, _ | .secret, _ => True
  | .int, raw => ∃ chars, ∃ integer : ℤ, raw = .text chars ∧
      Numeral.denoted chars = some (.finite integer) ∧ Double.ofRat integer = .finite integer
  | .bool, raw => ∃ chars ∈ ["true".toList, "false".toList, "1".toList, "0".toList],
      raw = .text chars
  | .enum values, raw => ∃ chars ∈ values, raw = .text chars
  | .cidr, raw => ∃ chars, raw = .text chars ∧ chars.count '/' = 1
  | .list inner separator, raw => ∃ pieces, raw.split (separator.getD [',']) = .ok pieces ∧
      ∀ piece ∈ pieces, piece.trim ≠ .text [] ∧ inner.Reads piece.trim
  | .group _ inner, raw | .optional inner, raw => inner.Reads raw

def base : Field → Field
  | .group _ inner | .optional inner => inner.base
  | field => field

/-- The host is told how to cut a list and of which kind its items are:
`optional` drops both. -/
def itemized : Field → Bool
  | .list _ _ => true
  | .group _ inner => inner.itemized
  | _ => false

def textual (field : Field) : Bool :=
  field.base = .string ∨ field.base = .url ∨ field.base = .secret

end Field

def Integral (text : List Char) : Prop :=
  ∀ integer, parseSigned text = some integer → Double.ofRat integer = .finite integer

/-- What has to hold of an item that the host has checked. The host cuts off the
blanks of Unicode, the SDK those of ECMAScript. The items of a list within a list
are not checked. -/
def ItemSound (inner : Field) (item : List Char) : Prop :=
  match inner.base with
  | .string | .url | .secret => ∃ char ∈ item, scriptSpace char = false
  | .int => nextLine ∉ item ∧ Integral (trim unicodeSpace item)
  | .bool => nextLine ∉ item
  | .enum values => trim scriptSpace item ≠ [] ∧ trim scriptSpace item ∈ values
  | .list inner separator => trim scriptSpace item ≠ [] ∧
      (Field.list inner separator).Reads (.text (trim scriptSpace item))
  | .cidr | .group _ _ | .optional _ => True

def Field.Sound (field : Field) (text : List Char) : Prop :=
  match field.base with
  | .int => Integral text
  | .list inner separator =>
    if field.itemized then ∀ item ∈ split (separator.getD [',']) text, ItemSound inner item
    else (Field.list inner separator).Reads (.text text)
  | _ => True

section

variable (quote : Raw → String)

theorem number_eq (denotes : Numeral.denoted chars = some (.finite integer)) :
    Raw.number (.text chars) = Double.ofRat integer := by
  rw [Raw.number, Numeral.number, denotes]

theorem isInteger_intCast (integer : ℤ) : Numeral.isInteger (.finite integer) = true := by
  simp [Numeral.isInteger]

theorem int_reads_iff (raw : Raw) :
    (∃ value, (int quote).parse raw = .ok value ∧ Field.int.Exact raw value) ↔
      Field.int.Reads raw := by
  constructor
  · intro ⟨value, parsed, chars, integer, same, denotes, seen⟩
    subst same seen
    refine ⟨chars, integer, rfl, denotes, ?_⟩
    simp only [int, field] at parsed
    split at parsed
    · rw [← number_eq denotes]
      exact Value.number.inj (Except.ok.inj parsed)
    · cases parsed
  · intro ⟨chars, integer, same, denotes, kept⟩
    subst same
    refine ⟨.number (.finite integer), ?_, chars, integer, rfl, denotes, rfl⟩
    simp only [int, field, number_eq denotes, kept, isInteger_intCast, if_true]

theorem bool_reads_iff (raw : Raw) :
    (∃ value, (bool quote).parse raw = .ok value ∧ Field.bool.Exact raw value) ↔
      Field.bool.Reads raw := by
  simp only [Field.Exact, and_true, Field.Reads, mem_cons, not_mem_nil, or_false]
  constructor
  · intro ⟨value, parsed⟩
    simp only [bool, field] at parsed
    split at parsed
    · next yes => grind
    · split at parsed
      · next no => grind
      · cases parsed
  · rintro ⟨_, (rfl | rfl | rfl | rfl), rfl⟩
    · exact ⟨.flag true, rfl⟩
    · exact ⟨.flag false, rfl⟩
    · exact ⟨.flag true, rfl⟩
    · exact ⟨.flag false, rfl⟩

theorem enum_reads_iff (values : List (List Char)) (raw : Raw) :
    (∃ value, (enum quote values).parse raw = .ok value ∧ (Field.enum values).Exact raw value) ↔
      (Field.enum values).Reads raw := by
  simp only [Field.Exact, and_true, Field.Reads, enum, field]
  constructor
  · intro ⟨value, parsed⟩
    split at parsed
    · next member =>
      obtain ⟨chars, listed, same⟩ := mem_map.mp member
      exact ⟨chars, listed, same.symm⟩
    · cases parsed
  · rintro ⟨chars, listed, rfl⟩
    refine ⟨.raw (.text chars), ?_⟩
    rw [if_pos (mem_map_of_mem listed)]

theorem cidr_reads_iff (raw : Raw) :
    (∃ value, (cidr quote).parse raw = .ok value ∧ Field.cidr.Exact raw value) ↔
      Field.cidr.Reads raw := by
  simp only [Field.Exact, and_true, Field.Reads]
  cases raw with
  | half | method => exact iff_of_false (by nofun) (by nofun)
  | text chars =>
    have pieces : ((Text.split ['/'] chars).map Raw.text).length = 2 ↔ chars.count '/' = 1 := by
      rw [length_map, length_split_singleton]
      omega
    constructor
    · intro ⟨value, parsed⟩
      refine ⟨chars, rfl, pieces.mp ?_⟩
      by_contra other
      have refused : (cidr quote).parse (.text chars) = .error _ := if_neg other
      cases refused.symm.trans parsed
    · intro ⟨_, same, once⟩
      cases same
      exact ⟨.raw (.text chars), if_pos (pieces.mpr once)⟩

theorem parseItems_iff (inner : EnvField) (exact : Raw → Value → Prop) (index : Nat)
    (items : List Raw) :
    (∃ values, parseItems quote inner.parse index items = .ok values ∧
        List.Forall₂ (fun item value => exact item.trim value) items values) ↔
      ∀ item ∈ items, item.trim ≠ .text [] ∧
        ∃ value, inner.parse item.trim = .ok value ∧ exact item.trim value := by
  induction items generalizing index with
  | nil => exact iff_of_true ⟨[], rfl, .nil⟩ (by nofun)
  | cons item items step =>
    rw [forall_mem_cons, ← step (index + 1)]
    constructor
    · intro ⟨values, parsed, exacts⟩
      obtain ⟨written, parsed⟩ := ok_of_ite_error parsed
      cases read : inner.parse item.trim with
      | error =>
        rw [read] at parsed
        cases parsed
      | ok value =>
        rw [read] at parsed
        cases others : parseItems quote inner.parse (index + 1) items with
        | error =>
          rw [others] at parsed
          cases parsed
        | ok rest =>
          rw [others] at parsed
          cases parsed
          cases exacts with
          | cons first more => exact ⟨⟨written, value, rfl, first⟩, rest, rfl, more⟩
    · intro ⟨⟨written, value, read, first⟩, rest, others, more⟩
      refine ⟨value :: rest, ?_, .cons first more⟩
      simp only [parseItems, if_neg written, read, others, Except.map]

theorem list_parse {inner : EnvField} {separator : Option (List Char)} {raw : Raw}
    {pieces : List Raw} (cut : raw.split (separator.getD [',']) = .ok pieces) :
    (list quote inner separator).parse raw =
      (parseItems quote inner.parse 0 pieces).map Value.list := by
  have parse : (list quote inner separator).parse raw =
      (raw.split (separator.getD [','])).bind (fun items =>
        (parseItems quote inner.parse 0 items).bind (fun values => .ok (.list values))) := rfl
  rw [parse, cut]
  simp only [Except.bind]
  cases parseItems quote inner.parse 0 pieces <;> rfl

theorem reads_iff (field : Field) (raw : Raw) :
    (∃ value, (field.build quote).parse raw = .ok value ∧ field.Exact raw value) ↔
      field.Reads raw := by
  induction field generalizing raw with
  | string | url | secret => exact iff_of_true ⟨_, rfl, trivial⟩ trivial
  | int => exact int_reads_iff quote raw
  | bool => exact bool_reads_iff quote raw
  | enum values => exact enum_reads_iff quote values raw
  | cidr => exact cidr_reads_iff quote raw
  | group _ _ step => exact step raw
  | optional _ step => exact step raw
  | list inner _ step =>
    have items (pieces : List Raw) := parseItems_iff quote (inner.build quote) inner.Exact 0 pieces
    simp only [step] at items
    constructor
    · intro ⟨value, parsed, pieces, values, cut, same, exacts⟩
      subst same
      refine ⟨pieces, cut, (items pieces).mp ⟨values, ?_, exacts⟩⟩
      rw [Field.build, list_parse quote cut] at parsed
      cases others : parseItems quote (inner.build quote).parse 0 pieces with
      | error =>
        rw [others] at parsed
        cases parsed
      | ok =>
        rw [others] at parsed
        cases parsed
        rfl
    · intro ⟨pieces, cut, reads⟩
      obtain ⟨values, parsed, exacts⟩ := (items pieces).mpr reads
      refine ⟨.list values, ?_, pieces, values, cut, rfl, exacts⟩
      rw [Field.build, list_parse quote cut, parsed]
      rfl

end

section

variable (quote : Raw → String) {library : Library}

variable {values : List (List Char)} {text item : List Char} {inner : Field}
  {separator : Option (List Char)}

theorem itemsProblem_eq_none (fine : itemsProblem library kind values index items = none) :
    ∀ item ∈ items, trim unicodeSpace item ≠ [] ∧
      valueProblem library kind (trim unicodeSpace item) values = none := by
  induction items generalizing index with
  | nil => nofun
  | cons _ _ step =>
    simp only [itemsProblem] at fine
    split at fine
    · cases fine
    · next written =>
      split at fine
      · cases fine
      · next checked => exact forall_mem_cons.mpr ⟨⟨written, checked⟩, step fine⟩

theorem valueProblem_int
    (fine : valueProblem library .int text values = none) : (parseSigned text).isSome = true := by
  by_contra other
  rw [valueProblem, if_neg other] at fine
  cases fine

theorem valueProblem_bool (fine : valueProblem library .bool text values = none) :
    text ∈ ["true".toList, "false".toList, "1".toList, "0".toList] := by
  by_contra other
  rw [valueProblem, if_neg other] at fine
  cases fine

theorem valueProblem_enum
    (fine : valueProblem library .enum text values = none) : text ∈ values := by
  by_contra other
  rw [valueProblem, if_neg other] at fine
  cases fine

theorem slash_of_parseUnsigned (parsed : parseUnsigned bound text = some value) : '/' ∉ text := by
  obtain ⟨digits, _, all, _, form⟩ := parseUnsigned_cases parsed
  intro member
  have slash : '/' ∉ digits := by
    intro member
    exact absurd (all '/' member) (by decide)
  rcases form with rfl | rfl
  · exact slash member
  · rcases mem_cons.mp member with same | member
    · exact absurd same (by decide)
    · exact slash member

theorem cidrProblem_eq_none (fine : cidrProblem library value = none) :
    value.count '/' = 1 := by
  unfold cidrProblem at fine
  split at fine
  · cases fine
  · next address length found =>
    split at fine
    · cases fine
    · cases parsed : parseUnsigned 256 length with
      | some => exact count_of_splitOnce found (slash_of_parseUnsigned parsed)
      | none =>
        simp only [parsed] at fine
        cases fine

theorem int_sound (parsed : (parseSigned text).isSome = true) :
    Field.int.Reads (.text text) ↔ Integral text := by
  obtain ⟨integer, read⟩ := isSome_iff_exists.mp parsed
  have denotes := Numeral.denoted_of_parseSigned read
  constructor
  · intro ⟨_, other, same, again, kept⟩ number found
    cases same
    cases read.symm.trans found
    have equal : (other : ℚ) = integer := by
      injection again.symm.trans denotes with equal
      injection equal
    rw [equal] at kept
    exact kept
  · intro integral
    exact ⟨text, integer, rfl, denotes, integral integer read⟩

theorem trim_same (absent : nextLine ∉ item)
    (ink : ∀ char ∈ trim unicodeSpace item, scriptSpace char = false) :
    trim scriptSpace item = trim unicodeSpace item := by
  obtain ⟨left, right, parts, before, after⟩ := trim_parts unicodeSpace item
  have whole : trim scriptSpace item =
      trim scriptSpace (left ++ trim unicodeSpace item ++ right) := congrArg _ parts
  rw [parts] at absent
  rw [whole]
  refine trim_append ?_ ?_ ink
  · intro char member
    refine scriptSpace_of_unicodeSpace (before char member) ?_
    rintro rfl
    exact absent (mem_append_left _ (mem_append_left _ member))
  · intro char member
    refine scriptSpace_of_unicodeSpace (after char member) ?_
    rintro rfl
    exact absent (mem_append_right _ member)

theorem absent_of_trim (absent : nextLine ∉ trim scriptSpace item) :
    nextLine ∉ item := by
  intro member
  exact absent (mem_trim member (by decide))

theorem reads_base (field : Field) (raw : Raw) : field.base.Reads raw ↔ field.Reads raw := by
  induction field with
  | group _ _ step => exact step
  | optional _ step => exact step
  | _ => exact Iff.rfl

theorem build_base (field : Field) :
    (field.build quote).kind = (field.base.build quote).kind ∧
      (field.build quote).values = (field.base.build quote).values := by
  induction field with
  | group _ _ step => exact step
  | optional _ step => exact step
  | _ => exact ⟨rfl, rfl⟩

theorem base_unwrapped (field : Field) :
    (∀ name inner, field.base ≠ .group name inner) ∧ ∀ inner, field.base ≠ .optional inner := by
  induction field with
  | group _ _ step => exact step
  | optional _ step => exact step
  | _ => exact ⟨(by nofun), (by nofun)⟩

theorem int_item (written : trim unicodeSpace item ≠ [])
    (fine : valueProblem library .int (trim unicodeSpace item) [] = none) :
    trim scriptSpace item ≠ [] ∧ Field.int.Reads (.text (trim scriptSpace item)) ↔
      nextLine ∉ item ∧ Integral (trim unicodeSpace item) := by
  have parsed := valueProblem_int fine
  have alike (absent : nextLine ∉ item) : trim scriptSpace item = trim unicodeSpace item :=
    trim_same absent (Numeral.ink_of_parseSigned parsed)
  constructor
  · intro ⟨_, reads⟩
    have absent : nextLine ∉ item := by
      obtain ⟨_, _, same, denotes, _⟩ := id reads
      cases same
      refine absent_of_trim (fun member => ?_)
      exact absurd (Numeral.denoted_plain denotes nextLine member) (by unfold Numeral.plain; decide)
    rw [alike absent, int_sound parsed] at reads
    exact ⟨absent, reads⟩
  · intro ⟨absent, integral⟩
    rw [alike absent]
    exact ⟨written, (int_sound parsed).mpr integral⟩

theorem bool_item (written : trim unicodeSpace item ≠ [])
    (fine : valueProblem library .bool (trim unicodeSpace item) [] = none) :
    trim scriptSpace item ≠ [] ∧ Field.bool.Reads (.text (trim scriptSpace item)) ↔
      nextLine ∉ item := by
  have listed := valueProblem_bool fine
  have ink : ∀ word ∈ ["true".toList, "false".toList, "1".toList, "0".toList],
      word.all (fun char => !scriptSpace char) = true := by decide
  have other : ∀ word ∈ ["true".toList, "false".toList, "1".toList, "0".toList],
      nextLine ∉ word := by decide
  constructor
  · intro ⟨_, word, member, same⟩
    cases same
    exact absent_of_trim (other _ member)
  · intro absent
    have clear : ∀ char ∈ trim unicodeSpace item, scriptSpace char = false := by
      intro char member
      simpa only [Bool.not_eq_true'] using all_eq_true.mp (ink _ listed) char member
    rw [trim_same absent clear]
    exact ⟨written, _, listed, rfl⟩

theorem cidr_item (fine : valueProblem library .cidr (trim unicodeSpace item) [] = none) :
    trim scriptSpace item ≠ [] ∧ Field.cidr.Reads (.text (trim scriptSpace item)) := by
  have once : (trim scriptSpace item).count '/' = 1 := by
    have slash := cidrProblem_eq_none fine
    rw [count_trim (by decide)] at slash ⊢
    exact slash
  refine ⟨?_, _, rfl, once⟩
  intro empty
  rw [empty] at once
  cases once

theorem item_sound (written : trim unicodeSpace item ≠ [])
    (fine : valueProblem library (inner.build quote).kind (trim unicodeSpace item)
      ((inner.build quote).values.getD []) = none) :
    (trim scriptSpace item ≠ [] ∧ inner.Reads (.text (trim scriptSpace item))) ↔
      ItemSound inner item := by
  rw [← reads_base inner]
  rw [(build_base quote inner).1, (build_base quote inner).2] at fine
  unfold ItemSound
  cases same : inner.base with
  | string | url | secret =>
    simp only [Field.Reads, and_true, ne_eq, trim_eq_nil_iff, not_forall, exists_prop,
      Bool.not_eq_true]
  | int =>
    rw [same] at fine
    exact int_item written fine
  | bool =>
    rw [same] at fine
    exact bool_item written fine
  | enum => simp only [Field.Reads, Raw.text.injEq, exists_eq_right']
  | cidr =>
    rw [same] at fine
    exact iff_of_true (cidr_item fine) trivial
  | list => exact Iff.rfl
  | group name wrapped => exact absurd same ((base_unwrapped inner).1 name wrapped)
  | optional wrapped => exact absurd same ((base_unwrapped inner).2 wrapped)

theorem build_itemized {field : Field}
    (itemized : field.itemized = true) (same : field.base = .list inner separator) :
    (field.build quote).items = some (inner.build quote).kind ∧
      (field.build quote).separator = some (separator.getD [',']) := by
  induction field with
  | list =>
    cases same
    exact ⟨rfl, rfl⟩
  | group _ _ step => exact step itemized same
  | _ => cases itemized

theorem list_sound
    (fine : itemsProblem library (inner.build quote).kind ((inner.build quote).values.getD []) 0
      (pieces (separator.getD [',']) text) = none) :
    (Field.list inner separator).Reads (.text text) ↔
      ∀ item ∈ split (separator.getD [',']) text, ItemSound inner item := by
  have checked := itemsProblem_eq_none fine
  have cuts : separator.getD [','] ≠ [] := by
    intro empty
    rw [empty, pieces, if_pos rfl, forall_mem_cons] at checked
    exact checked.1.1 rfl
  rw [pieces, if_neg cuts] at checked
  simp only [Field.Reads, Raw.split, if_neg cuts, Except.ok.injEq, exists_eq_left',
    List.forall_mem_map, Raw.trim, ne_eq, Raw.text.injEq]
  refine forall_congr' (fun item => forall_congr' (fun member => ?_))
  exact item_sound quote (checked item member).1 (checked item member).2

theorem field_sound {field : Field}
    (valid : validateEnv library (describe (name, field.build quote)) text = .ok ()) :
    field.Reads (.text text) ↔ field.Sound text := by
  rw [validateEnv_eq_ok_iff] at valid
  simp only [describe, (build_base quote field).1, (build_base quote field).2] at valid
  rw [← reads_base field, Field.Sound]
  cases same : field.base with
  | string | url | secret => exact Iff.rfl
  | int =>
    rw [same] at valid
    exact int_sound (valueProblem_int valid)
  | bool =>
    rw [same] at valid
    exact iff_of_true ⟨text, valueProblem_bool valid, rfl⟩ trivial
  | enum =>
    rw [same] at valid
    exact iff_of_true ⟨text, valueProblem_enum valid, rfl⟩ trivial
  | cidr =>
    rw [same] at valid
    exact iff_of_true ⟨text, rfl, cidrProblem_eq_none valid⟩ trivial
  | list =>
    rw [same] at valid
    cases itemized : field.itemized with
    | true =>
      obtain ⟨items, cut⟩ := build_itemized quote itemized same
      rw [items, cut] at valid
      exact list_sound quote valid
    | false => exact Iff.rfl
  | group name wrapped => exact absurd same ((base_unwrapped field).1 name wrapped)
  | optional wrapped => exact absurd same ((base_unwrapped field).2 wrapped)

end

section

variable (quote : Raw → String) {library : Library} {assigned : String → Option (List Char)}
  {env : FiniteMap String (List Char)}

def build (field : String × Field) : String × EnvField := (field.1, field.2.build quote)

/-- The condition on a variable of the declaration: a text that is set is read
without loss, and a variable that is not set has not the name of a method that
objects inherit, or takes anything. -/
def Kept (assigned : String → Option (List Char)) (field : String × Field) : Prop :=
  match given assigned field.1 with
  | some text => field.2.Sound text
  | none => field.1 ∈ objectMethods → field.2.textual = true

def Seen (assigned : String → Option (List Char)) (field : String × Field)
    (value : Option Value) : Prop :=
  ∀ text ∈ given assigned field.1, ∃ seen, value = some seen ∧ field.2.Exact (.text text) seen

theorem parse_base (field : Field) :
    (field.build quote).parse = (field.base.build quote).parse := by
  induction field with
  | group _ _ step => exact step
  | optional _ step => exact step
  | _ => rfl

theorem parse_method (field : Field) :
    (∃ value, (field.build quote).parse .method = .ok value) ↔ field.textual = true := by
  rw [parse_base, Field.textual, decide_eq_true_iff]
  cases same : field.base with
  | string => exact iff_of_true ⟨_, rfl⟩ (.inl rfl)
  | url => exact iff_of_true ⟨_, rfl⟩ (.inr (.inl rfl))
  | secret => exact iff_of_true ⟨_, rfl⟩ (.inr (.inr rfl))
  | int | bool | cidr | list => exact iff_of_false (by nofun) (by simp)
  | enum =>
    simp [Field.build, enum, Environment.field]
  | group name wrapped => exact absurd same ((base_unwrapped field).1 name wrapped)
  | optional wrapped => exact absurd same ((base_unwrapped field).2 wrapped)

variable {field : String × Field}

section

variable (accepted : Accepted library assigned env (describe (build quote field)))
include accepted

theorem resolve_given {text : List Char} (found : given assigned field.1 = some text) :
    (∃ value, resolve field.1 (field.2.build quote) (property env field.1) = .ok value ∧
        Seen assigned field value) ↔ field.2.Sound text := by
  have bound : env.lookup field.1 = some text := accepted.bound.trans found
  have written : text ≠ [] := of_decide_eq_true (filter_eq_some_iff.mp found).2
  have parse : resolve field.1 (field.2.build quote) (property env field.1) =
      ((field.2.build quote).parse (.text text)).map some := by
    rw [property, bound]
    cases text with
    | nil => exact absurd rfl written
    | cons => rfl
  rw [parse, map_ok_iff, ← field_sound quote (accepted.valid text found), ← reads_iff quote]
  simp only [Seen, found, mem_some_iff, forall_eq', some.injEq, exists_eq_left']

theorem resolve_absent (absent : given assigned field.1 = none) :
    (∃ value, resolve field.1 (field.2.build quote) (property env field.1) = .ok value ∧
        Seen assigned field value) ↔ (field.1 ∈ objectMethods → field.2.textual = true) := by
  have unbound : env.lookup field.1 = none := accepted.bound.trans absent
  have optional : (field.2.build quote).required = false := accepted.present absent
  have unseen (value : Option Value) : Seen assigned field value := by
    intro text found
    cases absent.symm.trans found
  by_cases inherited : field.1 ∈ objectMethods
  · have parse : resolve field.1 (field.2.build quote) (property env field.1) =
        ((field.2.build quote).parse .method).map some := by
      rw [property, unbound]
      simp only [if_pos inherited]
      rfl
    rw [parse, map_ok_iff, ← parse_method quote]
    simp only [unseen, and_true, inherited, true_implies]
  · have nothing : resolve field.1 (field.2.build quote) (property env field.1) = .ok none := by
      rw [property, unbound]
      simp only [if_neg inherited, resolve, optional]
      rfl
    exact iff_of_true ⟨none, nothing, unseen none⟩ (fun member => absurd member inherited)

theorem resolve_iff :
    (∃ value, resolve field.1 (field.2.build quote) (property env field.1) = .ok value ∧
        Seen assigned field value) ↔ Kept assigned field := by
  unfold Kept
  split
  · next text found => exact resolve_given quote accepted found
  · next absent => exact resolve_absent quote accepted absent

end

theorem resolveEnv_iff
    (accepted : ∀ field ∈ fields, Accepted library assigned env (describe (build quote field))) :
    (∃ values, resolveEnv (property env) (fields.map (build quote)) = .ok values ∧
        List.Forall₂ (fun field entry => Seen assigned field entry.2) fields values) ↔
      ∀ field ∈ fields, Kept assigned field := by
  induction fields with
  | nil => exact iff_of_true ⟨[], rfl, .nil⟩ (by nofun)
  | cons field _ step =>
    rw [forall_mem_cons] at accepted ⊢
    rw [← step accepted.2, ← resolve_iff quote accepted.1]
    constructor
    · intro ⟨values, resolved, seen⟩
      obtain ⟨value, first, resolved⟩ := bind_ok_cases resolved
      obtain ⟨rest, others, same⟩ := bind_ok_cases resolved
      cases same
      cases seen with
      | cons head tail => exact ⟨⟨value, first, head⟩, rest, others, tail⟩
    · intro ⟨⟨value, first, head⟩, rest, others, tail⟩
      refine ⟨(field.1, value) :: rest, ?_, .cons head tail⟩
      simp only [map_cons, build, resolveEnv] at first others ⊢
      rw [first, others]
      rfl

/-- Whenever the host accepts the environment, for the fields that `describe`
wrote, a world resolves it without a throw and with the integers its texts denote
just when every variable meets the condition. -/
theorem accepted_environment_resolves (quote : Raw → String) (library : Library)
    (fields : List (String × Field)) (assigned : String → Option (List Char))
    (env : FiniteMap String (List Char))
    (activated : bind library assigned ((merged (fields.map (build quote))).map describe) =
      .ok env) :
    (∃ values, resolveEnv (property env) (merged (fields.map (build quote))) = .ok values ∧
        List.Forall₂ (fun field entry => Seen assigned field entry.2)
          (fields.filter (fun field => field.1 ≠ "__proto__")) values) ↔
      ∀ field ∈ fields, field.1 ≠ "__proto__" → Kept assigned field := by
  have named : merged (fields.map (build quote)) =
      (fields.filter (fun field => field.1 ≠ "__proto__")).map (build quote) := filter_map
  rw [named] at activated ⊢
  rw [resolveEnv_iff quote]
  · simp only [mem_filter, decide_eq_true_eq, and_imp]
  · intro field member
    exact bind_accepted activated _ (mem_map_of_mem (mem_map_of_mem member))

end

def silent : Raw → String := fun _ => ""

def bare : Library := ⟨fun _ => "", fun _ => .error ""⟩

def only (name : String) (text : String) : String → Option (List Char) :=
  fun other => if other = name then some text.toList else none

theorem accepted_environment_resolves_port :
    (∃ values, resolveEnv (property (AList.insert "PORT" "8080".toList ∅))
        (merged ([("PORT", Field.int)].map (build silent))) = .ok values ∧
      List.Forall₂ (fun field entry => Seen (only "PORT" "8080") field entry.2)
        ([("PORT", Field.int)].filter (fun field => field.1 ≠ "__proto__")) values) := by
  refine (accepted_environment_resolves silent bare [("PORT", .int)] (only "PORT" "8080") _
    rfl).mpr ?_
  intro field member _
  cases mem_singleton.mp member
  intro integer parsed
  cases parsed
  decide +kernel

/-- The host does not check the items of an optional list of integers, and the
world throws at the second; and an integer of 64 bits is another one in the
world. -/
theorem accepted_environment_misread :
    (bind bare (only "LIMITS" "1,two")
          ((merged ([("LIMITS", Field.optional (.list .int none))].map (build silent))).map describe) =
        .ok (AList.insert "LIMITS" "1,two".toList ∅) ∧
      (resolveEnv (property (AList.insert "LIMITS" "1,two".toList ∅))
        (merged ([("LIMITS", Field.optional (.list .int none))].map (build silent)))).isOk = false) ∧
    bind bare (only "LIMIT" "9007199254740993")
          ((merged ([("LIMIT", Field.int)].map (build silent))).map describe) =
        .ok (AList.insert "LIMIT" "9007199254740993".toList ∅) ∧
      resolveEnv (property (AList.insert "LIMIT" "9007199254740993".toList ∅))
          (merged ([("LIMIT", Field.int)].map (build silent))) =
        .ok [("LIMIT", some (.number (.finite 9007199254740992)))] := by
  have rounded : (Raw.text "9007199254740993".toList).number = .finite 9007199254740992 := by
    decide +kernel
  have parsed : (int silent).parse (.text "9007199254740993".toList) =
      .ok (.number (.finite 9007199254740992)) := by
    simp only [int, field, rounded]
    rfl
  refine ⟨⟨rfl, (by decide +kernel)⟩, rfl, ?_⟩
  have resolved : resolve "LIMIT" (int silent) (some (.text "9007199254740993".toList)) =
      .ok (some (.number (.finite 9007199254740992))) := by
    rw [resolve, parsed]
    · rfl
    · nofun
  exact congrArg (fun result => result.bind (fun value => .ok [("LIMIT", value)])) resolved

end Usai.Environment
