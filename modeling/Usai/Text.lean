import Mathlib.Data.Int.NatAbs
import Mathlib.Data.List.TakeWhile

/-! Texts as lists of characters: blanks and what is left without them, decimal
digits, and the cutting of a text at a separator; and the names that are taken in
every object. -/

namespace Usai.Text

open List Option

def objectMethods : List String :=
  ["constructor", "__defineGetter__", "__defineSetter__", "hasOwnProperty", "__lookupGetter__",
    "__lookupSetter__", "isPrototypeOf", "propertyIsEnumerable", "toString", "valueOf",
    "toLocaleString"]

def scriptSpace (char : Char) : Bool :=
  char.toNat ∈ [0x9, 0xA, 0xB, 0xC, 0xD, 0x20, 0xA0, 0x1680, 0x2028, 0x2029, 0x202F, 0x205F, 0x3000,
    0xFEFF] ∨ (0x2000 ≤ char.toNat ∧ char.toNat ≤ 0x200A)

def unicodeSpace (char : Char) : Bool :=
  char.toNat ∈ [0x9, 0xA, 0xB, 0xC, 0xD, 0x20, 0x85, 0xA0, 0x1680, 0x2028, 0x2029, 0x202F, 0x205F,
    0x3000] ∨ (0x2000 ≤ char.toNat ∧ char.toNat ≤ 0x200A)

def nextLine : Char := Char.ofNat 0x85

def toAsciiLowercase (text : String) : String := String.ofList (text.toList.map Char.toLower)

variable {char : Char} {text : List Char}

theorem scriptSpace_of_unicodeSpace (blank : unicodeSpace char = true)
    (other : char ≠ nextLine) : scriptSpace char = true := by
  have differs : char.toNat ≠ 0x85 := by
    intro same
    exact other (Char.ext (UInt32.toNat_inj.mp same))
  simp only [unicodeSpace, scriptSpace, mem_cons, not_mem_nil, or_false,
    decide_eq_true_eq] at blank ⊢
  omega

theorem toNat_ofNat_byte (byte : UInt8) : (Char.ofNat byte.toNat).toNat = byte.toNat := by
  have valid : byte.toNat.isValidChar := by
    have small := byte.toNat_lt
    omega
  rw [Char.ofNat, dif_pos valid]
  rfl

def trim (space : Char → Bool) (text : List Char) : List Char :=
  ((text.dropWhile space).reverse.dropWhile space).reverse

section

variable {space : Char → Bool} {text left right : List Char}

theorem trim_parts (space : Char → Bool) (text : List Char) :
    ∃ left right, text = left ++ trim space text ++ right ∧
      (∀ char ∈ left, space char = true) ∧ ∀ char ∈ right, space char = true := by
  refine ⟨text.takeWhile space, ((text.dropWhile space).reverse.takeWhile space).reverse, ?_, ?_, ?_⟩
  · rw [trim, append_assoc, ← reverse_append, takeWhile_append_dropWhile,
      reverse_reverse, takeWhile_append_dropWhile]
  · intro char member
    exact mem_takeWhile_imp member
  · intro char member
    exact mem_takeWhile_imp (mem_reverse.mp member)

theorem mem_trim (member : char ∈ text) (ink : space char = false) :
    char ∈ trim space text := by
  obtain ⟨_, _, parts, before, after⟩ := trim_parts space text
  rw [parts, mem_append, mem_append] at member
  rcases member with (member | member) | member
  · rw [before char member] at ink
    cases ink
  · exact member
  · rw [after char member] at ink
    cases ink

theorem trim_eq_nil_iff : trim space text = [] ↔ ∀ char ∈ text, space char = true := by
  constructor
  · intro nothing char member
    by_contra ink
    have kept := mem_trim member (Bool.eq_false_iff.mpr ink)
    rw [nothing] at kept
    cases kept
  · intro blank
    rw [trim, dropWhile_eq_nil_iff.mpr blank]
    rfl

theorem dropWhile_ink (ink : ∀ char ∈ text, space char = false)
    (after : ∀ char ∈ right, space char = true) :
    (text ++ right).dropWhile space = text ++ right ∨
      text = [] ∧ (text ++ right).dropWhile space = [] := by
  cases text with
  | nil => exact .inr ⟨rfl, dropWhile_eq_nil_iff.mpr after⟩
  | cons =>
    rw [forall_mem_cons] at ink
    exact .inl (dropWhile_cons_of_neg (Bool.eq_false_iff.mp ink.1))

theorem trim_append (before : ∀ char ∈ left, space char = true)
    (after : ∀ char ∈ right, space char = true) (ink : ∀ char ∈ text, space char = false) :
    trim space (left ++ text ++ right) = text := by
  have behind : ∀ char ∈ right.reverse, space char = true := by
    intro char member
    exact after char (mem_reverse.mp member)
  have turned : ∀ char ∈ text.reverse, space char = false := by
    intro char member
    exact ink char (mem_reverse.mp member)
  rw [trim, append_assoc, dropWhile_append_of_pos before]
  rcases dropWhile_ink ink after with kept | ⟨rfl, none⟩
  · rw [kept, reverse_append, dropWhile_append_of_pos behind]
    rcases dropWhile_ink turned (fun _ absent => absurd absent not_mem_nil) with
      kept | ⟨nothing, _⟩
    · rw [append_nil] at kept
      rw [kept, reverse_reverse]
    · rw [nothing]
      exact (reverse_eq_nil_iff.mp nothing).symm
  · rw [none]
    rfl

theorem trim_eq_self (ink : ∀ char ∈ text, space char = false) : trim space text = text := by
  have around : trim space ([] ++ text ++ []) = text := trim_append (by nofun) (by nofun) ink
  rw [append_nil] at around
  exact around

theorem count_trim (ink : space char = false) (text : List Char) :
    (trim space text).count char = text.count char := by
  obtain ⟨left, right, parts, before, after⟩ := trim_parts space text
  have absent (blanks : List Char) (blank : ∀ char ∈ blanks, space char = true) :
      blanks.count char = 0 := by
    rw [count_eq_zero]
    intro member
    rw [blank char member] at ink
    cases ink
  have whole : text.count char = (left ++ trim space text ++ right).count char :=
    congrArg (count char) parts
  rw [count_append, count_append, absent left before, absent right after] at whole
  omega

end

def digit (char : Char) : Bool := '0' ≤ char ∧ char ≤ '9'

def natural (digits : List Char) : Nat :=
  digits.foldl (fun value char => value * 10 + (char.toNat - '0'.toNat)) 0

/-- What the standard library of Rust reads as an unsigned integer below the
bound: digits, after one plus sign at most. -/
def parseUnsigned (bound : Nat) (text : List Char) : Option Nat :=
  let digits := match text with
    | '+' :: rest => rest
    | _ => text
  if digits ≠ [] ∧ digits.all digit = true ∧ natural digits < bound then some (natural digits)
  else none

theorem parseUnsigned_cases {bound value : Nat} (parsed : parseUnsigned bound text = some value) :
    ∃ digits, digits ≠ [] ∧ (∀ char ∈ digits, digit char = true) ∧ value = natural digits ∧
      (text = digits ∨ text = '+' :: digits) := by
  simp only [parseUnsigned] at parsed
  generalize signless : (match text with
    | '+' :: rest => rest
    | _ => text) = digits at parsed
  obtain ⟨form, rfl⟩ := ite_some_none_eq_some.mp parsed
  refine ⟨digits, form.1, all_eq_true.mp form.2.1, rfl, ?_⟩
  split at signless
  · exact .inr (congrArg ('+' :: ·) signless)
  · exact .inl signless

def parseSigned (text : List Char) : Option Int :=
  match text with
  | '-' :: digits =>
    if digits ≠ [] ∧ digits.all digit = true ∧ natural digits ≤ 2 ^ 63 then
      some (-(natural digits : Int))
    else none
  | _ => (parseUnsigned (2 ^ 63) text).map Int.ofNat

theorem parseSigned_cases {value : Int} (parsed : parseSigned text = some value) :
    ∃ digits, digits ≠ [] ∧ (∀ char ∈ digits, digit char = true) ∧
      (text = digits ∧ value = natural digits ∨ text = '+' :: digits ∧ value = natural digits ∨
        text = '-' :: digits ∧ value = -(natural digits : Int)) := by
  unfold parseSigned at parsed
  split at parsed
  · next digits =>
    obtain ⟨form, rfl⟩ := ite_some_none_eq_some.mp parsed
    exact ⟨digits, form.1, all_eq_true.mp form.2.1, .inr (.inr ⟨rfl, rfl⟩)⟩
  · obtain ⟨_, read, rfl⟩ := map_eq_some_iff.mp parsed
    obtain ⟨digits, written, all, rfl, form⟩ := parseUnsigned_cases read
    refine ⟨digits, written, all, ?_⟩
    rcases form with form | form
    · exact .inl ⟨form, rfl⟩
    · exact .inr (.inl ⟨form, rfl⟩)

theorem natural_toDigits (value : Nat) : natural (Nat.toDigits 10 value) = value := by
  have same : natural (Nat.toDigits 10 value) = Nat.ofDigitChars 10 (Nat.toDigits 10 value) 0 := by
    simp only [natural, Nat.ofDigitChars, Nat.mul_comm]
  rw [same, Nat.ofDigitChars_ten_toDigits]

theorem digit_of_isDigit (decimal : char.isDigit = true) : digit char = true := by
  simpa [Char.isDigit, digit, Char.le_def] using decimal

theorem digit_toDigits (value : Nat) : ∀ char ∈ Nat.toDigits 10 value, digit char = true :=
  fun _ member => digit_of_isDigit
    (Nat.isDigit_of_mem_toDigits (by decide) (by decide) member)

def integerText : Int → List Char
  | .ofNat value => Nat.toDigits 10 value
  | .negSucc value => '-' :: Nat.toDigits 10 (value + 1)

theorem ink_of_integerText (value : Int) : ∀ char ∈ integerText value, unicodeSpace char = false := by
  have ink : ∀ char, digit char = true → unicodeSpace char = false := by
    intro char decimal
    have range : 48 ≤ char.toNat ∧ char.toNat ≤ 57 := by
      simpa [digit, Char.le_def, UInt32.le_iff_toNat_le] using decimal
    simp only [unicodeSpace, mem_cons, not_mem_nil, or_false, decide_eq_false_iff_not]
    omega
  intro char member
  cases value with
  | ofNat value => exact ink char (digit_toDigits value char member)
  | negSucc value =>
    rcases mem_cons.mp member with rfl | member
    · decide
    · exact ink char (digit_toDigits (value + 1) char member)

theorem parseUnsigned_digits {bound : Nat} {digits : List Char} (written : digits ≠ [])
    (all : ∀ char ∈ digits, digit char = true) (fits : natural digits < bound) :
    parseUnsigned bound digits = some (natural digits) := by
  cases digits with
  | nil => exact absurd rfl written
  | cons char _ =>
    have plus : char ≠ '+' := by
      rintro rfl
      exact absurd (all '+' mem_cons_self) (by decide)
    simp only [parseUnsigned]
    split
    · rename_i same
      exact absurd (cons.inj same).1 plus
    · exact if_pos ⟨written, all_eq_true.mpr all, fits⟩

theorem parseSigned_integerText {value : Int} (fits : -2 ^ 63 ≤ value ∧ value < 2 ^ 63) :
    parseSigned (integerText value) = some value := by
  cases value with
  | ofNat value =>
    have small : natural (Nat.toDigits 10 value) < 2 ^ 63 := by
      rw [natural_toDigits]
      exact Int.ofNat_lt.mp fits.2
    have read := parseUnsigned_digits Nat.toDigits_ne_nil (digit_toDigits value) small
    rw [natural_toDigits] at read
    rw [integerText]
    unfold parseSigned
    split
    · rename_i digits minus
      have member : '-' ∈ Nat.toDigits 10 value := by
        rw [minus]
        exact mem_cons_self
      exact absurd (digit_toDigits value '-' member) (by decide)
    · rw [read]
      rfl
  | negSucc value =>
    have small : natural (Nat.toDigits 10 (value + 1)) ≤ 2 ^ 63 := by
      rw [natural_toDigits]
      omega
    have form : Nat.toDigits 10 (value + 1) ≠ [] ∧ (Nat.toDigits 10 (value + 1)).all digit = true ∧
        natural (Nat.toDigits 10 (value + 1)) ≤ 2 ^ 63 :=
      ⟨Nat.toDigits_ne_nil, all_eq_true.mpr (digit_toDigits (value + 1)), small⟩
    rw [integerText, parseSigned, if_pos form, natural_toDigits]
    rfl

/-- The pieces of a text between the occurrences of a separator, found from the
left; so many characters of the one just found are still to be passed. -/
def splitFrom (separator : List Char) : Nat → List Char → List (List Char)
  | _, [] => [[]]
  | skip + 1, _ :: rest => splitFrom separator skip rest
  | 0, char :: rest =>
    if separator.isPrefixOf (char :: rest) then
      [] :: splitFrom separator (separator.length - 1) rest
    else
      match splitFrom separator 0 rest with
      | [] => [[char]]
      | piece :: pieces => (char :: piece) :: pieces

def split (separator text : List Char) : List (List Char) := splitFrom separator 0 text

def splitOnce (char : Char) (text : List Char) : Option (List Char × List Char) :=
  if char ∈ text then
    some (text.takeWhile (· ≠ char), (text.dropWhile (· ≠ char)).tail)
  else none

theorem count_of_splitOnce {before after : List Char}
    (found : splitOnce char text = some (before, after)) (once : char ∉ after) :
    text.count char = 1 := by
  induction text generalizing before with
  | nil => cases found
  | cons head text step =>
    obtain ⟨member, found⟩ := ite_none_right_eq_some.mp found
    cases found
    by_cases same : head = char
    · subst same
      rw [dropWhile_cons_of_neg (by simp), tail_cons] at once
      rw [count_cons_self, count_eq_zero_of_not_mem once]
    · rw [dropWhile_cons_of_pos (by simpa using same)] at once step
      rw [count_cons_of_ne same]
      have later : char ∈ text := (mem_cons.mp member).resolve_left (Ne.symm same)
      exact step (if_pos later)

theorem splitFrom_ne_nil (separator : List Char) (skip : Nat) (text : List Char) :
    splitFrom separator skip text ≠ [] := by
  induction text generalizing skip with
  | nil => exact cons_ne_nil [] []
  | cons _ _ step =>
    cases skip with
    | succ skip => exact step skip
    | zero =>
      rw [splitFrom]
      split
      · exact cons_ne_nil _ _
      · split
        · exact cons_ne_nil _ _
        · exact cons_ne_nil _ _

theorem length_split_singleton (char : Char) (text : List Char) :
    (split [char] text).length = text.count char + 1 := by
  induction text with
  | nil => rfl
  | cons head text step =>
    rw [split] at step
    rw [split, splitFrom]
    by_cases same : char = head
    · subst same
      simp [step]
    · have next : ([char].isPrefixOf (head :: text)) = false := by
        simp [isPrefixOf, same]
      rw [next, count_cons_of_ne (Ne.symm same), ← step]
      cases pieces : splitFrom [char] 0 text with
      | nil => exact absurd pieces (splitFrom_ne_nil [char] 0 text)
      | cons => rfl

end Usai.Text
