import Usai.Double
import Usai.Text

/-! The numeric texts of ECMAScript: the number that a text denotes, and the
binary64 number that `Number` makes of it. -/

namespace Usai.Numeral

open List Option Text

def digitValue (char : Char) : Option Nat :=
  if '0' ≤ char ∧ char ≤ '9' then some (char.toNat - '0'.toNat)
  else if 'a' ≤ char ∧ char ≤ 'f' then some (char.toNat - 'a'.toNat + 10)
  else if 'A' ≤ char ∧ char ≤ 'F' then some (char.toNat - 'A'.toNat + 10)
  else none

def digitOf (base : Nat) (char : Char) : Bool := (digitValue char).any (· < base)

def based (base : Nat) (digits : List Char) : Option ℚ :=
  if digits ≠ [] ∧ digits.all (digitOf base) = true then
    some (digits.foldl (fun value char => value * base + (digitValue char).getD 0) 0 : Nat)
  else none

def radix : List Char → Option (Nat × List Char)
  | '0' :: mark :: digits =>
    if mark = 'x' ∨ mark = 'X' then some (16, digits)
    else if mark = 'o' ∨ mark = 'O' then some (8, digits)
    else if mark = 'b' ∨ mark = 'B' then some (2, digits)
    else none
  | _ => none

def power (digits : List Char) : Option ℤ :=
  if digits ≠ [] ∧ digits.all digit = true then some (natural digits) else none

def exponent : List Char → Option ℤ
  | [] => some 0
  | mark :: rest =>
    if mark = 'e' ∨ mark = 'E' then
      match rest with
      | '+' :: digits => power digits
      | '-' :: digits => (power digits).map (- ·)
      | digits => power digits
    else none

def fraction : List Char → List Char × List Char
  | '.' :: rest => (rest.takeWhile digit, rest.dropWhile digit)
  | rest => ([], rest)

def decimal (text : List Char) : Option Num :=
  if text = "Infinity".toList then some (.infinity false)
  else
    let whole := text.takeWhile digit
    let parts := fraction (text.dropWhile digit)
    if whole = [] ∧ parts.1 = [] then none
    else (exponent parts.2).map (fun exponent =>
      .finite (natural (whole ++ parts.1) * (10 : ℚ) ^ (exponent - (parts.1.length : ℤ))))

def negate : Num → Num
  | .finite value => .finite (-value)
  | .infinity negative => .infinity (!negative)
  | .nan => .nan

def signed : List Char → Option Num
  | '+' :: rest => decimal rest
  | '-' :: rest => (decimal rest).map negate
  | rest => decimal rest

/-- The number that a text denotes, with all its digits. -/
def denoted (text : List Char) : Option Num :=
  let text := trim scriptSpace text
  if text = [] then some (.finite 0)
  else
    match radix text with
    | some (base, digits) => (based base digits).map .finite
    | none => signed text

def number (text : List Char) : Num :=
  match denoted text with
  | some (.finite value) => Double.ofRat value
  | some (.infinity negative) => .infinity negative
  | some .nan | none => .nan

def isInteger : Num → Bool
  | .finite value => value.den = 1
  | .infinity _ | .nan => false

example : number "0x1F".toList = .finite 31 := by decide +kernel
example : number " -1.5e1\n".toList = .finite (-15) := by decide +kernel
example : number "9007199254740993".toList = .finite 9007199254740992 := by decide +kernel

variable {char : Char}

section

theorem digit_bounds (decimal : digit char = true) :
    48 ≤ char.toNat ∧ char.toNat ≤ 57 :=
  of_decide_eq_true decimal

variable {digits : List Char}

theorem decimal_digits (written : digits ≠ []) (all : ∀ char ∈ digits, digit char = true) :
    decimal digits = some (.finite (natural digits)) := by
  have whole : digits.takeWhile digit = digits := takeWhile_eq_self_iff.mpr all
  have rest : digits.dropWhile digit = [] := dropWhile_eq_nil_iff.mpr all
  have number : digits ≠ "Infinity".toList := by
    rintro rfl
    exact absurd (all 'I' (by decide)) (by decide)
  rw [decimal, if_neg number]
  simp only [whole, rest, fraction, exponent, map_some, append_nil, length_nil]
  rw [if_neg (fun none => written none.1)]
  simp

theorem radix_digits (all : ∀ char ∈ digits, digit char = true) :
    radix digits = none := by
  unfold radix
  split
  · next mark rest =>
    have bounds := digit_bounds (all mark (by simp))
    have differs (letter : Char) (large : 57 < letter.toNat) : mark ≠ letter := by
      rintro rfl
      omega
    simp [differs 'x' (by decide), differs 'X' (by decide), differs 'o' (by decide),
      differs 'O' (by decide), differs 'b' (by decide), differs 'B' (by decide)]
  · rfl

theorem signed_digits (all : ∀ char ∈ digits, digit char = true) :
    signed digits = decimal digits := by
  unfold signed
  split
  · exact absurd (all '+' mem_cons_self) (by decide)
  · exact absurd (all '-' mem_cons_self) (by decide)
  · rfl

theorem ink_of_parseSigned {text : List Char} (parsed : (parseSigned text).isSome = true) :
    ∀ char ∈ text, scriptSpace char = false := by
  obtain ⟨_, read⟩ := isSome_iff_exists.mp parsed
  obtain ⟨digits, _, all, form⟩ := parseSigned_cases read
  have ink : ∀ char ∈ digits, scriptSpace char = false := by
    intro char member
    have bounds := digit_bounds (all char member)
    simp only [scriptSpace, mem_cons, not_mem_nil, or_false, decide_eq_false_iff_not]
    omega
  rcases form with ⟨rfl, _⟩ | ⟨rfl, _⟩ | ⟨rfl, _⟩
  · exact ink
  · exact forall_mem_cons.mpr ⟨by decide, ink⟩
  · exact forall_mem_cons.mpr ⟨by decide, ink⟩

theorem denoted_of_parseSigned {text : List Char} {value : ℤ}
    (parsed : parseSigned text = some value) : denoted text = some (.finite value) := by
  have ink := ink_of_parseSigned (isSome_iff_exists.mpr ⟨value, parsed⟩)
  obtain ⟨_, written, all, form⟩ := parseSigned_cases parsed
  simp only [denoted, trim_eq_self ink]
  rcases form with ⟨rfl, rfl⟩ | ⟨rfl, rfl⟩ | ⟨rfl, rfl⟩
  · rw [if_neg written, radix_digits all, signed_digits all]
    exact decimal_digits written all
  · exact decimal_digits written all
  · simp only [radix, signed, decimal_digits written all]
    simp [negate]

end

section

def plain (char : Char) : Prop := scriptSpace char = true ∨ char.toNat < 128

theorem plain_of_digit (decimal : digit char = true) : plain char := by
  have bounds := digit_bounds decimal
  exact .inr (by omega)

theorem plain_of_digitOf {base : Nat} (valued : digitOf base char = true) :
    plain char := by
  unfold digitOf digitValue at valued
  split at valued
  · next bounds => exact plain_of_digit (decide_eq_true bounds)
  · split at valued
    · next bounds => exact .inr (Nat.lt_of_le_of_lt bounds.2 (by decide))
    · split at valued
      · next bounds => exact .inr (Nat.lt_of_le_of_lt bounds.2 (by decide))
      · cases valued

theorem plain_power {digits : List Char} {value : ℤ} (read : power digits = some value) :
    ∀ char ∈ digits, plain char := by
  obtain ⟨form, read⟩ := ite_none_right_eq_some.mp read
  intro char member
  exact plain_of_digit (all_eq_true.mp form.2 char member)

variable {value : Num} {text : List Char}

theorem plain_exponent {value : ℤ} (read : exponent text = some value) :
    ∀ char ∈ text, plain char := by
  cases text with
  | nil => nofun
  | cons =>
    obtain ⟨letter, read⟩ := ite_none_right_eq_some.mp read
    refine forall_mem_cons.mpr ⟨?_, ?_⟩
    · rcases letter with rfl | rfl
      · exact .inr (by decide)
      · exact .inr (by decide)
    · split at read
      · exact forall_mem_cons.mpr ⟨.inr (by decide), plain_power read⟩
      · obtain ⟨_, read, _⟩ := map_eq_some_iff.mp read
        exact forall_mem_cons.mpr ⟨.inr (by decide), plain_power read⟩
      · exact plain_power read

theorem plain_digits (rest : ∀ char ∈ text.dropWhile digit, plain char) :
    ∀ char ∈ text, plain char := by
  intro char member
  rw [← takeWhile_append_dropWhile (p := digit) (l := text), mem_append] at member
  rcases member with member | member
  · exact plain_of_digit (mem_takeWhile_imp member)
  · exact rest char member

theorem plain_fraction (rest : ∀ char ∈ (fraction text).2, plain char) :
    ∀ char ∈ text, plain char := by
  unfold fraction at rest
  split at rest
  · exact forall_mem_cons.mpr ⟨.inr (by decide), plain_digits rest⟩
  · exact rest

theorem plain_decimal (read : decimal text = some value) :
    ∀ char ∈ text, plain char := by
  simp only [decimal] at read
  split at read
  · next infinity =>
    rw [infinity]
    intro char member
    have small : "Infinity".toList.all (fun char => char.toNat < 128) = true := by decide
    exact .inr (of_decide_eq_true (all_eq_true.mp small char member))
  · split at read
    · cases read
    · obtain ⟨_, read, _⟩ := map_eq_some_iff.mp read
      exact plain_digits (plain_fraction (plain_exponent read))

theorem plain_signed (read : signed text = some value) :
    ∀ char ∈ text, plain char := by
  unfold signed at read
  split at read
  · exact forall_mem_cons.mpr ⟨.inr (by decide), plain_decimal read⟩
  · obtain ⟨_, read, _⟩ := map_eq_some_iff.mp read
    exact forall_mem_cons.mpr ⟨.inr (by decide), plain_decimal read⟩
  · exact plain_decimal read

theorem plain_radix {digits : List Char} {base : Nat}
    (announced : radix text = some (base, digits)) (all : ∀ char ∈ digits, plain char) :
    ∀ char ∈ text, plain char := by
  unfold radix at announced
  split at announced
  · next mark rest =>
    have letter (lower upper : Char) (small : lower.toNat < 128 ∧ upper.toNat < 128)
        (same : mark = lower ∨ mark = upper) : plain mark := by
      rcases same with rfl | rfl
      · exact .inr small.1
      · exact .inr small.2
    have marked : plain mark ∧ rest = digits := by
      split at announced
      · next same =>
        cases announced
        exact ⟨letter 'x' 'X' (by decide) same, rfl⟩
      · split at announced
        · next same =>
          cases announced
          exact ⟨letter 'o' 'O' (by decide) same, rfl⟩
        · obtain ⟨same, announced⟩ := ite_none_right_eq_some.mp announced
          cases announced
          exact ⟨letter 'b' 'B' (by decide) same, rfl⟩
    obtain ⟨marked, rfl⟩ := marked
    exact forall_mem_cons.mpr ⟨.inr (by decide), forall_mem_cons.mpr ⟨marked, all⟩⟩
  · cases announced

theorem denoted_plain (read : denoted text = some value) :
    ∀ char ∈ text, plain char := by
  have inside : ∀ char ∈ trim scriptSpace text, plain char := by
    simp only [denoted] at read
    split at read
    · next empty =>
      rw [empty]
      nofun
    · split at read
      · next base digits announced =>
        refine plain_radix announced ?_
        unfold based at read
        split at read
        · next form =>
          intro char member
          exact plain_of_digitOf (all_eq_true.mp form.2 char member)
        · cases read
      · exact plain_signed read
  intro char member
  by_cases blank : scriptSpace char = true
  · exact .inl blank
  · exact inside char (mem_trim member (Bool.eq_false_iff.mpr blank))

end

end Usai.Numeral
