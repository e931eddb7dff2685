import Mathlib.Data.Rat.Floor
import Mathlib.Tactic.Linarith

/-! Binary64 numbers as rationals with the values that are none, and the
rounding of a rational to the nearest of them, ties to even. The two zeros are
one. -/

namespace Usai

inductive Num where
  | finite (value : ℚ)
  | infinity (negative : Bool)
  | nan
  deriving DecidableEq, Repr

namespace Double

def pow2 : ℤ → ℚ
  | .ofNat exponent => ((2 ^ exponent : ℕ) : ℚ)
  | .negSucc exponent => 1 / ((2 ^ (exponent + 1) : ℕ) : ℚ)

def leading (value : ℚ) : ℤ :=
  let estimate : ℤ := Nat.log2 value.num.natAbs - Nat.log2 value.den
  if pow2 estimate ≤ |value| then estimate else estimate - 1

/-- The distance of the numbers around a value: 53 binary digits are kept, down
to the least exponent. -/
def spacing (value : ℚ) : ℚ := pow2 (max (leading value - 52) (-1074))

def roundEven (value : ℚ) : ℤ :=
  let rest := value - ⌊value⌋
  if rest < 1 / 2 then ⌊value⌋
  else if 1 / 2 < rest then ⌊value⌋ + 1
  else if ⌊value⌋ % 2 = 0 then ⌊value⌋
  else ⌊value⌋ + 1

def ofRat (value : ℚ) : Num :=
  let rounded := roundEven (value / spacing value) * spacing value
  if pow2 1024 ≤ |rounded| then .infinity (value < 0) else .finite rounded

def scale (factor : ℕ) : Num → Num
  | .finite value => ofRat (value * factor)
  | .infinity negative => .infinity negative
  | .nan => .nan

def add : Num → Num → Num
  | .finite first, .finite second => ofRat (first + second)
  | .nan, _ | _, .nan => .nan
  | .infinity first, .infinity second => if first = second then .infinity first else .nan
  | .infinity negative, .finite _ | .finite _, .infinity negative => .infinity negative

def mul : Num → Num → Num
  | .finite first, .finite second => ofRat (first * second)
  | .nan, _ | _, .nan => .nan
  | .infinity first, .infinity second => .infinity (first != second)
  | .infinity negative, .finite value | .finite value, .infinity negative =>
    if value = 0 then .nan else .infinity (negative != (value < 0))

def div : Num → Num → Num
  | .finite first, .finite second =>
    if second ≠ 0 then ofRat (first / second)
    else if first = 0 then .nan else .infinity (first < 0)
  | .nan, _ | _, .nan | .infinity _, .infinity _ => .nan
  | .finite _, .infinity _ => .finite 0
  | .infinity negative, .finite value => .infinity (negative != (value < 0))

def ceil : Num → Num
  | .finite value => .finite ⌈value⌉
  | value => value

def less : Num → Num → Bool
  | .finite first, .finite second => first < second
  | .infinity negative, .finite _ => negative
  | .finite _, .infinity negative => !negative
  | .infinity first, .infinity second => first && !second
  | .nan, _ | _, .nan => false

theorem roundEven_intCast (value : ℤ) : roundEven value = value := by
  have rest : (value : ℚ) - value < 1 / 2 := by
    rw [sub_self]
    exact one_half_pos
  exact if_pos rest

theorem spacing_natCast {value : ℕ} (small : value < 2 ^ 52) :
    ∃ parts : ℕ, 0 < parts ∧ spacing value = 1 / parts := by
  have bits : Nat.log2 value < 52 := by
    by_cases zero : value = 0
    · rw [zero]
      decide
    · exact (Nat.log2_lt zero).mpr small
  have first : leading value < 52 := by
    simp only [leading, Rat.num_natCast, Rat.den_natCast, Int.natAbs_natCast]
    split_ifs <;> omega
  have below : max (leading value - 52) (-1074) < 0 := max_lt (by omega) (by decide)
  obtain ⟨exponent, same⟩ := Int.eq_negSucc_of_lt_zero below
  rw [spacing, same]
  exact ⟨2 ^ (exponent + 1), Nat.two_pow_pos _, rfl⟩

theorem pow2_large : (2 : ℚ) ^ 54 ≤ pow2 1024 := by
  have large (exponent : ℕ) (long : 54 ≤ exponent) : (2 : ℚ) ^ 54 ≤ pow2 exponent := by
    simpa [pow2] using pow_le_pow_right₀ (one_le_two : (1 : ℚ) ≤ 2) long
  exact large 1024 (by decide)

theorem ofRat_natCast {value : ℕ} (small : value < 2 ^ 52) : ofRat value = .finite value := by
  obtain ⟨parts, positive, spaced⟩ := spacing_natCast small
  have nonzero : (parts : ℚ) ≠ 0 := Nat.cast_ne_zero.mpr positive.ne'
  have digits : (value : ℚ) / (1 / parts) = ((value * parts : ℕ) : ℤ) := by
    rw [div_div_eq_mul_div, div_one, Int.cast_natCast, Nat.cast_mul]
  have again : (((value * parts : ℕ) : ℤ) : ℚ) * (1 / parts) = value := by
    rw [Int.cast_natCast, Nat.cast_mul, mul_one_div, mul_div_cancel_right₀ _ nonzero]
  have bounded : |(value : ℚ)| < pow2 1024 := by
    have below : (value : ℚ) < 2 ^ 52 := by exact_mod_cast small
    rw [abs_of_nonneg (Nat.cast_nonneg value)]
    linarith [pow2_large]
  simp only [ofRat, spaced, digits, roundEven_intCast, again]
  exact if_neg (not_le.mpr bounded)

theorem roundEven_near (value : ℚ) : |roundEven value - value| ≤ 1 / 2 := by
  have below := Int.floor_le value
  have above := Int.lt_floor_add_one value
  unfold roundEven
  rw [abs_le]
  dsimp only
  split_ifs <;> push_cast <;> constructor <;> linarith

theorem pow2_le {exponent : ℤ} {digits : ℕ} (below : exponent ≤ -digits) :
    pow2 exponent ≤ 1 / 2 ^ digits := by
  cases exponent with
  | ofNat exponent =>
    obtain ⟨rfl, rfl⟩ : exponent = 0 ∧ digits = 0 := by
      rw [Int.ofNat_eq_natCast] at below
      omega
    simp [pow2]
  | negSucc exponent =>
    have power : (2 : ℚ) ^ digits ≤ 2 ^ (exponent + 1) :=
      pow_le_pow_right₀ one_le_two (by omega)
    simpa [pow2] using one_div_le_one_div_of_le (by positivity) power

theorem leading_lt {value : ℚ} {exponent : ℕ} (nonneg : 0 ≤ value) (small : value < 2 ^ exponent) :
    leading value < exponent := by
  have whole : value.num.natAbs < 2 ^ exponent * value.den := by
    have scaled : (value.num.natAbs : ℚ) < 2 ^ exponent * value.den := by
      rw [Nat.cast_natAbs, abs_of_nonneg (Rat.num_nonneg.mpr nonneg)]
      rwa [← div_lt_iff₀ (by exact_mod_cast value.pos), Rat.num_div_den]
    exact_mod_cast scaled
  have bits : Nat.log2 value.num.natAbs < exponent + (Nat.log2 value.den + 1) := by
    by_cases zero : value.num.natAbs = 0
    · rw [zero, Nat.log2_zero]
      omega
    · rw [Nat.log2_lt zero, pow_add]
      exact whole.trans (Nat.mul_lt_mul_of_pos_left Nat.lt_log2_self (Nat.two_pow_pos _))
  unfold leading
  dsimp only
  split_ifs with reached
  · refine lt_of_le_of_ne (by omega) fun same => ?_
    rw [same, abs_of_nonneg nonneg] at reached
    exact not_le.mpr small (by simpa [pow2] using reached)
  · omega

/-- What is less than a power of two is rounded by at most half of the last of the 53
digits below that power. -/
theorem ofRat_near {value : ℚ} {exponent digits : ℕ} (parts : exponent + digits = 53)
    (nonneg : 0 ≤ value) (small : value < 2 ^ exponent) :
    ∃ rounded, ofRat value = .finite rounded ∧ 0 ≤ rounded ∧
      |rounded - value| ≤ 1 / 2 ^ (digits + 1) := by
  have first := leading_lt nonneg small
  have positive : 0 < spacing value := by
    unfold spacing pow2
    split <;> positivity
  have fine : spacing value ≤ 1 / 2 ^ digits := pow2_le (max_le (by omega) (by omega))
  have near := roundEven_near (value / spacing value)
  have error : |roundEven (value / spacing value) * spacing value - value| ≤ 1 / 2 ^ (digits + 1) :=
    calc |roundEven (value / spacing value) * spacing value - value|
        = |roundEven (value / spacing value) - value / spacing value| * spacing value := by
          rw [← abs_of_pos positive, ← abs_mul, abs_of_pos positive, sub_mul,
            div_mul_cancel₀ _ positive.ne']
      _ ≤ 1 / 2 * (1 / 2 ^ digits) := mul_le_mul near fine positive.le (by norm_num)
      _ = 1 / 2 ^ (digits + 1) := by rw [pow_succ', ← one_div_mul_one_div_rev, mul_comm]
  have lower : 0 ≤ roundEven (value / spacing value) := by
    have quotient : 0 ≤ value / spacing value := div_nonneg nonneg positive.le
    have above : (-1 : ℚ) < roundEven (value / spacing value) := by
      linarith [(abs_le.mp near).1]
    exact_mod_cast above
  have rounded : (0 : ℚ) ≤ roundEven (value / spacing value) * spacing value :=
    mul_nonneg (by exact_mod_cast lower) positive.le
  have bounded : |roundEven (value / spacing value) * spacing value| < pow2 1024 := by
    have half : (1 : ℚ) / 2 ^ (digits + 1) ≤ 1 := by
      rw [div_le_one (by positivity)]
      exact one_le_pow₀ one_le_two
    have wide : (2 : ℚ) ^ exponent ≤ 2 ^ 53 := pow_le_pow_right₀ one_le_two (by omega)
    rw [abs_of_nonneg rounded]
    linarith [(abs_le.mp error).2, pow2_large]
  exact ⟨_, if_neg (not_le.mpr bounded), rounded, error⟩

end Double

end Usai
