import Usai.Manifest.Fidelity

/-! How long a sleep is: from the duration that a handler names through `parseDurationMs`
(`context.ts`), which reads what `parseDuration` reads, and `setTimeout` (`guest-bridge.js`) to
the `timer` operation of the host (`host_ops.rs`). -/

namespace Usai.Execution

open Manifest

/-- `Number(ms) | 0`: the integer part modulo 2^32, with a sign. -/
def toInt32 : Num → ℤ
  | .finite value => (if 0 ≤ value then ⌊value⌋ else ⌈value⌉).bmod (2 ^ 32)
  | .infinity _ | .nan => 0

def timerPayload (ms : Num) : List Char := Text.integerText (max 0 (toInt32 ms))

def timerMs (payload : List Char) : ℕ :=
  (Text.parseUnsigned (2 ^ 64) (Text.trim Text.unicodeSpace payload)).getD 0

def sleep (stringify : Stringify) (duration : Duration) : Except String ℕ :=
  (parseDuration stringify duration).map fun ms => timerMs (timerPayload ms)

def timerDone (askedAt ms now : ℕ) : Prop :=
  if ms = 0 then askedAt ≤ now else askedAt + ms * 10 ^ 6 ≤ now

/-- The amount is rounded when it is read and again when it is multiplied, and the product
is not below what was asked for. -/
def Kept (ms : ℕ) : Duration → Prop
  | .number _ => True
  | .text text => ∀ amount factor, Duration.scan text = some (amount, factor) →
      ∃ read product, Double.ofRat amount = .finite read ∧
        Double.ofRat (read * factor) = .finite product ∧ (ms : ℚ) ≤ product

theorem toInt32_lt (ms : Num) : toInt32 ms < 2 ^ 31 := by
  cases ms with
  | finite => exact lt_of_lt_of_le (Int.bmod_lt (by decide)) (by decide)
  | infinity | nan => exact Int.pow_pos (by decide)

theorem timerMs_timerPayload (ms : Num) : (timerMs (timerPayload ms) : ℤ) = max 0 (toInt32 ms) := by
  have bounded := toInt32_lt ms
  obtain ⟨asked, same⟩ := Int.eq_ofNat_of_zero_le (le_max_left 0 (toInt32 ms))
  have fits : Text.natural (Nat.toDigits 10 asked) < 2 ^ 64 := by
    rw [Text.natural_toDigits]
    omega
  have read := Text.parseUnsigned_digits Nat.toDigits_ne_nil (Text.digit_toDigits asked) fits
  rw [timerMs, timerPayload, same, Text.trim_eq_self (Text.ink_of_integerText asked),
    show Text.integerText asked = Nat.toDigits 10 asked from rfl, read, Text.natural_toDigits]
  rfl

theorem le_timerMs_iff {ms : ℕ} {value : ℚ} (small : ms < 2 ^ 31) (nonneg : 0 ≤ value)
    (near : value < ms + 1) : ms ≤ timerMs (timerPayload (.finite value)) ↔ (ms : ℚ) ≤ value := by
  have floor : ⌊value⌋ ≤ ms := Int.le_of_lt_add_one (Int.floor_lt.mpr (by exact_mod_cast near))
  have positive : 0 ≤ ⌊value⌋ := Int.floor_nonneg.mpr nonneg
  have kept : max 0 (toInt32 (.finite value)) = ⌊value⌋ := by
    simp only [toInt32, nonneg, if_true]
    rw [Int.bmod_eq_of_le (by omega) (by omega)]
    exact max_eq_right positive
  rw [← Int.ofNat_le, timerMs_timerPayload, kept, Int.le_floor]
  simp

theorem scan_bounds (scanned : Duration.scan text = some (amount, factor)) :
    0 ≤ amount ∧ 1 ≤ factor ∧ factor ≤ 3600000 := by
  obtain ⟨_, scanned⟩ := Option.ite_none_left_eq_some.mp scanned
  obtain ⟨unit, named, same⟩ := Option.map_eq_some_iff.mp scanned
  cases same
  refine ⟨by positivity, ?_⟩
  unfold Duration.factor at named
  split at named <;> cases named <;> decide

theorem rounded_near {amount : ℚ} {factor ms : ℕ} (nonneg : 0 ≤ amount) (unit : 1 ≤ factor)
    (bound : factor ≤ 3600000) (product : amount * factor = ms) (small : ms < 2 ^ 31) :
    ∃ read value, Double.ofRat amount = .finite read ∧ Double.ofRat (read * factor) = .finite value ∧
      0 ≤ value ∧ value < ms + 1 := by
  have one : (1 : ℚ) ≤ factor := by exact_mod_cast unit
  have most : (factor : ℚ) ≤ 3600000 := by exact_mod_cast bound
  have below : (ms : ℚ) < 2 ^ 31 := by exact_mod_cast small
  have less : amount ≤ ms := product ▸ le_mul_of_one_le_right nonneg one
  obtain ⟨read, reads, positive, near⟩ :=
    Double.ofRat_near (show 31 + 22 = 53 from rfl) nonneg (less.trans_lt below)
  have scaled : read * factor ≤ ms + 1 / 2 ^ 23 * 3600000 :=
    calc read * factor ≤ (amount + 1 / 2 ^ 23) * factor :=
          mul_le_mul_of_nonneg_right (by linarith [(abs_le.mp near).2]) (by linarith)
      _ = ms + 1 / 2 ^ 23 * factor := by rw [add_mul, product]
      _ ≤ ms + 1 / 2 ^ 23 * 3600000 := by linarith
  obtain ⟨value, rounds, least, close⟩ := Double.ofRat_near (show 32 + 21 = 53 from rfl)
    (mul_nonneg positive (zero_le_one.trans one)) (by linarith)
  exact ⟨read, value, reads, rounds, least, by linarith [(abs_le.mp close).2]⟩

theorem convert_eq {amount read value : ℚ} {factor ms : ℕ} (product : amount * factor = ms)
    (small : ms < 2 ^ 31) (reads : Double.ofRat amount = .finite read)
    (rounds : Double.ofRat (read * factor) = .finite value) :
    Duration.convert amount factor = .finite value := by
  unfold Duration.convert
  split
  · next single =>
    -- a whole number of milliseconds is rounded to itself, once and twice
    have exact : Double.ofRat ms = .finite ms := Double.ofRat_natCast (by omega)
    rw [single, Nat.cast_one, mul_one] at product rounds
    rw [product] at reads ⊢
    cases reads.symm.trans exact
    exact rounds
  · rw [reads]
    exact rounds

theorem timer_full_iff {ms asked : ℕ} :
    (ms ≤ asked ∧ ∀ called askedAt now, called ≤ askedAt → timerDone askedAt asked now →
      called + ms * 10 ^ 6 ≤ now) ↔ ms ≤ asked := by
  refine and_iff_left_of_imp ?_
  intro enough called askedAt now after done
  unfold timerDone at done
  split at done <;> omega

/-- A duration is asked for in full, and the timer does not complete before it has passed
since the call, exactly if it is of less than 2^31 milliseconds and the binary64 product of
its amount and its unit is not below it. -/
theorem sleep_not_short (stringify : Stringify) {duration : Duration} {ms : ℕ}
    (denotes : duration.milliseconds = some ms) :
    (∃ asked, sleep stringify duration = .ok asked ∧ ms ≤ asked ∧
      ∀ called askedAt now, called ≤ askedAt → timerDone askedAt asked now →
        called + ms * 10 ^ 6 ≤ now) ↔ ms < 2 ^ 31 ∧ Kept ms duration := by
  have asks {num : Num} (parsed : parseDuration stringify duration = .ok num) :
      (∃ asked, sleep stringify duration = .ok asked ∧ ms ≤ asked ∧
        ∀ called askedAt now, called ≤ askedAt → timerDone askedAt asked now →
          called + ms * 10 ^ 6 ≤ now) ↔
        ms < 2 ^ 31 ∧ ms ≤ timerMs (timerPayload num) := by
    have bounded := toInt32_lt num
    have asked := timerMs_timerPayload num
    simp only [sleep, parsed, Except.map, Except.ok.injEq, exists_eq_left', timer_full_iff]
    omega
  cases duration with
  | number value =>
    cases value with
    | finite =>
      obtain ⟨rfl, _⟩ := Json.unsigned_eq_some_iff.mp denotes
      refine (asks rfl).trans (and_congr_right fun small => ?_)
      exact (le_timerMs_iff small (Nat.cast_nonneg ms) (lt_add_one _)).trans (iff_of_true le_rfl trivial)
    | infinity => cases denotes
    | nan => cases denotes
  | text text =>
    obtain ⟨⟨amount, factor⟩, scanned, whole⟩ := Option.bind_eq_some_iff.mp denotes
    have product : amount * factor = ms := (Json.unsigned_eq_some_iff.mp whole).1
    have parsed : parseDuration stringify (.text text) = .ok (Duration.convert amount factor) := by
      rw [parseDuration, scanned]
    refine (asks parsed).trans (and_congr_right fun small => ?_)
    obtain ⟨nonneg, unit, bound⟩ := scan_bounds scanned
    obtain ⟨read, value, reads, rounds, least, near⟩ := rounded_near nonneg unit bound product small
    rw [convert_eq product small reads rounds, le_timerMs_iff small least near]
    constructor
    · intro enough amount' factor' scanned'
      cases scanned.symm.trans scanned'
      exact ⟨read, value, reads, rounds, enough⟩
    · intro kept
      obtain ⟨_, _, reads', rounds', enough⟩ := kept amount factor scanned
      cases reads.symm.trans reads'
      cases rounds.symm.trans rounds'
      exact enough

theorem sleep_not_short_fraction : ∃ asked, sleep .plain (.text "2.3s") = .ok asked ∧ 2300 ≤ asked ∧
    ∀ called askedAt now, called ≤ askedAt → timerDone askedAt asked now →
      called + 2300 * 10 ^ 6 ≤ now := by
  have scanned : Duration.scan "2.3s" = some (23 / 10, 1000) := by decide +kernel
  refine (sleep_not_short .plain (by decide +kernel)).mpr ⟨by decide, ?_⟩
  intro amount factor same
  cases scanned.symm.trans same
  exact ⟨2589569785738035 / 1125899906842624, 2300, by decide +kernel, by decide +kernel, le_rfl⟩

/-- Six weeks are no time at all, and a second and a millisecond lose the millisecond. -/
theorem sleep_short :
    (Duration.text "1000h").milliseconds = some 3600000000 ∧ sleep .plain (.text "1000h") = .ok 0 ∧
      (Duration.text "1.001s").milliseconds = some 1001 ∧
      sleep .plain (.text "1.001s") = .ok 1000 := by
  decide +kernel

end Usai.Execution
