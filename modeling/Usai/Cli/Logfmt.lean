import Mathlib.Order.Monotone.Basic
import Mathlib.Tactic.Common

/-! The dates of the log (`usai-cli`, `logfmt.rs`): day numbers as days of the
proleptic Gregorian calendar. -/

namespace Usai.Cli

def monthOf (doy : Nat) : Nat :=
  let mp := (5 * doy + 2) / 153
  if mp < 10 then mp + 3 else mp - 9

def dayOf (doy : Nat) : Nat :=
  let mp := (5 * doy + 2) / 153
  doy - (153 * mp + 2) / 5 + 1

def date (y : Int) (doy : Nat) : Int × Nat × Nat :=
  (if monthOf doy ≤ 2 then y + 1 else y, monthOf doy, dayOf doy)

def yearOfEra (doe : Nat) : Nat := (doe - doe / 1460 + doe / 36524 - doe / 146096) / 365

def daysBefore (yoe : Nat) : Nat := 365 * yoe + yoe / 4 - yoe / 100

/-- Days since the Unix epoch as year, month and day. But for the day number itself
nothing here is negative, so that the division of the source is that of `Nat`. -/
def civilFromDays (z : Int) : Int × Nat × Nat :=
  let z := z + 719468
  let era := z / 146097
  let doe := (z % 146097).toNat
  date (yearOfEra doe + era * 400) (doe - daysBefore (yearOfEra doe))

def leap (year : Int) : Bool :=
  decide (year % 4 = 0 ∧ (year % 100 ≠ 0 ∨ year % 400 = 0))

def monthLength (leap : Bool) (month : Nat) : Nat :=
  if month = 2 then if leap then 29 else 28
  else if month ∈ [4, 6, 9, 11] then 30 else 31

def dayAfter (leap : Bool) : Int × Nat × Nat → Int × Nat × Nat
  | (year, month, day) =>
    if day < monthLength leap month then (year, month, day + 1)
    else if month < 12 then (year, month + 1, 1)
    else (year + 1, 1, 1)

def tomorrow (date : Int × Nat × Nat) : Int × Nat × Nat := dayAfter (leap date.1) date

theorem leap_iff {era : Int} {yoe : Nat} (year : yoe < 400) :
    leap (400 * era + yoe + 1) = true ↔ yoe % 4 = 3 ∧ (yoe % 100 ≠ 99 ∨ yoe = 399) := by
  unfold leap
  rw [decide_eq_true_eq]
  omega

theorem yearOfEra_mono : Monotone yearOfEra :=
  monotone_nat_of_le_succ fun _ => Nat.div_le_div_right (by omega)

theorem yearOfEra_first : ∀ yoe < 400,
    yearOfEra (daysBefore yoe) = yoe ∧ yearOfEra (daysBefore yoe - 1) = yoe - 1 := by
  decide +kernel

/-- The year that the formula finds is the one that the day is in. A year from March
to February has a last day if it ends in a leap year. -/
theorem yearOfEra_spec {doe : Nat} (inside : doe < 146097) : ∃ doy,
    doe = daysBefore (yearOfEra doe) + doy ∧ yearOfEra doe < 400 ∧ (doy < 365 ∨ doy = 365 ∧
      yearOfEra doe % 4 = 3 ∧ (yearOfEra doe % 100 ≠ 99 ∨ yearOfEra doe = 399)) := by
  have year : yearOfEra doe < 400 := (yearOfEra_mono (Nat.le_of_lt_succ inside)).trans_lt (by decide)
  have begun : daysBefore (yearOfEra doe) ≤ doe := by
    by_contra early
    have before := yearOfEra_mono (Nat.le_sub_one_of_lt (not_le.mp early))
    rw [(yearOfEra_first _ year).2] at before
    have first : yearOfEra doe = 0 := by omega
    simp [first, daysBefore] at early
  have unended : yearOfEra doe = 399 ∨ doe < daysBefore (yearOfEra doe + 1) := by
    by_contra late
    have after := yearOfEra_mono (not_lt.mp (not_or.mp late).2)
    rw [(yearOfEra_first _ (by omega)).1] at after
    omega
  refine ⟨doe - daysBefore (yearOfEra doe), by omega, year, ?_⟩
  generalize yearOfEra doe = yoe at *
  have quarter : (yoe + 1) / 4 = yoe / 4 ∨ (yoe + 1) / 4 = yoe / 4 + 1 ∧ yoe % 4 = 3 := by omega
  have century : (yoe + 1) / 100 = yoe / 100 ∨
      (yoe + 1) / 100 = yoe / 100 + 1 ∧ yoe % 100 = 99 := by omega
  unfold daysBefore at *
  omega

structure Reckoned (z era : Int) (yoe doy : Nat) : Prop where
  sum : z + 719468 = 146097 * era + ↑(daysBefore yoe + doy)
  year : yoe < 400
  day : doy < 365 ∨ doy = 365 ∧ leap (400 * era + yoe + 1) = true
  civil : civilFromDays z = date (400 * era + yoe) doy

theorem exists_reckoned (z : Int) : ∃ era yoe doy, Reckoned z era yoe doy := by
  obtain ⟨doe, rest⟩ : ∃ doe, ((z + 719468) % 146097).toNat = doe := ⟨_, rfl⟩
  have era : doe < 146097 := by omega
  obtain ⟨doy, whole, year, inside⟩ := yearOfEra_spec era
  refine ⟨(z + 719468) / 146097, yearOfEra doe, doy, ?_, year, ?_, ?_⟩
  · omega
  · rwa [leap_iff year]
  · have left : doe - daysBefore (yearOfEra doe) = doy := by omega
    simp only [civilFromDays, rest, left]
    rw [Int.add_comm, Int.mul_comm]

theorem dayAfter_year (long : Bool) (year : Int) (doy : Nat) :
    dayAfter long (date year doy) =
      (year + (dayAfter long (date 0 doy)).1, (dayAfter long (date 0 doy)).2) := by
  unfold dayAfter date
  dsimp only
  split_ifs <;> simp [Int.add_assoc]

theorem dayAfter_within (long : Bool) : ∀ doy < 365, (doy = 364 → long = true) →
    dayAfter long (date 0 doy) = date 0 (doy + 1) := by
  cases long <;> decide +kernel

theorem tomorrow_within {year : Int} {doy : Nat} (inside : doy < 365)
    (long : doy = 364 → leap (year + 1) = true) : tomorrow (date year doy) = date year (doy + 1) := by
  have after := dayAfter_within (leap (date year doy).1) doy inside
    (by rintro rfl; exact long rfl)
  rw [tomorrow, dayAfter_year, after]
  unfold date
  split_ifs <;> simp

theorem tomorrow_last {year : Int} {doy : Nat} (last : doy = 364 ∧ leap (year + 1) = false ∨
    doy = 365 ∧ leap (year + 1) = true) : tomorrow (date year doy) = date (year + 1) 0 := by
  rcases last with ⟨rfl, flag⟩ | ⟨rfl, flag⟩
  · show dayAfter (leap (year + 1)) _ = _
    rw [flag]
    rfl
  · show dayAfter (leap (year + 1)) _ = _
    rw [flag]
    rfl

theorem Reckoned.tomorrow {z era later : Int} {yoe doy other day : Nat}
    (here : Reckoned z era yoe doy) (there : Reckoned (z + 1) later other day) :
    civilFromDays (z + 1) = tomorrow (civilFromDays z) := by
  rw [here.civil, there.civil]
  obtain ⟨sum, year, inside, -⟩ := here
  obtain ⟨sum', year', inside', -⟩ := there
  rw [leap_iff year] at inside
  rw [leap_iff year'] at inside'
  unfold daysBefore at sum sum'
  have eras : later = era ∨ later = era + 1 ∧ other = 0 ∧ yoe = 399 ∧ day = 0 ∧ doy = 365 := by
    omega
  rcases eras with rfl | ⟨rfl, rfl, rfl, rfl, rfl⟩
  · have years : other = yoe ∨ other = yoe + 1 := by omega
    rcases years with rfl | rfl
    · obtain rfl : day = doy + 1 := by omega
      refine (tomorrow_within (by omega) fun last => ?_).symm
      exact (leap_iff year).mpr (by omega)
    · obtain rfl : day = 0 := by omega
      rw [Int.natCast_succ, ← Int.add_assoc]
      refine (tomorrow_last ?_).symm
      rw [← Bool.not_eq_true, leap_iff year]
      omega
  · have same : 400 * (era + 1) + ((0 : Nat) : Int) = 400 * era + ((399 : Nat) : Int) + 1 := by omega
    rw [same]
    exact (tomorrow_last (.inr ⟨rfl, (leap_iff year).mpr (by decide)⟩)).symm

theorem date_inside (long : Bool) : ∀ doy < 366, (doy = 365 → long = true) →
    (1 ≤ monthOf doy ∧ monthOf doy ≤ 12) ∧
      1 ≤ dayOf doy ∧ dayOf doy ≤ monthLength long (monthOf doy) := by
  cases long <;> decide +kernel

/-- Day numbers are dates of the proleptic Gregorian calendar: the first one is the
first of January 1970, and the next one is always the next day. -/
theorem civil_dates (z : Int) :
    civilFromDays 0 = (1970, 1, 1) ∧ civilFromDays (z + 1) = tomorrow (civilFromDays z) ∧
      (1 ≤ (civilFromDays z).2.1 ∧ (civilFromDays z).2.1 ≤ 12) ∧ 1 ≤ (civilFromDays z).2.2 ∧
      (civilFromDays z).2.2 ≤ monthLength (leap (civilFromDays z).1) (civilFromDays z).2.1 := by
  obtain ⟨era, yoe, doy, here⟩ := exists_reckoned z
  obtain ⟨_, _, _, there⟩ := exists_reckoned (z + 1)
  refine ⟨by decide, here.tomorrow there, ?_⟩
  rw [here.civil]
  refine date_inside _ doy (by have := here.day; omega) ?_
  rintro rfl
  exact (here.day.resolve_left (by decide)).2

end Usai.Cli
