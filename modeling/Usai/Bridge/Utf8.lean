import Mathlib.Data.Nat.Bitwise

/-! The text codec the guest bridge installs where the core has no native one. A
string is the list of its UTF-16 code units. -/

namespace Usai.Bridge

open List

def block : Nat := 8192

def codePointAt (unit next : UInt16) : Nat :=
  if 0xd800 ≤ unit.toNat ∧ unit.toNat ≤ 0xdbff ∧ 0xdc00 ≤ next.toNat ∧ next.toNat ≤ 0xdfff then
    (unit.toNat - 0xd800) * 0x400 + (next.toNat - 0xdc00) + 0x10000
  else unit.toNat

def codePoints : List UInt16 → List Nat
  | [] => []
  | [unit] => [unit.toNat]
  | unit :: next :: rest =>
    let c := codePointAt unit next
    if c > 0xffff then c :: codePoints rest else c :: codePoints (next :: rest)

def pointBytes (c : Nat) : List Nat :=
  if c < 0x80 then [c]
  else if c < 0x800 then [0xc0 ||| (c >>> 6), 0x80 ||| (c &&& 63)]
  else if c < 0x10000 then [0xe0 ||| (c >>> 12), 0x80 ||| ((c >>> 6) &&& 63), 0x80 ||| (c &&& 63)]
  else [0xf0 ||| (c >>> 18), 0x80 ||| ((c >>> 12) &&& 63), 0x80 ||| ((c >>> 6) &&& 63),
    0x80 ||| (c &&& 63)]

def encode (s : List UInt16) : List UInt8 :=
  ((codePoints s).flatMap pointBytes).map UInt8.ofNat

def lead (x : Nat) : Nat × Nat :=
  if x < 0x80 then (x, 1)
  else if x &&& 0xe0 = 0xc0 then (x &&& 31, 2)
  else if x &&& 0xf0 = 0xe0 then (x &&& 15, 3)
  else (x &&& 7, 4)

-- A byte past the end is undefined, which the bitwise operators take for zero.
def point (x : UInt8) (rest : List UInt8) : Nat :=
  (List.range ((lead x.toNat).2 - 1)).foldl
    (fun cp j => (cp <<< 6) ||| ((rest.getD j 0).toNat &&& 63)) (lead x.toNat).1

def pointUnits (cp : Nat) : List Nat :=
  if cp > 0xffff then
    [0xd800 + ((cp - 0x10000) >>> 10), 0xdc00 + ((cp - 0x10000) &&& 0x3ff)]
  else [cp]

def fromUnits (units : List Nat) (parts : List (List UInt16)) : List (List UInt16) :=
  if units.length ≠ 0 then parts ++ [units.map UInt16.ofNat] else parts

def decodeLoop (units : List Nat) (parts : List (List UInt16)) : List UInt8 → List UInt16
  | [] => (fromUnits units parts).flatten
  | x :: rest =>
    let pushed := units ++ pointUnits (point x rest)
    if pushed.length ≥ block then
      decodeLoop [] (fromUnits pushed parts) (rest.drop ((lead x.toNat).2 - 1))
    else decodeLoop pushed parts (rest.drop ((lead x.toNat).2 - 1))
termination_by bytes => bytes.length
decreasing_by all_goals simp only [List.length_cons, List.length_drop]; omega

def decode (bytes : List UInt8) : List UInt16 :=
  decodeLoop [] [] bytes

theorem fromUnits_flatten (units : List Nat) (parts : List (List UInt16)) :
    (fromUnits units parts).flatten = parts.flatten ++ units.map UInt16.ofNat := by
  unfold fromUnits
  split
  · rw [flatten_concat]
  · next empty =>
    rw [eq_nil_of_length_eq_zero (not_not.mp empty)]
    exact (append_nil _).symm

theorem or_low (high c : Nat) : 2 ^ 6 * high ||| (c &&& 63) = c % 64 + 2 ^ 6 * high := by
  have small : c % 64 < 2 ^ 6 := Nat.mod_lt c (by decide)
  rw [Nat.and_two_pow_sub_one_eq_mod c 6, Nat.add_comm]
  exact (Nat.two_pow_add_eq_or_of_lt small high).symm

theorem lead_two : ∀ x < 32, 0xc0 ||| x = x + 192 ∧ lead (x + 192) = (x, 2) := by decide

theorem lead_three : ∀ x < 16, 0xe0 ||| x = x + 224 ∧ lead (x + 224) = (x, 3) := by decide

theorem lead_four : ∀ x < 8, 0xf0 ||| x = x + 240 ∧ lead (x + 240) = (x, 4) := by decide

theorem pointBytes_eq {c : Nat} (valid : c < 0x110000) : pointBytes c =
    if c ≤ 127 then [c]
    else if c ≤ 2047 then [c / 64 % 32 + 192, c % 64 + 128]
    else if c ≤ 65535 then [c / 4096 % 16 + 224, c / 64 % 64 + 128, c % 64 + 128]
    else [c / 262144 % 8 + 240, c / 4096 % 64 + 128, c / 64 % 64 + 128, c % 64 + 128] := by
  have marked : ∀ c, 0x80 ||| (c &&& 63) = c % 64 + 128 := or_low 2
  simp only [pointBytes, marked, Nat.shiftRight_eq_div_pow, Nat.lt_succ_iff]
  split
  · rfl
  split
  · rw [(lead_two (c / 2 ^ 6) (by omega)).1, Nat.mod_eq_of_lt (by omega : c / 64 < 32)]
  split
  · rw [(lead_three (c / 2 ^ 12) (by omega)).1, Nat.mod_eq_of_lt (by omega : c / 4096 < 16)]
  · rw [(lead_four (c / 2 ^ 18) (by omega)).1, Nat.mod_eq_of_lt (by omega : c / 262144 < 8)]

theorem point_pointBytes {c : Nat} (valid : c < 0x110000) :
    ∃ x tail, (pointBytes c).map UInt8.ofNat = x :: tail ∧
      (lead x.toNat).2 = tail.length + 1 ∧ ∀ rest, point x (tail ++ rest) = c := by
  have read : ∀ n tail high, n < 256 → lead n = (high, tail.length + 1) →
      (∀ rest, (range tail.length).foldl (fun cp j =>
        ((tail ++ rest).getD j 0).toNat % 64 + 64 * cp) high = c) →
      (lead (UInt8.ofNat n).toNat).2 = tail.length + 1 ∧
        ∀ rest, point (UInt8.ofNat n) (tail ++ rest) = c := by
    intro n tail high small first value
    rw [← Nat.mod_eq_of_lt small, ← UInt8.toNat_ofNat'] at first
    refine ⟨by rw [first], ?_⟩
    intro rest
    simp only [point, Nat.shiftLeft_eq, Nat.mul_comm _ (2 ^ 6), or_low, first]
    exact value rest
  rw [pointBytes_eq valid]
  split
  · exact ⟨_, [], rfl, read c [] c (by omega) (if_pos (by omega)) (fun _ => rfl)⟩
  split
  · refine ⟨_, _, rfl, read _ _ _ (by omega) (lead_two (c / 64 % 32) (by omega)).2 ?_⟩
    intro rest
    simp [range_succ]
    omega
  split
  · refine ⟨_, _, rfl, read _ _ _ (by omega) (lead_three (c / 4096 % 16) (by omega)).2 ?_⟩
    intro rest
    simp [range_succ]
    omega
  · refine ⟨_, _, rfl, read _ _ _ (by omega) (lead_four (c / 262144 % 8) (by omega)).2 ?_⟩
    intro rest
    simp [range_succ]
    omega

theorem decodeLoop_points {points : List Nat} (valid : ∀ c ∈ points, c < 0x110000)
    (units : List Nat) (parts : List (List UInt16)) :
    decodeLoop units parts ((points.flatMap pointBytes).map UInt8.ofNat) =
      parts.flatten ++ (units ++ points.flatMap pointUnits).map UInt16.ofNat := by
  induction points generalizing units parts with
  | nil =>
    rw [flatMap_nil, map_nil, decodeLoop, fromUnits_flatten, flatMap_nil,
      append_nil]
  | cons c points step =>
    obtain ⟨first, rest⟩ := forall_mem_cons.mp valid
    obtain ⟨x, tail, bytes, length, value⟩ := point_pointBytes first
    rw [flatMap_cons, map_append, bytes, cons_append, decodeLoop, value, length,
      Nat.add_sub_cancel, drop_left, flatMap_cons, ← append_assoc units]
    split
    · rw [step rest, fromUnits_flatten]
      simp only [nil_append, map_append, append_assoc]
    · exact step rest _ parts

theorem codePoints_units (s : List UInt16) : (∀ c ∈ codePoints s, c < 0x110000) ∧
    ((codePoints s).flatMap pointUnits).map UInt16.ofNat = s := by
  have alone : ∀ unit : UInt16, unit.toNat < 0x110000 ∧
      (pointUnits unit.toNat).map UInt16.ofNat = [unit] := by
    intro unit
    have small := unit.toNat_lt
    rw [pointUnits, if_neg (by omega), map_singleton, UInt16.ofNat_toNat]
    exact ⟨by omega, rfl⟩
  fun_induction codePoints s with
  | case1 => exact ⟨nofun, rfl⟩
  | case2 unit =>
    rw [flatMap_singleton]
    exact ⟨forall_mem_singleton.mpr (alone unit).1, (alone unit).2⟩
  | case3 unit next rest c beyond step =>
    have found : c = codePointAt unit next := rfl
    have small := unit.toNat_lt
    unfold codePointAt at found
    split at found
    · have high : 0xd800 + (c - 0x10000) / 2 ^ 10 = unit.toNat := by omega
      have low : 0xdc00 + (c - 0x10000) % 2 ^ 10 = next.toNat := by omega
      refine ⟨forall_mem_cons.mpr ⟨by omega, step.1⟩, ?_⟩
      rw [flatMap_cons, map_append, step.2, pointUnits, if_pos beyond,
        Nat.shiftRight_eq_div_pow, Nat.and_two_pow_sub_one_eq_mod _ 10, high, low]
      simp only [map_cons, UInt16.ofNat_toNat]
      rfl
    · omega
  | case4 unit next rest c within step =>
    have found : c = codePointAt unit next := rfl
    unfold codePointAt at found
    split at found
    · omega
    · rw [found, flatMap_cons, map_append, step.2, (alone unit).2]
      exact ⟨forall_mem_cons.mpr ⟨(alone unit).1, step.1⟩, rfl⟩

def utf16 (char : Char) : List UInt16 :=
  if char.toNat < 0x10000 then [UInt16.ofNat char.toNat]
  else [UInt16.ofNat (0xd800 + (char.toNat - 0x10000) / 0x400),
    UInt16.ofNat (0xdc00 + (char.toNat - 0x10000) % 0x400)]

theorem codePoints_cons (unit : UInt16) (rest : List UInt16)
    (single : unit.toNat < 0xd800 ∨ 0xdbff < unit.toNat) :
    codePoints (unit :: rest) = unit.toNat :: codePoints rest := by
  cases rest with
  | nil => rfl
  | cons next rest =>
    have alone : codePointAt unit next = unit.toNat := if_neg (by omega)
    have small := unit.toNat_lt
    rw [codePoints, alone]
    exact if_neg (by omega)

theorem codePoints_pair (high low : UInt16) (rest : List UInt16)
    (first : 0xd800 ≤ high.toNat ∧ high.toNat ≤ 0xdbff)
    (second : 0xdc00 ≤ low.toNat ∧ low.toNat ≤ 0xdfff) :
    codePoints (high :: low :: rest) =
      ((high.toNat - 0xd800) * 0x400 + (low.toNat - 0xdc00) + 0x10000) :: codePoints rest := by
  have joined : codePointAt high low =
      (high.toNat - 0xd800) * 0x400 + (low.toNat - 0xdc00) + 0x10000 :=
    if_pos ⟨first.1, first.2, second⟩
  rw [codePoints, joined]
  exact if_pos (by omega)

theorem codePoints_utf16 (chars : List Char) :
    codePoints (chars.flatMap utf16) = chars.map Char.toNat := by
  induction chars with
  | nil => rfl
  | cons char chars ih =>
    have scalar : char.toNat < 0xd800 ∨ 0xdfff < char.toNat ∧ char.toNat < 0x110000 := char.valid
    have unit (n : Nat) (small : n < 2 ^ 16) : (UInt16.ofNat n).toNat = n :=
      UInt16.toNat_ofNat_of_lt' small
    rw [flatMap_cons, map_cons, utf16]
    split
    · next small =>
      rw [singleton_append, codePoints_cons _ _ (by rw [unit _ small]; omega), unit _ small, ih]
    · next large =>
      have high := unit (0xd800 + (char.toNat - 0x10000) / 0x400) (by omega)
      have low := unit (0xdc00 + (char.toNat - 0x10000) % 0x400) (by omega)
      rw [cons_append, singleton_append, codePoints_pair _ _ _ (by omega) (by omega), ih]
      refine congrArg (· :: _) ?_
      rw [high, low]
      omega

/-- Every string comes back, and a well-formed one, the units of some characters, is
written in UTF-8. -/
theorem text_codec_round_trip (s : List UInt16) : decode (encode s) = s ∧
    ∀ chars : List Char, s = chars.flatMap utf16 →
      encode s = chars.flatMap String.utf8EncodeChar := by
  obtain ⟨valid, same⟩ := codePoints_units s
  refine ⟨(decodeLoop_points valid [] []).trans same, ?_⟩
  rintro chars rfl
  rw [encode, codePoints_utf16, flatMap_map, map_flatMap]
  refine congrArg chars.flatMap (funext ?_)
  intro char
  have scalar : char.toNat < 0xd800 ∨ 0xdfff < char.toNat ∧ char.toNat < 0x110000 := char.valid
  rw [pointBytes_eq (by omega)]
  simp only [apply_ite (map UInt8.ofNat)]
  rfl

end Usai.Bridge
