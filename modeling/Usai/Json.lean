import Mathlib.Data.Rat.Cast.Order
import Mathlib.Data.List.Basic

/-! JSON documents, and the reading of their members the way a derived
deserializer does it: a member that is missing may have a default, a member
that is `null` may stand for nothing, members that nobody asks for are
ignored. -/

namespace Usai

/-- Numbers are the decimals that stand in the text. -/
inductive Json where
  | null
  | bool (value : Bool)
  | number (value : ℚ)
  | string (value : String)
  | array (items : List Json)
  | object (members : List (String × Json))

namespace Json

variable {Value : Type}

def member (name : String) : Json → Option Json
  | .object members => members.lookup name
  | _ => none

def text : Json → Option String
  | .string value => some value
  | _ => none

def boolean : Json → Option Bool
  | .bool value => some value
  | _ => none

def unsigned (width : Nat) : Json → Option Nat
  | .number value =>
    if value.den = 1 ∧ 0 ≤ value.num ∧ value.num < 2 ^ width then some value.num.toNat else none
  | _ => none

theorem unsigned_eq_some_iff {width : Nat} {value : ℚ} {result : Nat} :
    unsigned width (.number value) = some result ↔ value = result ∧ result < 2 ^ width := by
  unfold unsigned
  constructor
  · intro read
    obtain ⟨⟨whole, positive, bound⟩, same⟩ := Option.ite_none_right_eq_some.mp read
    have exact : (result : Int) = value.num := by
      rw [← Option.some.inj same]
      exact Int.toNat_of_nonneg positive
    refine ⟨?_, ?_⟩
    · rw [← Rat.coe_int_num_of_den_eq_one whole, ← exact, Int.cast_natCast]
    · rw [← exact] at bound
      exact_mod_cast bound
  · rintro ⟨rfl, bound⟩
    simp only [Rat.num_natCast, Rat.den_natCast, Int.toNat_natCast]
    exact if_pos ⟨trivial, Int.natCast_nonneg _, by exact_mod_cast bound⟩

def optional (read : Json → Option Value) : Json → Option (Option Value)
  | .null => some none
  | json => (read json).map some

def required (name : String) (read : Json → Option Value) (json : Json) : Option Value :=
  (json.member name).bind read

def defaulted (name : String) (default : Value) (read : Json → Option Value) (json : Json) :
    Option Value :=
  match json.member name with
  | some value => read value
  | none => some default

def absent (name : String) (read : Json → Option Value) (json : Json) : Option (Option Value) :=
  json.defaulted name none (optional read)

def given (name : String) : Option Json → List (String × Json)
  | some value => [(name, value)]
  | none => []

def written (read : Json → Option Value) : Option Json → Option (Option Value)
  | some json => optional read json
  | none => some none

end Json

end Usai
