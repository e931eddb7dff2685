import Mathlib.Data.List.Induction
import Usai.FiniteMap
import Usai.Json

/-! The query of a request as an object (`http/pipeline.rs`, `query_to_json`). -/

namespace Usai.Http

open List

variable (key : String) (pairs : List (String × String))

def addPair (out : FiniteMap String Json) (pair : String × String) : FiniteMap String Json :=
  let value := Json.string pair.2
  match out.lookup pair.1 with
  | some (.array items) => out.insert pair.1 (.array (items ++ [value]))
  | some first => out.insert pair.1 (.array [first, value])
  | none => out.insert pair.1 value

def queryToJson : FiniteMap String Json := pairs.foldl addPair ∅

def valuesOf : List String := (pairs.filter (·.1 = key)).map (·.2)

def entryOf : List String → Option Json
  | [] => none
  | [value] => some (.string value)
  | values => some (.array (values.map .string))

theorem entryOf_snoc (values : List String) (value : String) : entryOf (values ++ [value]) =
    some (match entryOf values with
      | some (.array items) => .array (items ++ [.string value])
      | some first => .array [first, .string value]
      | none => .string value) := by
  match values with
  | [] => rfl
  | [_] => rfl
  | _ :: _ :: _ => simp [entryOf]

theorem lookup_queryToJson : (queryToJson pairs).lookup key = entryOf (valuesOf key pairs) := by
  induction pairs using reverseRecOn generalizing key with
  | nil => rfl
  | append_singleton pairs pair ih =>
    rw [queryToJson, foldl_append, foldl_cons, foldl_nil, ← queryToJson]
    have added : ∃ entry, addPair (queryToJson pairs) pair = (queryToJson pairs).insert pair.1 entry ∧
        entryOf (valuesOf pair.1 pairs ++ [pair.2]) = some entry := by
      rw [entryOf_snoc, ← ih, addPair]
      split <;> exact ⟨_, rfl, rfl⟩
    obtain ⟨entry, inserted, known⟩ := added
    rw [inserted, FiniteMap.lookup_insert_eq]
    split
    · rename_i same
      simp [valuesOf, same, ← known]
    · rename_i other
      simp [ih, valuesOf, Ne.symm other]

def given : Option Json → List String
  | some (.string value) => [value]
  | some (.array items) => items.filterMap Json.text
  | _ => []

theorem given_entryOf (values : List String) : given (entryOf values) = values := by
  match values with
  | [] => rfl
  | [_] => rfl
  | _ :: _ :: _ => simp [entryOf, given, filterMap_map, Function.comp_def, Json.text]

/-- The object has the keys of the query. A key given once has its string, and one
given more often the array of its strings, so that no value is lost. -/
theorem query_decoded : (key ∈ queryToJson pairs ↔ key ∈ pairs.map (·.1)) ∧
    (∀ value, valuesOf key pairs = [value] →
      (queryToJson pairs).lookup key = some (.string value)) ∧
    (2 ≤ (valuesOf key pairs).length →
      (queryToJson pairs).lookup key = some (.array ((valuesOf key pairs).map .string))) ∧
    given ((queryToJson pairs).lookup key) = valuesOf key pairs := by
  rw [← AList.lookup_isSome, lookup_queryToJson]
  refine ⟨?_, fun value once => by rw [once, entryOf], fun often => ?_, given_entryOf _⟩
  · have some_iff (values : List String) : (entryOf values).isSome ↔ values ≠ [] := by
      match values with
      | [] => simp [entryOf]
      | [_] => simp [entryOf]
      | _ :: _ :: _ => simp [entryOf]
    rw [some_iff]
    simp [valuesOf]
  · match seen : valuesOf key pairs with
    | [] | [_] => simp [seen] at often
    | _ :: _ :: _ => rfl

end Usai.Http
