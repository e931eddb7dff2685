import Mathlib.Data.List.AList

/-! Finite maps as association lists with distinct keys: the size of a map and
the update of one entry in place. -/

namespace Usai

open List Option

abbrev FiniteMap (Key Value : Type) := AList (fun _ : Key => Value)

namespace FiniteMap

variable {Key Value : Type} [DecidableEq Key]

def size (map : FiniteMap Key Value) : Nat := map.keys.length

def modify (map : FiniteMap Key Value) (key : Key) (change : Value → Value) :
    FiniteMap Key Value :=
  match map.lookup key with
  | some value => map.insert key (change value)
  | none => map

theorem lookup_insert_eq (map : FiniteMap Key Value) (key other : Key) (value : Value) :
    (map.insert key value).lookup other = if other = key then some value else map.lookup other := by
  by_cases same : other = key
  · subst other
    rw [if_pos rfl]
    exact AList.lookup_insert map
  · rw [if_neg same]
    exact AList.lookup_insert_ne same

theorem lookup_erase_eq (map : FiniteMap Key Value) (key other : Key) :
    (map.erase key).lookup other = if other = key then none else map.lookup other := by
  by_cases same : other = key
  · subst other
    rw [if_pos rfl]
    exact AList.lookup_erase _ map
  · rw [if_neg same]
    exact AList.lookup_erase_ne same

variable {map : FiniteMap Key Value} {key other : Key} {value found : Value}

theorem of_lookup_insert (present : (map.insert key value).lookup other = some found) :
    (other = key ∧ found = value) ∨ map.lookup other = some found := by
  rw [lookup_insert_eq] at present
  split at present
  · rename_i same
    exact .inl ⟨same, (some.inj present).symm⟩
  · exact .inr present

theorem lookup_insert_absent
    (absent : map.lookup key = none) (present : map.lookup other = some found) :
    (map.insert key value).lookup other = some found := by
  have differs : other ≠ key := by
    rintro rfl
    rw [absent] at present
    cases present
  rw [lookup_insert_eq, if_neg differs]
  exact present

theorem of_lookup_erase
    (present : (map.erase key).lookup other = some found) : map.lookup other = some found := by
  rw [lookup_erase_eq] at present
  split at present
  · cases present
  · exact present

theorem lookup_foldl_erase (keys : List Key) (map : FiniteMap Key Value) (other : Key) :
    (keys.foldl (fun rest key => rest.erase key) map).lookup other =
      if other ∈ keys then none else map.lookup other := by
  induction keys generalizing map with
  | nil => simp
  | cons key _ ih =>
    rw [foldl_cons, ih, lookup_erase_eq]
    by_cases same : other = key
    · simp [same]
    · simp [same]

theorem lookup_foldl_insert {entries : List (Key × Value)}
    (other : ∀ entry ∈ entries, entry.1 ≠ key) :
    (entries.foldl (fun rest entry => rest.insert entry.1 entry.2) map).lookup key =
      map.lookup key := by
  induction entries generalizing map with
  | nil => rfl
  | cons _ _ ih =>
    obtain ⟨here, later⟩ := forall_mem_cons.mp other
    rw [foldl_cons, ih later, lookup_insert_eq, if_neg here.symm]

theorem lookup_modify (map : FiniteMap Key Value) (key other : Key) (change : Value → Value) :
    (modify map key change).lookup other =
      if other = key then (map.lookup key).map change else map.lookup other := by
  unfold modify
  cases found : map.lookup key with
  | none =>
    by_cases same : other = key
    · subst other
      simp only [found, if_pos, map_none]
    · simp only [if_neg same]
  | some => simp only [lookup_insert_eq, map_some]

theorem mem_of_lookup (found : map.lookup key = some value) : key ∈ map := by
  rw [← AList.lookup_isSome, found]
  rfl

variable (map : FiniteMap Key Value) (key : Key)

theorem size_insert_absent (value : Value)
    (absent : map.lookup key = none) : size (map.insert key value) = size map + 1 := by
  have outside : key ∉ map.keys := by
    exact AList.lookup_eq_none.mp absent
  simp only [size, AList.keys_insert, length_cons, erase_of_not_mem outside]

theorem size_erase_present (old : Value)
    (found : map.lookup key = some old) : size (map.erase key) + 1 = size map := by
  have inside : key ∈ map.keys := AList.mem_keys.mp (mem_of_lookup found)
  have positive := length_pos_of_mem inside
  simp only [size, AList.keys_erase, length_erase_of_mem inside]
  omega

theorem size_modify (change : Value → Value) :
    size (modify map key change) = size map := by
  unfold modify
  cases found : map.lookup key with
  | none => rfl
  | some =>
    have inside : key ∈ map.keys := AList.mem_keys.mp (mem_of_lookup found)
    have positive := length_pos_of_mem inside
    simp only [size, AList.keys_insert, length_cons, length_erase_of_mem inside]
    omega

end FiniteMap

end Usai
