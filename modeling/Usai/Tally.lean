import Mathlib.Algebra.Order.BigOperators.Group.List
import Mathlib.Data.Int.NatAbs

/-! Lists of which one entry is taken out or changed. -/

namespace Usai.Tally

open List Option

variable {Entry : Type}

variable {entries : List Entry} {index : Nat} {entry : Entry} {measure : Entry → Int}
  {counts : List Nat}

theorem eraseIdx_perm
    (found : entries[index]? = some entry) : (entry :: entries.eraseIdx index).Perm entries := by
  obtain ⟨inside, rfl⟩ := List.getElem?_eq_some_iff.mp found
  exact getElem_cons_eraseIdx_perm inside

theorem length_eraseIdx
    (found : entries[index]? = some entry) : entries.length = (entries.eraseIdx index).length + 1 := by
  rw [← (eraseIdx_perm found).length_eq, length_cons]

theorem map_set_same {Value : Type} {changed : Entry}
    (read : Entry → Value) (found : entries[index]? = some entry) (same : read changed = read entry) :
    (entries.set index changed).map read = entries.map read := by
  obtain ⟨_, rfl⟩ := List.getElem?_eq_some_iff.mp found
  have bound : index < (entries.map read).length := by rwa [length_map]
  have here : (entries.map read)[index] = read changed := by rw [getElem_map, same]
  rw [map_set, ← here]
  exact set_getElem_self bound

theorem sum_modify {count : Nat} (change : Nat → Nat) (found : counts[index]? = some count) :
    (counts.modify index change).sum + count = counts.sum + change count := by
  induction counts generalizing index with
  | nil => simp at found
  | cons _ tail ih =>
    cases index with
    | zero =>
      cases found
      simp only [modify_zero_cons, sum_cons]
      omega
    | succ index =>
      have rest := ih (by simpa using found : tail[index]? = some count)
      simp only [modify_succ_cons, sum_cons]
      omega

theorem sum_map_set (changed : Entry)
    (measure : Entry → Int) (found : entries[index]? = some entry) :
    ((entries.set index changed).map measure).sum =
      (entries.map measure).sum - measure entry + measure changed := by
  obtain ⟨inside, rfl⟩ := List.getElem?_eq_some_iff.mp found
  rw [map_set, sum_set', dif_pos (by rwa [length_map]), getElem_map]
  omega

theorem sum_map_append_one (entries : List Entry) (entry : Entry) (measure : Entry → Int) :
    ((entries ++ [entry]).map measure).sum = (entries.map measure).sum + measure entry := by
  rw [map_append, sum_append, map_cons, map_nil, sum_cons, sum_nil,
    Int.add_zero]

theorem sum_map_zero
    (zero : ∀ entry ∈ entries, measure entry = 0) : (entries.map measure).sum = 0 :=
  sum_eq_zero (forall_mem_map.mpr zero)

theorem sum_map_nonneg
    (nonneg : ∀ entry ∈ entries, 0 ≤ measure entry) : 0 ≤ (entries.map measure).sum :=
  sum_nonneg (forall_mem_map.mpr nonneg)

end Usai.Tally
