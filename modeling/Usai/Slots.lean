import Mathlib.Data.List.Basic

/-! Lists whose positions name actors: one of them moves on in its place, or a
new one enters at the end. -/

namespace Usai.Slots

open List Option

variable {Actor : Type*} {actors : List Actor} {index other : Nat} {before after actor : Actor}
  {property : Actor → Prop}

theorem of_getElem?_set (found : (actors.set index after)[other]? = some actor) :
    (other = index ∧ actor = after) ∨ (other ≠ index ∧ actors[other]? = some actor) := by
  by_cases same : other = index
  · subst other
    have inside : index < actors.length := by
      have bound := (List.getElem?_eq_some_iff.mp found).1
      rwa [length_set] at bound
    rw [getElem?_set_self inside] at found
    exact .inl ⟨rfl, (some.inj found).symm⟩
  · rw [getElem?_set_ne (Ne.symm same)] at found
    exact .inr ⟨same, found⟩

theorem of_getElem?_modify {change : Actor → Actor}
    (found : (actors.modify index change)[other]? = some actor) :
    (other = index ∧ ∃ before, actors[other]? = some before ∧ actor = change before) ∨
      actors[other]? = some actor := by
  rw [getElem?_modify] at found
  obtain ⟨before, here, rfl⟩ := map_eq_some_iff.mp found
  split
  · rename_i same
    exact .inl ⟨same.symm, before, here, rfl⟩
  · exact .inr here

theorem of_getElem?_append (found : (actors ++ [after])[other]? = some actor) :
    actors[other]? = some actor ∨ (other = actors.length ∧ actor = after) := by
  by_cases inside : other < actors.length
  · rw [getElem?_append_left inside] at found
    exact .inl found
  · have bound := (List.getElem?_eq_some_iff.mp found).1
    rw [length_append, length_singleton] at bound
    have last : other = actors.length := by omega
    subst last
    rw [getElem?_concat_length] at found
    exact .inr ⟨rfl, (some.inj found).symm⟩

theorem forall_set (all : ∀ actor ∈ actors, property actor) (here : property after) :
    ∀ actor ∈ actors.set index after, property actor := by
  intro actor member
  rcases mem_or_eq_of_mem_set member with before | rfl
  · exact all actor before
  · exact here

theorem forall_append (all : ∀ actor ∈ actors, property actor) (here : property after) :
    ∀ actor ∈ actors ++ [after], property actor :=
  forall_mem_append.mpr ⟨all, forall_mem_singleton.mpr here⟩

theorem exists_set (found : actors[index]? = some before)
    (keeps : property before → property after) (some : ∃ actor ∈ actors, property actor) :
    ∃ actor ∈ actors.set index after, property actor := by
  obtain ⟨actor, member, holds⟩ := some
  obtain ⟨position, here⟩ := mem_iff_getElem?.mp member
  by_cases same : index = position
  · subst same
    rw [found] at here
    cases here
    have inside := (List.getElem?_eq_some_iff.mp found).1
    exact ⟨after, mem_set inside after, keeps holds⟩
  · refine ⟨actor, mem_iff_getElem?.mpr ⟨position, ?_⟩, holds⟩
    rw [getElem?_set_ne same]
    exact here

theorem exists_append (some : ∃ actor ∈ actors, property actor) :
    ∃ actor ∈ actors ++ [after], property actor := by
  obtain ⟨actor, member, holds⟩ := some
  exact ⟨actor, mem_append_left _ member, holds⟩

end Usai.Slots
