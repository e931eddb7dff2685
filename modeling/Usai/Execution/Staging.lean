import Mathlib.Algebra.Group.Nat.Defs
import Usai.Transition

/-! The input buffer of a guest (`engine/wasm.rs`, `Guest::stage`, and `qjs_usai_inbuf`
of `usai-direct-call.patch`): the guest owns it and the host writes into it. -/

namespace Usai.Execution

open Transition

def maxMemoryBytes : Nat := 64 * 1024 * 1024

structure Staging where
  -- the address and the capacity that the host has recorded
  inbuf : Int × Nat
  -- `usai_inbuf`, where 0 is the null pointer, and `usai_inbuf_cap`
  guest : Nat × Nat
  -- where the last call wrote, and how much
  written : Option (Int × Nat)

structure StageCall where
  size : Nat
  next : Nat

def realloc (cap next : Nat) : Nat := if next + cap ≤ maxMemoryBytes then next else 0

def qjsUsaiInbuf (guest : Nat × Nat) (size next : Nat) : Nat × Nat × Nat :=
  if guest.2 < size then
    let cap := if size < 4096 then 4096 else size
    let next := realloc cap next
    if next = 0 then (0, guest) else (next, next, cap)
  else (guest.1, guest)

def Staging.stage (staging : Staging) (call : StageCall) : Option Staging :=
  if staging.inbuf.2 < call.size ∨ staging.inbuf.1 = 0 then
    let (address, guest) := qjsUsaiInbuf staging.guest (max call.size 1 % 2 ^ 32) call.next
    -- the host reads the address as a signed number
    let ptr := (address : Int).bmod (2 ^ 32)
    if ptr ≤ 0 then some { staging with guest, written := none }
    else some ⟨(ptr, max call.size 4096), guest, some (ptr, call.size)⟩
  else some { staging with written := some (staging.inbuf.1, call.size) }

def Allocated (guest : Nat × Nat) : Prop :=
  (guest.2 = 0 ∨ 4096 ≤ guest.2) ∧ guest.1 + guest.2 ≤ maxMemoryBytes

structure Staging.Inside (staging : Staging) : Prop where
  allocated : Allocated staging.guest
  recorded : staging.inbuf.1 ≠ 0 →
    staging.inbuf.1 = staging.guest.1 ∧ staging.inbuf.2 ≤ staging.guest.2
  written : ∀ write ∈ staging.written,
    write.1 = staging.guest.1 ∧ write.2 ≤ staging.guest.2

theorem qjsUsaiInbuf_spec {guest after : Nat × Nat} {size next address : Nat} (asked : 0 < size)
    (allocated : Allocated guest) (returned : qjsUsaiInbuf guest size next = (address, after)) :
    Allocated after ∧ (address = 0 ∧ after = guest ∨
      address = after.1 ∧ max size 4096 ≤ after.2 ∧ (address ≠ 0 ∨ after = guest)) := by
  obtain ⟨rounded, placed⟩ := allocated
  unfold qjsUsaiInbuf at returned
  dsimp only at returned
  generalize block : (if size < 4096 then 4096 else size) = cap at returned
  have enough : max size 4096 = cap := by
    rw [← block]
    split <;> omega
  split_ifs at returned with _ null <;> cases returned
  · exact ⟨⟨rounded, placed⟩, .inl ⟨rfl, rfl⟩⟩
  · -- the block that `realloc` found is in the memory
    have fits : realloc cap next + cap ≤ maxMemoryBytes := by
      unfold realloc at null ⊢
      split at null
      · next fits =>
        rw [if_pos fits]
        exact fits
      · exact absurd rfl null
    exact ⟨⟨.inr (by dsimp only; omega), fits⟩, .inr ⟨rfl, Nat.le_of_eq enough, .inl null⟩⟩
  · exact ⟨⟨rounded, placed⟩, .inr ⟨rfl, by omega, .inr rfl⟩⟩

theorem Staging.Inside.stage {staging next : Staging} {call : StageCall} (inside : staging.Inside)
    (small : call.size < 2 ^ 31) (taken : staging.stage call = some next) : next.Inside := by
  obtain ⟨allocated, recorded, -⟩ := inside
  unfold Staging.stage at taken
  split_ifs at taken with grows
  · have size : max call.size 1 % 2 ^ 32 = max call.size 1 := Nat.mod_eq_of_lt (by omega)
    rw [size] at taken
    rcases returned : qjsUsaiInbuf staging.guest (max call.size 1) call.next with ⟨address, guest⟩
    rw [returned] at taken
    dsimp only at taken
    obtain ⟨placed, ⟨rfl, rfl⟩ | ⟨rfl, room, fresh⟩⟩ := qjsUsaiInbuf_spec (by omega) allocated returned
    · cases taken
      exact ⟨allocated, recorded, nofun⟩
    · have below : guest.1 ≤ 64 * 1024 * 1024 := Nat.le_of_add_right_le placed.2
      rw [Int.bmod_eq_of_le (by omega) (by omega)] at taken
      split_ifs at taken with null <;> cases taken
      · obtain rfl : guest = staging.guest := fresh.resolve_left (by omega)
        exact ⟨allocated, recorded, nofun⟩
      · refine ⟨placed, fun _ => ⟨rfl, by dsimp only; omega⟩, ?_⟩
        rintro _ ⟨⟩
        exact ⟨rfl, by dsimp only; omega⟩
  · cases taken
    rw [not_or] at grows
    refine ⟨allocated, recorded, ?_⟩
    rintro _ ⟨⟩
    obtain ⟨same, room⟩ := recorded grows.2
    exact ⟨same, Nat.le_trans (Nat.le_of_not_lt grows.1) room⟩

/-- Whatever is staged in a new host, and wherever `realloc` puts the buffer, it is
written inside the buffer of the guest. -/
theorem staging_inside (guest : Nat × Nat) (calls : List StageCall) (allocated : Allocated guest)
    (small : Meets Staging.stage (fun _ call => call.size < 2 ^ 31) ⟨(0, 0), guest, none⟩ calls) :
    Along Staging.stage Staging.Inside ⟨(0, 0), guest, none⟩ calls :=
  along_of_meets (fun _ _ _ inside small taken => inside.stage small taken)
    ⟨allocated, by simp, nofun⟩ small

theorem staging_inside_grown : Along Staging.stage Staging.Inside ⟨(0, 0), (0, 0), none⟩
    [⟨5000, 65536⟩, ⟨6000, 2 ^ 31⟩, ⟨100, 0⟩] :=
  staging_inside (0, 0) _ ⟨.inl rfl, by decide⟩ (by decide)

end Usai.Execution
