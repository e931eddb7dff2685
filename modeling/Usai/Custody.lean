import Mathlib.Data.List.Perm.Basic
import Mathlib.Data.List.Nodup
import Mathlib.Data.List.Count

/-! Tokens that are issued once, held in one place at a time and spent once. -/

namespace Usai

variable {Token : Type*}

/-- Every token that was issued is held in exactly one place or was spent
exactly once. -/
structure Conserved (issued held spent : List Token) : Prop where
  balance : issued.Perm (held ++ spent)
  distinct : issued.Nodup

namespace Conserved

variable {issued held spent : List Token} {token : Token}

theorem empty : Conserved ([] : List Token) [] [] := ⟨.refl [], List.nodup_nil⟩

theorem spend (conserved : Conserved issued (token :: held) spent) :
    Conserved issued held (token :: spent) where
  balance := conserved.balance.trans List.perm_middle.symm
  distinct := conserved.distinct

variable (conserved : Conserved issued held spent)
include conserved

theorem issue (fresh : token ∉ issued) :
    Conserved (token :: issued) (token :: held) spent where
  balance := conserved.balance.cons token
  distinct := List.nodup_cons.mpr ⟨fresh, conserved.distinct⟩

theorem move {moved : List Token}
    (moves : held.Perm moved) : Conserved issued moved spent where
  balance := conserved.balance.trans (moves.append_right spent)
  distinct := conserved.distinct

theorem mem_issued :
    token ∈ issued ↔ token ∈ held ∨ token ∈ spent := by
  rw [conserved.balance.mem_iff, List.mem_append]

theorem parts_nodup : (held ++ spent).Nodup :=
  conserved.balance.nodup_iff.mp conserved.distinct

theorem not_spent (holds : token ∈ held) :
    token ∉ spent := by
  intro gone
  exact List.disjoint_of_nodup_append conserved.parts_nodup holds gone

theorem count_eq_one [DecidableEq Token]
    (member : token ∈ issued) : spent.count token + held.count token = 1 := by
  have once := List.count_eq_one_of_mem conserved.distinct member
  rw [conserved.balance.count_eq, List.count_append] at once
  omega

end Conserved

end Usai
