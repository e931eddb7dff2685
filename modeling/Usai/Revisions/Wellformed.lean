import Usai.Revisions.Writes
import Usai.Revisions.Segments

/-! What every write keeps, in every interleaving: the table holds recorded
revisions, ids and tokens are issued in order, and a token sits only in the
slot it was made for. -/

namespace Usai.Revisions

open List Option Usai.Revisions.Runtime

structure Wellformed (runtime : Runtime) : Prop where
  fresh : ∀ id : RevisionId, runtime.nextRevision ≤ id.val → runtime.arena.lookup id = none
  recorded : ∀ id ∈ runtime.held, ∃ revision, runtime.arena.lookup id = some revision
  slotted : ∀ id role token, runtime.slotOf id role = some token →
    token.revision = id ∧ token.role = role ∧ token.serial < runtime.nextToken
  cancelledIssued : ∀ token ∈ runtime.cancelled, token.serial < runtime.nextToken
  schedulersIssued : ∀ token ∈ runtime.schedulers, token.serial < runtime.nextToken
  schedulersRecorded : ∀ token ∈ runtime.schedulers,
    ∃ revision, runtime.arena.lookup token.revision = some revision

namespace Wellformed

theorem new (config : Config) : Wellformed (new config) where
  fresh := by intro id _; rfl
  recorded := by intro id member; cases member
  slotted := by intro id role token present; cases present
  cancelledIssued := by intro token member; cases member
  schedulersIssued := by intro token member; cases member
  schedulersRecorded := by intro token member; cases member

variable {runtime : Runtime}

theorem next_unheld (wellformed : Wellformed runtime) :
    (⟨runtime.nextRevision⟩ : RevisionId) ∉ runtime.held := by
  intro member
  obtain ⟨_, found⟩ := wellformed.recorded _ member
  rw [wellformed.fresh _ le_rfl] at found
  cases found

theorem written_none {here : Prop} [Decidable here] {written old : Option Revision}
    {change : Revision → Revision} (same : here → written = old) :
    (if here then written.map change else old) = none ↔ old = none := by
  split
  · rw [map_eq_none_iff, same ‹here›]
  · rfl

theorem setState_absent (id other : RevisionId) (state : RevisionState) :
    (runtime.setState id state).arena.lookup other = none ↔ runtime.arena.lookup other = none := by
  rw [setState_lookup]
  exact written_none (fun same => by rw [same])

theorem startScheduler_absent (role : Role) (id other : RevisionId) :
    (runtime.startScheduler role id).arena.lookup other = none ↔
      runtime.arena.lookup other = none := by
  rw [startScheduler_lookup]
  exact written_none (fun here => by rw [here.1])

theorem work_absent (id other : RevisionId) (count : Nat) :
    (runtime.work id count).arena.lookup other = none ↔ runtime.arena.lookup other = none := by
  rw [work, FiniteMap.lookup_modify]
  exact written_none (fun same => by rw [same])

theorem recorded_of_absent {next : Runtime} {id : RevisionId}
    (absent : next.arena.lookup id = none ↔ runtime.arena.lookup id = none)
    (recorded : ∃ revision, runtime.arena.lookup id = some revision) :
    ∃ revision, next.arena.lookup id = some revision := by
  rw [← ne_none_iff_exists'] at recorded ⊢
  exact mt absent.mp recorded

section

variable (wellformed : Wellformed runtime)
include wellformed

theorem setState (id : RevisionId) (state : RevisionState) :
    Wellformed (runtime.setState id state) where
  fresh := by
    intro other bound
    rw [setState_nextRevision] at bound
    exact (setState_absent id other state).mpr (wellformed.fresh other bound)
  recorded := by
    intro other member
    rw [setState_held] at member
    exact recorded_of_absent (setState_absent id other state) (wellformed.recorded other member)
  slotted := by
    intro other role token present
    rw [setState_nextToken]
    exact wellformed.slotted other role token
      (setState_slotOf runtime id other state role token present)
  cancelledIssued := by
    intro token member
    rw [setState_nextToken]
    rw [setState_cancelled] at member
    rcases member with old | ⟨_, role, _, present⟩
    · exact wellformed.cancelledIssued token old
    · exact (wellformed.slotted id role token present).2.2
  schedulersIssued := by
    intro token member
    rw [setState_schedulers] at member
    rw [setState_nextToken]
    exact wellformed.schedulersIssued token member
  schedulersRecorded := by
    intro token member
    rw [setState_schedulers] at member
    exact recorded_of_absent (setState_absent id token.revision state)
      (wellformed.schedulersRecorded token member)

theorem startScheduler (role : Role) (scheduler : role ≠ .connections) (id : RevisionId) :
    Wellformed (runtime.startScheduler role id) := by
  have frame := startScheduler_frame runtime id role
  have grows := startScheduler_nextToken runtime id role
  have issues : runtime.arena.lookup id ≠ none →
      (runtime.startScheduler role id).nextToken = runtime.nextToken + 1 := by
    intro present
    unfold Runtime.startScheduler
    split
    · split <;> rfl
    · contradiction
  have ran : runtime.runs id role = true → runtime.arena.lookup id ≠ none := by
    intro running absent
    simp [runs, definitionOf, absent] at running
  constructor
  · intro other bound
    rw [frame.2.2.2.2] at bound
    exact (startScheduler_absent role id other).mpr (wellformed.fresh other bound)
  · intro other member
    rw [frame.1] at member
    exact recorded_of_absent (startScheduler_absent role id other) (wellformed.recorded other member)
  · intro other slot token present
    rw [startScheduler_slotOf _ _ _ _ scheduler] at present
    split at present
    · rename_i here
      rw [some.injEq] at present
      subst token
      have recorded : runtime.arena.lookup id ≠ none := by
        intro absent
        simp [keeps, definitionOf, absent] at here
      refine ⟨here.1.symm, here.2.1.symm, ?_⟩
      rw [issues recorded]
      exact Nat.lt_succ_self _
    · have old := wellformed.slotted other slot token present
      exact ⟨old.1, old.2.1, lt_of_lt_of_le old.2.2 grows⟩
  · intro token member
    rw [frame.2.2.2.1] at member
    exact lt_of_lt_of_le (wellformed.cancelledIssued token member) grows
  · intro token member
    rw [startScheduler_schedulers] at member
    rcases member with old | ⟨running, rfl⟩
    · exact lt_of_lt_of_le (wellformed.schedulersIssued token old) grows
    · rw [issues (ran running)]
      exact Nat.lt_succ_self _
  · intro token member
    rw [startScheduler_schedulers] at member
    apply recorded_of_absent (startScheduler_absent role id token.revision)
    rcases member with old | ⟨running, rfl⟩
    · exact wellformed.schedulersRecorded token old
    · exact ne_none_iff_exists'.mp (ran running)

theorem startSchedulers (id : RevisionId) :
    Wellformed (runtime.startSchedulers id) := by
  have cron : Wellformed (runtime.startCron id) := by
    unfold startCron
    split
    · exact wellformed.startScheduler .cron (by decide) id
    · exact wellformed
  have services : Wellformed ((runtime.startCron id).startServices id) := by
    unfold startServices
    split
    · exact cron.startScheduler .service (by decide) id
    · exact cron
  unfold Runtime.startSchedulers Runtime.startQueue
  split
  · exact services.startScheduler .queue (by decide) id
  · exact services

theorem stopServices (id : RevisionId) :
    Wellformed (runtime.stopServices id) :=
  { wellformed with
    cancelledIssued := by
      intro token member
      simp only [Runtime.stopServices, Runtime.cancel, mem_append, mem_toList] at member
      rcases member with present | old
      · exact (wellformed.slotted id .service token present).2.2
      · exact wellformed.cancelledIssued token old }

theorem unhold (id : RevisionId) :
    Wellformed (runtime.unhold id) :=
  { wellformed with
    recorded := by
      intro other member
      exact wellformed.recorded other (mem_filter.mp member).1 }

theorem work (id : RevisionId) (count : Nat) :
    Wellformed (runtime.work id count) where
  fresh := by
    intro other bound
    exact (work_absent id other count).mpr (wellformed.fresh other bound)
  recorded := by
    intro other member
    exact recorded_of_absent (work_absent id other count) (wellformed.recorded other member)
  slotted := by
    intro other role token present
    rw [work_slotOf] at present
    exact wellformed.slotted other role token present
  cancelledIssued := wellformed.cancelledIssued
  schedulersIssued := wellformed.schedulersIssued
  schedulersRecorded := by
    intro token member
    exact recorded_of_absent (work_absent id token.revision count)
      (wellformed.schedulersRecorded token member)

theorem insertRevision (definition : Definition) :
    Wellformed (runtime.insertRevision definition) := by
  have issued : Wellformed { runtime with nextRevision := runtime.nextRevision + 1,
                                          nextToken := runtime.nextToken + 1 } := by
    refine ⟨?_, wellformed.recorded, ?_, ?_, ?_, wellformed.schedulersRecorded⟩
    · intro id bound
      exact wellformed.fresh id (by simp only at bound; omega)
    · intro id role token present
      have old := wellformed.slotted id role token present
      exact ⟨old.1, old.2.1, Nat.lt_succ_of_lt old.2.2⟩
    · intro token member
      exact Nat.lt_succ_of_lt (wellformed.cancelledIssued token member)
    · intro token member
      exact Nat.lt_succ_of_lt (wellformed.schedulersIssued token member)
  by_cases valid : definition.schedulesValid = true
  · constructor
    · intro id bound
      rw [Runtime.insertRevision_lookup, if_neg]
      · exact issued.fresh id (by simpa [Runtime.insertRevision, valid] using bound)
      · rintro ⟨rfl, _⟩
        simp only [Runtime.insertRevision, valid, if_true] at bound
        omega
    · intro id member
      rw [Runtime.insertRevision_lookup]
      split
      · exact ⟨_, rfl⟩
      · rename_i old
        rw [Runtime.insertRevision_held, if_pos valid, mem_append, mem_singleton] at member
        exact wellformed.recorded id (member.resolve_right (fun same => old ⟨same, valid⟩))
    · intro id role token present
      rw [Runtime.insertRevision_slotOf] at present
      rw [Runtime.insertRevision_nextToken]
      split at present
      · rename_i here
        obtain ⟨connections, present⟩ := ite_none_right_eq_some.mp present
        rw [some.injEq] at present
        subst token
        exact ⟨here.1.symm, connections.symm, Nat.lt_succ_self _⟩
      · exact issued.slotted id role token present
    · intro token member
      rw [Runtime.insertRevision_nextToken]
      rw [Runtime.insertRevision_cancelled] at member
      exact issued.cancelledIssued token member
    · intro token member
      rw [Runtime.insertRevision_nextToken]
      rw [Runtime.insertRevision_schedulers] at member
      exact issued.schedulersIssued token member
    · intro token member
      rw [Runtime.insertRevision_schedulers] at member
      rw [Runtime.insertRevision_lookup]
      split
      · exact ⟨_, rfl⟩
      · exact wellformed.schedulersRecorded token member
  · simpa [Runtime.insertRevision, valid] using issued

end

theorem keptByParts : KeptByParts Wellformed where
  state := fun _ id state wellformed => wellformed.setState id state
  schedulers := fun _ id wellformed => wellformed.startSchedulers id
  active := fun _ _ wellformed =>
    ⟨wellformed.fresh, wellformed.recorded, wellformed.slotted, wellformed.cancelledIssued,
      wellformed.schedulersIssued, wellformed.schedulersRecorded⟩
  services := fun _ id wellformed => wellformed.stopServices id
  held := fun _ id wellformed => wellformed.unhold id
  work := fun _ id count wellformed => wellformed.work id count

theorem apply (wellformed : Wellformed runtime) (effect : Effect) :
    Wellformed (effect.apply runtime) :=
  keptByParts.apply wellformed wellformed.insertRevision effect

end Wellformed

theorem step_wellformed (system : System) (label : Label) (next : System)
    (wellformed : Wellformed system.runtime) (taken : system.step label = some next) :
    Wellformed next.runtime := by
  rw [(step_inversion taken).2]
  exact wellformed.apply _

end Usai.Revisions
