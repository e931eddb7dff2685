import Usai.Revisions.Wellformed

/-! What every write keeps of a revision's tokens: which of them it can
cancel, and which slots it can change. -/

namespace Usai.Revisions

open Effect Usai.Revisions.Runtime

def Runtime.opens (runtime : Runtime) (id : RevisionId) : Prop :=
  ∃ token, runtime.slotOf id .connections = some token ∧ token ∉ runtime.cancelled

def Runtime.closes (runtime : Runtime) (id : RevisionId) : Prop :=
  ∃ token, runtime.slotOf id .connections = some token ∧ token ∈ runtime.cancelled

section

variable {runtime : Runtime}

variable {id : RevisionId} {state : RevisionState} {token : Token}

theorem apply_stateOf (effect : Effect) (found : (effect.apply runtime).stateOf id = some state) :
    runtime.stateOf id = some state ∨
      (state.leaving = true ∧ (state = .retired → effect = .retire id)) ∨
      (state = .active ∧ effect = .swap id) ∨
      (state = .installed ∧ ∃ definition, effect = .insertRevision definition ∧
        id = ⟨runtime.nextRevision⟩ ∧ definition.schedulesValid = true) := by
  have set : ∀ (before : Runtime) (target : RevisionId) (new : RevisionState),
      (before.setState target new).stateOf id = some state →
        before.stateOf id = some state ∨ (state = new ∧ id = target) := by
    intro before target new after
    rw [setState_stateOf] at after
    split at after
    · rename_i same
      rw [Option.map_eq_some_iff] at after
      obtain ⟨_, _, rfl⟩ := after
      exact .inr ⟨rfl, same⟩
    · exact .inl after
  cases effect with
  | insertRevision definition =>
    rw [apply, insertRevision_stateOf] at found
    split at found
    · rename_i new
      cases found
      exact .inr (.inr (.inr ⟨rfl, definition, rfl, new⟩))
    · exact .inl found
  | swap target =>
    rcases set runtime target .active found with before | ⟨rfl, rfl⟩
    · exact .inl before
    · exact .inr (.inr (.inl ⟨rfl, rfl⟩))
  | finishActivation =>
    rw [apply, finishActivation_stateOf] at found
    split at found
    · rw [Option.map_eq_some_iff] at found
      obtain ⟨_, _, rfl⟩ := found
      exact .inr (.inl ⟨rfl, by simp⟩)
    · exact .inl found
  | beginDrain =>
    rw [apply, beginDrain_stateOf] at found
    split at found
    · cases found
      exact .inr (.inl ⟨rfl, by simp⟩)
    · exact .inl found
  | retire target =>
    rcases set runtime target .retired found with before | ⟨rfl, rfl⟩
    · exact .inl before
    · exact .inr (.inl ⟨rfl, fun _ => rfl⟩)
  | work =>
    rw [apply, work_stateOf] at found
    exact .inl found
  | none | stopServices | unhold => exact .inl found

theorem setState_cancels (wellformed : Wellformed runtime)
    (cancelled : token ∈ (runtime.setState id state).cancelled)
    (running : token ∉ runtime.cancelled) : (runtime.setState id state).leaves token.revision := by
  rw [setState_cancelled] at cancelled
  obtain ⟨leaving, role, _, present⟩ := cancelled.resolve_left running
  rw [leaves_setState, if_pos (wellformed.slotted id role token present).1]
  exact ⟨stateOf_of_slotOf present, leaving⟩

theorem apply_cancelled_mono (effect : Effect)
    (cancelled : token ∈ runtime.cancelled) : token ∈ (effect.apply runtime).cancelled := by
  have kept : KeptByParts (fun runtime => token ∈ runtime.cancelled) := {
    state := fun runtime id state old =>
      (setState_cancelled runtime id state token).mpr (.inl old)
    schedulers := by
      intro runtime id old
      rw [(startSchedulers_started runtime id).cancelled]
      exact old
    active := fun _ _ old => old
    services := fun _ _ old => List.mem_append_right _ old
    held := fun _ _ old => old
    work := fun _ _ _ old => old }
  refine kept.apply cancelled ?_ effect
  intro definition
  rw [insertRevision_cancelled]
  exact cancelled

theorem setState_slotOf_stays {other : RevisionId} {role : Role}
    (present : runtime.slotOf other role = some token)
    (stays : ¬ (runtime.setState id state).leaves other ∨ role = .connections) :
    (runtime.setState id state).slotOf other role = some token := by
  rcases stays with stays | rfl
  · rw [leaves_setState] at stays
    by_cases same : other = id
    · rw [if_pos same] at stays
      have entering : state.leaving = false := by
        by_contra leaving
        exact stays ⟨same ▸ stateOf_of_slotOf present, by simpa using leaving⟩
      rw [setState_slotOf_entering _ _ _ _ entering]
      exact present
    · rw [setState_slotOf_other _ _ _ _ same]
      exact present
  · rw [setState_slotOf_kept _ _ _ _ _ (.inr rfl)]
    exact present

theorem apply_config (effect : Effect) : (effect.apply runtime).config = runtime.config := by
  have kept : KeptByParts (fun later => later.config = runtime.config) := {
    state := fun later id state same => (setState_config later id state).trans same
    schedulers := fun later id same =>
      (startSchedulers_started later id).config.trans same
    active := fun _ _ same => same
    services := fun _ _ same => same
    held := fun _ _ same => same
    work := fun _ _ _ same => same }
  exact kept.apply rfl (insertRevision_config runtime) effect

theorem opens_not_closes (opens : runtime.opens id) : ¬ runtime.closes id := by
  rintro ⟨_, presentSecond, cancelled⟩
  obtain ⟨_, presentFirst, running⟩ := opens
  rw [presentFirst, Option.some.injEq] at presentSecond
  exact running (presentSecond ▸ cancelled)

theorem apply_becomes_active (effect : Effect)
    (active : (effect.apply runtime).stateOf id = some .active) :
    runtime.stateOf id = some .active ∨ effect = .swap id := by
  rcases apply_stateOf effect active with before | ⟨leaving, _⟩ | ⟨_, swaps⟩ | ⟨clash, _⟩
  · exact .inl before
  · cases leaving
  · exact .inr swaps
  · cases clash

theorem apply_becomes_retired (effect : Effect)
    (retired : (effect.apply runtime).stateOf id = some .retired) :
    runtime.stateOf id = some .retired ∨ effect = .retire id := by
  rcases apply_stateOf effect retired with before | ⟨_, retires⟩ | ⟨clash, _⟩ | ⟨clash, _⟩
  · exact .inl before
  · exact .inr (retires rfl)
  · cases clash
  · cases clash

theorem slotOf_connections (found : runtime.stateOf id = some state) :
    ∃ token, runtime.slotOf id .connections = some token := by
  rw [stateOf, Option.map_eq_some_iff] at found
  obtain ⟨revision, present, _⟩ := found
  exact ⟨revision.connectionsStop, by rw [slotOf, present]; rfl⟩

theorem setState_leaves_closes {target : RevisionId}
    (before : runtime.leaves id → runtime.closes id)
    (leaves : (runtime.setState target state).leaves id) :
    (runtime.setState target state).closes id := by
  have slots := setState_slotOf_kept runtime target id state .connections (.inr rfl)
  rw [leaves_setState] at leaves
  split at leaves
  · rename_i same
    obtain ⟨⟨_, found⟩, leaving⟩ := leaves
    obtain ⟨token, present⟩ := slotOf_connections found
    refine ⟨token, by rw [slots, same]; exact present, ?_⟩
    exact (setState_cancelled runtime target state token).mpr
      (.inr ⟨leaving, .connections, by decide, present⟩)
  · obtain ⟨token, present, cancelled⟩ := before leaves
    exact ⟨token, slots.trans present,
      (setState_cancelled runtime target state token).mpr (.inl cancelled)⟩

theorem startSchedulers_leaves_closes (target id : RevisionId)
    (before : runtime.leaves id → runtime.closes id) :
    (runtime.startSchedulers target).leaves id → (runtime.startSchedulers target).closes id := by
  have started := startSchedulers_started runtime target
  rintro ⟨state, found, leaving⟩
  obtain ⟨token, present, cancelled⟩ := before ⟨state, by rw [← started.states, found], leaving⟩
  refine ⟨token, ?_, by rw [started.cancelled]; exact cancelled⟩
  by_cases same : id = target
  · rw [same, started.connections, ← same]
    exact present
  · rw [started.others id same]
    exact present

variable (wellformed : Wellformed runtime) (effect : Effect)
include wellformed

/-- A write cancels a token only of a revision that is leaving after it, apart
from the supervisor's, which a drain or a retirement stops. -/
theorem apply_cancels
    (cancelled : token ∈ (effect.apply runtime).cancelled) (running : token ∉ runtime.cancelled) :
    (effect.apply runtime).leaves token.revision ∨
      (token.role = .service ∧
        (effect = .stopServices token.revision ∨ effect = .beginDrain token.revision)) := by
  cases effect with
  | none | unhold | work => exact absurd cancelled running
  | insertRevision =>
    rw [apply, insertRevision_cancelled] at cancelled
    exact absurd cancelled running
  | swap | retire => exact .inl (setState_cancels wellformed cancelled running)
  | finishActivation id previous =>
    have started := startSchedulers_started runtime id
    have runs : token ∉ (runtime.startSchedulers id).cancelled := by
      rw [started.cancelled]
      exact running
    simp only [Effect.apply, Runtime.finishActivation] at cancelled ⊢
    cases demoted : runtime.demoted id previous with
    | none =>
      rw [demoted] at cancelled
      exact absurd cancelled runs
    | some =>
      rw [demoted] at cancelled
      exact .inl (setState_cancels (wellformed.startSchedulers id) cancelled runs)
  | beginDrain id =>
    rw [apply, beginDrain_cancelled] at cancelled
    obtain ⟨role, reason, present⟩ := cancelled.resolve_left running
    obtain ⟨owner, made, _⟩ := wellformed.slotted id role token present
    rcases reason with active | service
    · refine .inl ⟨.draining, ?_, rfl⟩
      rw [apply, beginDrain_stateOf, if_pos ⟨owner, active⟩]
    · exact .inr ⟨made.trans service, .inr (by rw [owner])⟩
  | stopServices id =>
    simp only [Effect.apply, Runtime.stopServices, Runtime.cancel, List.mem_append,
      Option.mem_toList] at cancelled
    have present := cancelled.resolve_right running
    obtain ⟨owner, made, _⟩ := wellformed.slotted id .service token present
    exact .inr ⟨made, .inl (by rw [owner])⟩

/-- A revision keeps its slots through every write that neither makes it leave
nor finishes its own activation; the connections' token it keeps always. -/
theorem apply_slotOf {role : Role} (present : runtime.slotOf id role = some token)
    (stays : ¬ (effect.apply runtime).leaves id ∨ role = .connections)
    (apart : role ≠ .connections → ∀ previous, effect ≠ .finishActivation id previous) :
    (effect.apply runtime).slotOf id role = some token := by
  cases effect with
  | insertRevision =>
    have old : id ≠ ⟨runtime.nextRevision⟩ := by
      rintro rfl
      rw [slotOf, wellformed.fresh ⟨runtime.nextRevision⟩ le_rfl] at present
      cases present
    rw [apply, insertRevision_slotOf, if_neg (fun both => old both.1)]
    exact present
  | swap => exact setState_slotOf_stays present stays
  | finishActivation target previous =>
    have started := startSchedulers_started runtime target
    have kept : (runtime.startSchedulers target).slotOf id role = some token := by
      by_cases same : id = target
      · subst target
        by_cases connections : role = .connections
        · rw [connections, started.connections, ← connections]
          exact present
        · exact absurd rfl (apart connections previous)
      · rw [started.others id same]
        exact present
    simp only [Effect.apply, Runtime.finishActivation] at stays ⊢
    cases demoted : runtime.demoted target previous with
    | none => exact kept
    | some =>
      rw [demoted] at stays
      exact setState_slotOf_stays kept stays
  | beginDrain target =>
    have cleared : (runtime.clearActive target).slotOf id role = some token := by
      rw [clearActive_slotOf]
      exact present
    have marked : ((runtime.clearActive target).markDraining target).slotOf id role =
        some token := by
      have leaves : ¬ ((runtime.clearActive target).markDraining target).leaves id ∨
          role = .connections := stays
      revert leaves
      unfold markDraining
      split
      · exact setState_slotOf_stays cleared
      · exact fun _ => cleared
    exact marked
  | retire target =>
    have leaves : ¬ (runtime.setState target .retired).leaves id ∨ role = .connections := stays
    have kept := setState_slotOf_stays present leaves
    exact kept
  | work =>
    rw [apply, work_slotOf]
    exact present
  | none | stopServices | unhold => exact present

theorem apply_definitionOf
    {definition : Definition} (found : runtime.definitionOf id = some definition) :
    (effect.apply runtime).definitionOf id = some definition := by
  have kept : KeptByParts (fun runtime => runtime.definitionOf id = some definition) := {
    state := fun runtime target state old =>
      (setState_definitionOf runtime target id state).trans old
    schedulers := fun runtime target old =>
      ((startSchedulers_started runtime target).definitions id).trans old
    active := fun _ _ old => old
    services := fun _ _ old => old
    held := fun _ _ old => old
    work := by
      intro runtime target count old
      simp only [Runtime.definitionOf, Runtime.work, FiniteMap.lookup_modify] at old ⊢
      split
      · rename_i same
        rw [← same, Option.map_map]
        exact old
      · exact old }
  refine kept.apply found ?_ effect
  intro added
  have old : id ≠ ⟨runtime.nextRevision⟩ := by
    rintro rfl
    rw [definitionOf, wellformed.fresh ⟨runtime.nextRevision⟩ le_rfl] at found
    cases found
  rw [definitionOf, insertRevision_lookup, if_neg (fun both => old both.1)]
  exact found

theorem apply_closes (closes : runtime.closes id) : (effect.apply runtime).closes id := by
  obtain ⟨token, present, cancelled⟩ := closes
  exact ⟨token, apply_slotOf wellformed effect present (.inr rfl) (fun other => absurd rfl other),
    apply_cancelled_mono effect cancelled⟩

theorem apply_opens (opens : runtime.opens id) (stays : ¬ (effect.apply runtime).leaves id) :
    (effect.apply runtime).opens id := by
  obtain ⟨token, present, running⟩ := opens
  obtain ⟨owner, made, _⟩ := wellformed.slotted id .connections token present
  refine ⟨token, apply_slotOf wellformed effect present (.inr rfl) (fun other => absurd rfl other), ?_⟩
  intro cancelled
  rcases apply_cancels wellformed effect cancelled running with leaves | ⟨service, _⟩
  · exact stays (owner ▸ leaves)
  · rw [made] at service
    cases service

theorem apply_leaves_closes
    (before : runtime.leaves id → runtime.closes id) (leaves : (effect.apply runtime).leaves id) :
    (effect.apply runtime).closes id := by
  have kept : KeptByParts (fun runtime => runtime.leaves id → runtime.closes id) := {
    state := fun _ _ _ before => setState_leaves_closes before
    schedulers := fun _ target before => startSchedulers_leaves_closes target id before
    active := fun _ _ before => before
    services := by
      intro runtime target before leaves
      obtain ⟨token, present, cancelled⟩ := before leaves
      exact ⟨token, present, List.mem_append_right _ cancelled⟩
    held := fun _ _ before => before
    work := by
      rintro runtime target count before ⟨state, found, leaving⟩
      rw [work_stateOf] at found
      obtain ⟨token, present, cancelled⟩ := before ⟨state, found, leaving⟩
      exact ⟨token, by rw [work_slotOf]; exact present, cancelled⟩ }
  refine kept.apply before ?_ effect leaves
  rintro definition ⟨state, found, leaving⟩
  rw [insertRevision_stateOf] at found
  split at found
  · cases found
    cases leaving
  · exact apply_closes wellformed (.insertRevision definition) (before ⟨state, found, leaving⟩)

theorem apply_installed_opens (before : runtime.stateOf id = some .installed → runtime.opens id)
    (installed : (effect.apply runtime).stateOf id = some .installed) :
    (effect.apply runtime).opens id := by
  have stays : ¬ (effect.apply runtime).leaves id := by
    rintro ⟨state, found, leaving⟩
    rw [installed, Option.some.injEq] at found
    subst state
    cases leaving
  rcases apply_stateOf effect installed with earlier | ⟨leaving, _⟩ | ⟨clash, _⟩ |
    ⟨_, definition, rfl, new, valid⟩
  · exact apply_opens wellformed effect (before earlier) stays
  · cases leaving
  · cases clash
  · refine ⟨⟨runtime.nextToken, ⟨runtime.nextRevision⟩, .connections⟩, ?_, ?_⟩
    · rw [apply, insertRevision_slotOf, if_pos ⟨new, valid⟩, if_pos rfl]
    · rw [apply, insertRevision_cancelled]
      intro cancelled
      exact absurd (wellformed.cancelledIssued _ cancelled) (lt_irrefl _)

end

end Usai.Revisions
