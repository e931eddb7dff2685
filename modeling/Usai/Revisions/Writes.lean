import Usai.Revisions.Calls

/-! What each write does to the states, the slots and the tokens of every
revision. Later proofs use these and never unfold a write. -/

namespace Usai.Revisions

open FiniteMap List Option Usai.Revisions.Runtime

namespace Runtime

variable (runtime : Runtime) (id other : RevisionId)

section

variable (state : RevisionState)

theorem setState_lookup :
    (runtime.setState id state).arena.lookup other =
      if other = id then (runtime.arena.lookup id).map (fun revision => revision.setState state)
      else runtime.arena.lookup other := by
  unfold setState
  cases found : runtime.arena.lookup id with
  | none =>
    by_cases same : other = id
    · rw [if_pos same, same, found, map_none]
    · rw [if_neg same]
  | some => exact lookup_insert_eq _ _ _ _

theorem setState_stateOf :
    (runtime.setState id state).stateOf other =
      if other = id then (runtime.stateOf id).map (fun _ => state) else runtime.stateOf other := by
  simp only [stateOf, setState_lookup]
  by_cases same : other = id
  · rw [if_pos same, if_pos same, Option.map_map, Option.map_map]
    congr 1
    funext revision
    exact Revision.setState_state revision state
  · rw [if_neg same, if_neg same]

theorem setState_definitionOf :
    (runtime.setState id state).definitionOf other = runtime.definitionOf other := by
  simp only [definitionOf, setState_lookup]
  by_cases same : other = id
  · rw [if_pos same, same, Option.map_map]
    congr 1
    funext revision
    exact Revision.setState_definition revision state
  · rw [if_neg same]

@[simp] theorem setState_held : (runtime.setState id state).held = runtime.held := by
  unfold setState
  split <;> rfl

@[simp] theorem setState_active : (runtime.setState id state).active = runtime.active := by
  unfold setState
  split <;> rfl

@[simp] theorem setState_config : (runtime.setState id state).config = runtime.config := by
  unfold setState
  split <;> rfl

@[simp] theorem setState_nextRevision :
    (runtime.setState id state).nextRevision = runtime.nextRevision := by
  unfold setState
  split <;> rfl

@[simp] theorem setState_nextToken : (runtime.setState id state).nextToken = runtime.nextToken := by
  unfold setState
  split <;> rfl

@[simp] theorem setState_schedulers :
    (runtime.setState id state).schedulers = runtime.schedulers := by
  unfold setState
  split <;> rfl

theorem setState_cancelled (token : Token) :
    token ∈ (runtime.setState id state).cancelled ↔
      token ∈ runtime.cancelled ∨
        (state.leaving = true ∧ ∃ role, role ≠ .service ∧ runtime.slotOf id role = some token) := by
  unfold setState slotOf
  cases found : runtime.arena.lookup id with
  | none => simp
  | some =>
    simp only [mem_append, Revision.mem_stopped, bind_some]
    exact or_comm

theorem setState_slotOf (role : Role) (token : Token)
    (present : (runtime.setState id state).slotOf other role = some token) :
    runtime.slotOf other role = some token := by
  simp only [slotOf, setState_lookup] at present ⊢
  by_cases same : other = id
  · rw [if_pos same] at present
    rw [same]
    cases found : runtime.arena.lookup id with
    | none => rw [found] at present; cases present
    | some revision =>
      rw [found] at present
      exact Revision.slot_setState revision state role token present
  · rw [if_neg same] at present
    exact present

theorem setState_slotOf_kept (role : Role) (kept : role = .service ∨ role = .connections) :
    (runtime.setState id state).slotOf other role = runtime.slotOf other role := by
  simp only [slotOf, setState_lookup]
  split
  · rename_i same
    rw [same]
    cases runtime.arena.lookup id with
    | none => rfl
    | some revision =>
      rcases kept with rfl | rfl
      · exact Revision.setState_services revision state
      · exact congrArg some (Revision.setState_connectionsStop revision state)
  · rfl

theorem setState_slotOf_other (different : other ≠ id) (role : Role) :
    (runtime.setState id state).slotOf other role = runtime.slotOf other role := by
  simp only [slotOf, setState_lookup, if_neg different]

theorem setState_slotOf_entering (stays : state.leaving = false) (role : Role) :
    (runtime.setState id state).slotOf other role = runtime.slotOf other role := by
  by_cases same : other = id
  · subst other
    simp only [slotOf, setState_lookup, if_true]
    cases runtime.arena.lookup id with
    | none => rfl
    | some =>
      simp only [map_some, bind_some, Revision.setState, stays, Bool.false_eq_true,
        if_false]
      cases role <;> rfl
  · exact setState_slotOf_other runtime id other state same role

end

section

variable (role : Role)

def keeps : Bool :=
  (runtime.definitionOf id).any
    (fun definition => decide (role ≠ .service) || definition.declares role)

def runs : Bool := (runtime.definitionOf id).any (fun definition => definition.declares role)

theorem startScheduler_lookup :
    (runtime.startScheduler role id).arena.lookup other =
      if other = id ∧ runtime.keeps id role = true then
        (runtime.arena.lookup id).map
          (fun revision => revision.store role ⟨runtime.nextToken, id, role⟩)
      else runtime.arena.lookup other := by
  unfold startScheduler keeps definitionOf
  cases found : runtime.arena.lookup id with
  | none => simp
  | some revision =>
    by_cases dropped : role = .service ∧ revision.definition.declares role = false
    · obtain ⟨service, absent⟩ := dropped
      subst role
      simp [absent]
    · have kept : (decide (role ≠ .service) || revision.definition.declares role) = true := by
        by_cases service : role = .service <;> simp_all
      simp only [if_neg dropped, map_some, any_some, kept, and_true]
      exact lookup_insert_eq _ _ _ _

theorem startScheduler_stateOf :
    (runtime.startScheduler role id).stateOf other = runtime.stateOf other := by
  simp only [stateOf, startScheduler_lookup]
  split
  · rename_i here
    rw [here.1, Option.map_map]
    congr 1
    funext revision
    exact Revision.store_state revision role _
  · rfl

theorem startScheduler_definitionOf :
    (runtime.startScheduler role id).definitionOf other = runtime.definitionOf other := by
  simp only [definitionOf, startScheduler_lookup]
  split
  · rename_i here
    rw [here.1, Option.map_map]
    congr 1
    funext revision
    exact Revision.store_definition revision role _
  · rfl

theorem startScheduler_slotOf (scheduler : role ≠ .connections) (slot : Role) :
    (runtime.startScheduler role id).slotOf other slot =
      if other = id ∧ slot = role ∧ runtime.keeps id role = true then
        some ⟨runtime.nextToken, id, role⟩
      else runtime.slotOf other slot := by
  simp only [slotOf, startScheduler_lookup]
  by_cases here : other = id ∧ runtime.keeps id role = true
  · rw [if_pos here, here.1]
    cases found : runtime.arena.lookup id with
    | none => simp [keeps, definitionOf, found] at here
    | some =>
      simp only [map_some, bind_some, Revision.slot_store _ _ _ _ scheduler]
      simp [here.2]
  · rw [if_neg here, if_neg (fun all => here ⟨all.1, all.2.2⟩)]

theorem startScheduler_frame :
    (runtime.startScheduler role id).held = runtime.held ∧
      (runtime.startScheduler role id).active = runtime.active ∧
      (runtime.startScheduler role id).config = runtime.config ∧
      (runtime.startScheduler role id).cancelled = runtime.cancelled ∧
      (runtime.startScheduler role id).nextRevision = runtime.nextRevision := by
  unfold startScheduler
  split
  · split <;> exact ⟨rfl, rfl, rfl, rfl, rfl⟩
  · exact ⟨rfl, rfl, rfl, rfl, rfl⟩

theorem startScheduler_nextToken :
    runtime.nextToken ≤ (runtime.startScheduler role id).nextToken := by
  unfold startScheduler
  split
  · split <;> exact Nat.le_succ _
  · exact le_rfl

theorem startScheduler_schedulers (token : Token) :
    token ∈ (runtime.startScheduler role id).schedulers ↔
      token ∈ runtime.schedulers ∨
        (runtime.runs id role = true ∧ token = ⟨runtime.nextToken, id, role⟩) := by
  unfold startScheduler runs definitionOf
  cases found : runtime.arena.lookup id with
  | none => simp
  | some revision =>
    simp only [map_some, any_some]
    cases declares : revision.definition.declares role with
    | false => split <;> simp
    | true =>
      simp only [if_true, true_and]
      split
      · rename_i dropped
        simp at dropped
      · rw [mem_cons, or_comm]

end

section

variable (definition : Definition)

theorem insertRevision_lookup :
    (runtime.insertRevision definition).arena.lookup other =
      if other = ⟨runtime.nextRevision⟩ ∧ definition.schedulesValid = true then
        some ⟨definition, .installed, 0, none, none, none,
          ⟨runtime.nextToken, ⟨runtime.nextRevision⟩, .connections⟩⟩
      else runtime.arena.lookup other := by
  unfold insertRevision
  by_cases valid : definition.schedulesValid = true
  · simp only [valid, if_true, and_true]
    exact lookup_insert_eq _ _ _ _
  · simp [valid]

theorem insertRevision_held :
    (runtime.insertRevision definition).held =
      if definition.schedulesValid = true then runtime.held ++ [⟨runtime.nextRevision⟩]
      else runtime.held := by
  unfold insertRevision
  split <;> rfl

@[simp] theorem insertRevision_nextToken :
    (runtime.insertRevision definition).nextToken = runtime.nextToken + 1 := by
  unfold insertRevision
  split <;> rfl

@[simp] theorem insertRevision_active :
    (runtime.insertRevision definition).active = runtime.active := by
  unfold insertRevision
  split <;> rfl

@[simp] theorem insertRevision_config :
    (runtime.insertRevision definition).config = runtime.config := by
  unfold insertRevision
  split <;> rfl

@[simp] theorem insertRevision_cancelled :
    (runtime.insertRevision definition).cancelled = runtime.cancelled := by
  unfold insertRevision
  split <;> rfl

@[simp] theorem insertRevision_schedulers :
    (runtime.insertRevision definition).schedulers = runtime.schedulers := by
  unfold insertRevision
  split <;> rfl

theorem insertRevision_stateOf :
    (runtime.insertRevision definition).stateOf other =
      if other = ⟨runtime.nextRevision⟩ ∧ definition.schedulesValid = true then some .installed
      else runtime.stateOf other := by
  simp only [stateOf, insertRevision_lookup]
  split <;> rfl

theorem insertRevision_slotOf (role : Role) :
    (runtime.insertRevision definition).slotOf other role =
      if other = ⟨runtime.nextRevision⟩ ∧ definition.schedulesValid = true then
        if role = .connections then
          some ⟨runtime.nextToken, ⟨runtime.nextRevision⟩, .connections⟩
        else none
      else runtime.slotOf other role := by
  simp only [slotOf, insertRevision_lookup]
  split
  · cases role <;> rfl
  · rfl

end

section

variable (count : Nat)

theorem work_stateOf : (runtime.work id count).stateOf other = runtime.stateOf other := by
  simp only [stateOf, work, lookup_modify]
  split
  · rename_i same
    rw [same, Option.map_map]
    rfl
  · rfl

theorem work_slotOf (role : Role) :
    (runtime.work id count).slotOf other role = runtime.slotOf other role := by
  simp only [slotOf, work, lookup_modify]
  split
  · rename_i same
    rw [same]
    cases runtime.arena.lookup id with
    | none => rfl
    | some => cases role <;> rfl
  · rfl

end

section

def starts (role : Role) : Bool := runtime.config.enables role && runtime.runs id role

structure Started (id : RevisionId) (before after : Runtime) : Prop where
  states : ∀ other, after.stateOf other = before.stateOf other
  others : ∀ other, other ≠ id → ∀ role, after.slotOf other role = before.slotOf other role
  connections : after.slotOf id .connections = before.slotOf id .connections
  definitions : ∀ other, after.definitionOf other = before.definitionOf other
  held : after.held = before.held
  active : after.active = before.active
  config : after.config = before.config
  cancelled : after.cancelled = before.cancelled
  issued : before.nextToken ≤ after.nextToken
  schedulersKept : ∀ token ∈ before.schedulers, token ∈ after.schedulers
  schedulersOnly : ∀ token ∈ after.schedulers, token ∈ before.schedulers ∨
    (token.revision = id ∧ before.nextToken ≤ token.serial ∧ before.starts id token.role = true)

theorem Started.refl : Started id runtime runtime where
  states := fun _ => rfl
  others := fun _ _ _ => rfl
  connections := rfl
  definitions := fun _ => rfl
  held := rfl
  active := rfl
  config := rfl
  cancelled := rfl
  issued := le_rfl
  schedulersKept := fun _ member => member
  schedulersOnly := fun _ member => .inl member

variable {runtime id} in
theorem Started.trans {middle after : Runtime} (first : Started id runtime middle)
    (second : Started id middle after) : Started id runtime after where
  states := fun other => (second.states other).trans (first.states other)
  others := fun other different role =>
    (second.others other different role).trans (first.others other different role)
  connections := second.connections.trans first.connections
  definitions := fun other => (second.definitions other).trans (first.definitions other)
  held := second.held.trans first.held
  active := second.active.trans first.active
  config := second.config.trans first.config
  cancelled := second.cancelled.trans first.cancelled
  issued := le_trans first.issued second.issued
  schedulersKept := fun token member => second.schedulersKept token (first.schedulersKept token member)
  schedulersOnly := by
    intro token member
    rcases second.schedulersOnly token member with old | ⟨owner, serial, enabled⟩
    · exact first.schedulersOnly token old
    · refine .inr ⟨owner, le_trans first.issued serial, ?_⟩
      rw [starts, runs, first.config, first.definitions] at enabled
      exact enabled

theorem startScheduler_started (role : Role) (scheduler : role ≠ .connections)
    (enabled : runtime.config.enables role = true) :
    Started id runtime (runtime.startScheduler role id) := by
  have frame := startScheduler_frame runtime id role
  refine
    { states := fun other => startScheduler_stateOf runtime id other role
      others := ?_
      connections := ?_
      definitions := fun other => startScheduler_definitionOf runtime id other role
      held := frame.1
      active := frame.2.1
      config := frame.2.2.1
      cancelled := frame.2.2.2.1
      issued := startScheduler_nextToken runtime id role
      schedulersKept := ?_
      schedulersOnly := ?_ }
  · intro other different slot
    rw [startScheduler_slotOf _ _ _ _ scheduler, if_neg (fun all => different all.1)]
  · rw [startScheduler_slotOf _ _ _ _ scheduler, if_neg (fun all => scheduler all.2.1.symm)]
  · intro token member
    exact (startScheduler_schedulers runtime id role token).mpr (.inl member)
  · intro token member
    rcases (startScheduler_schedulers runtime id role token).mp member with old | ⟨running, rfl⟩
    · exact .inl old
    · exact .inr ⟨rfl, le_rfl, by simp only [starts, enabled, running, Bool.and_self]⟩

theorem startCron_started : Started id runtime (runtime.startCron id) := by
  unfold startCron
  split
  · rename_i enabled
    exact startScheduler_started runtime id .cron (by decide) enabled
  · exact Started.refl runtime id

theorem startServices_started : Started id runtime (runtime.startServices id) := by
  unfold startServices
  split
  · rename_i enabled
    exact startScheduler_started runtime id .service (by decide) enabled
  · exact Started.refl runtime id

theorem startQueue_started : Started id runtime (runtime.startQueue id) := by
  unfold startQueue
  split
  · rename_i enabled
    exact startScheduler_started runtime id .queue (by decide) enabled
  · exact Started.refl runtime id

theorem startSchedulers_started : Started id runtime (runtime.startSchedulers id) :=
  ((startCron_started runtime id).trans (startServices_started _ id)).trans
    (startQueue_started _ id)

theorem startSchedulers_starts (role : Role) (enabled : runtime.config.enables role = true) :
    ∃ before, Started id runtime before ∧
      (runtime.startSchedulers id).slotOf id role =
        (before.startScheduler role id).slotOf id role ∧
      (∀ token ∈ (before.startScheduler role id).schedulers,
        token ∈ (runtime.startSchedulers id).schedulers) := by
  have cron := startCron_started runtime id
  have services := cron.trans (startServices_started (runtime.startCron id) id)
  have untouched : ∀ (before : Runtime) (other : Role) (on : Bool), other ≠ .connections →
      role ≠ other → (if on then before.startScheduler other id else before).slotOf id role =
        before.slotOf id role := by
    intro before other on scheduler different
    cases on with
    | false => rfl
    | true =>
      simp only [if_true]
      rw [startScheduler_slotOf _ _ _ _ scheduler, if_neg (fun all => different all.2.1)]
  cases role with
  | connections => cases enabled
  | cron =>
    have on : runtime.config.cronScheduler = true := enabled
    refine ⟨runtime, Started.refl runtime id, ?_, ?_⟩
    · rw [startSchedulers, startQueue, untouched _ _ _ (by decide) (by decide), startServices,
        untouched _ _ _ (by decide) (by decide), startCron, if_pos on]
    · intro token member
      apply (startQueue_started _ id).schedulersKept
      apply (startServices_started _ id).schedulersKept
      rw [startCron, if_pos on]
      exact member
  | service =>
    have on : (runtime.startCron id).config.services = true := by
      rw [cron.config]
      exact enabled
    refine ⟨runtime.startCron id, cron, ?_, ?_⟩
    · rw [startSchedulers, startQueue, untouched _ _ _ (by decide) (by decide), startServices,
        if_pos on]
    · intro token member
      apply (startQueue_started _ id).schedulersKept
      rw [startServices, if_pos on]
      exact member
  | queue =>
    have on : ((runtime.startCron id).startServices id).config.queueConsumers = true := by
      rw [services.config]
      exact enabled
    refine ⟨(runtime.startCron id).startServices id, services, ?_, ?_⟩ <;>
      rw [startSchedulers, startQueue, if_pos on]
    exact fun token member => member

theorem startSchedulers_schedulers (role : Role) (starting : runtime.starts id role = true) :
    ∃ token ∈ (runtime.startSchedulers id).schedulers,
      token.revision = id ∧ runtime.nextToken ≤ token.serial := by
  obtain ⟨enabled, running⟩ := Bool.and_eq_true_iff.mp starting
  obtain ⟨before, reached, _, members⟩ := startSchedulers_starts runtime id role enabled
  have running : before.runs id role = true := by
    rw [runs, reached.definitions]
    exact running
  have added := (startScheduler_schedulers before id role _).mpr (.inr ⟨running, rfl⟩)
  exact ⟨⟨before.nextToken, id, role⟩, members _ added, rfl, reached.issued⟩

theorem startSchedulers_slotOf (role : Role) (enabled : runtime.config.enables role = true)
    (kept : runtime.keeps id role = true) :
    ∃ token, (runtime.startSchedulers id).slotOf id role = some token ∧
      runtime.nextToken ≤ token.serial := by
  obtain ⟨before, reached, slot, _⟩ := startSchedulers_starts runtime id role enabled
  have scheduler : role ≠ .connections := by
    rintro rfl
    cases enabled
  have keeps : before.keeps id role = true := by
    rw [keeps, reached.definitions]
    exact kept
  refine ⟨⟨before.nextToken, id, role⟩, ?_, reached.issued⟩
  rw [slot, startScheduler_slotOf _ _ _ _ scheduler, if_pos ⟨rfl, rfl, keeps⟩]

variable (previous : Option RevisionId)

theorem demoted_eq_some (old : RevisionId) :
    runtime.demoted id previous = some old ↔
      previous = some old ∧ old ≠ id ∧ (runtime.revision old).isSome := by
  simp only [demoted, filter_eq_some_iff, decide_eq_true_eq]

theorem finishActivation_stateOf :
    (runtime.finishActivation id previous).stateOf other =
      if runtime.demoted id previous = some other then
        (runtime.stateOf other).map (fun _ => .draining)
      else runtime.stateOf other := by
  unfold finishActivation
  cases found : runtime.demoted id previous with
  | none => simp [(startSchedulers_started runtime id).states]
  | some old =>
    simp only [setState_stateOf, (startSchedulers_started runtime id).states, some.injEq]
    by_cases same : other = old
    · rw [if_pos same, if_pos same.symm, same]
    · rw [if_neg same, if_neg (Ne.symm same)]

variable {Field : Type} {field : Runtime → Field}
  (states : ∀ runtime id state, field (setState runtime id state) = field runtime)

include states in
theorem finishActivation_field :
    field (runtime.finishActivation id previous) = field (runtime.startSchedulers id) := by
  unfold finishActivation
  split
  · exact states _ _ _
  · rfl

theorem finishActivation_held : (runtime.finishActivation id previous).held = runtime.held :=
  (finishActivation_field runtime id previous setState_held).trans
    (startSchedulers_started runtime id).held

theorem finishActivation_active :
    (runtime.finishActivation id previous).active = runtime.active :=
  (finishActivation_field runtime id previous setState_active).trans
    (startSchedulers_started runtime id).active

end

theorem clearActive_stateOf : (runtime.clearActive id).stateOf other = runtime.stateOf other := by
  unfold clearActive
  split <;> rfl

theorem beginDrain_stateOf :
    (runtime.beginDrain id).stateOf other =
      if other = id ∧ runtime.stateOf id = some .active then some .draining
      else runtime.stateOf other := by
  have stops : (runtime.beginDrain id).stateOf other =
      ((runtime.clearActive id).markDraining id).stateOf other := rfl
  rw [stops, markDraining, clearActive_stateOf]
  by_cases active : runtime.stateOf id = some .active
  · rw [if_pos active, setState_stateOf, clearActive_stateOf, clearActive_stateOf, active]
    simp only [map_some, and_true]
  · rw [if_neg active, if_neg (fun both => active both.2), clearActive_stateOf]

theorem clearActive_slotOf (role : Role) :
    (runtime.clearActive id).slotOf other role = runtime.slotOf other role := by
  unfold clearActive
  split <;> rfl

theorem clearActive_cancelled : (runtime.clearActive id).cancelled = runtime.cancelled := by
  unfold clearActive
  split <;> rfl

theorem beginDrain_field {Field : Type} {field : Runtime → Field}
    (states : ∀ runtime id state, field (setState runtime id state) = field runtime)
    (stops : ∀ runtime id, field (stopServices runtime id) = field runtime) :
    field (runtime.beginDrain id) = field (runtime.clearActive id) := by
  rw [beginDrain, stops, markDraining]
  split
  · exact states _ _ _
  · rfl

theorem beginDrain_schedulers : (runtime.beginDrain id).schedulers = runtime.schedulers := by
  rw [beginDrain_field runtime id setState_schedulers (fun _ _ => rfl), clearActive]
  split <;> rfl

/-- An active revision's slots are all stopped by the drain's first segment;
of any other revision only the supervisor is. -/
theorem beginDrain_cancelled (token : Token) :
    token ∈ (runtime.beginDrain id).cancelled ↔
      token ∈ runtime.cancelled ∨
        ∃ role, (runtime.stateOf id = some .active ∨ role = .service) ∧
          runtime.slotOf id role = some token := by
  have service : ((runtime.clearActive id).markDraining id).slotOf id .service =
      runtime.slotOf id .service := by
    rw [markDraining]
    split
    · rw [setState_slotOf_kept _ _ _ _ _ (.inl rfl), clearActive_slotOf]
    · exact clearActive_slotOf runtime id id .service
  have stops : token ∈ (runtime.beginDrain id).cancelled ↔
      runtime.slotOf id .service = some token ∨
        token ∈ ((runtime.clearActive id).markDraining id).cancelled := by
    simp only [beginDrain, stopServices, cancel, service, mem_append, mem_toList]
  rw [stops, markDraining, clearActive_stateOf]
  by_cases active : runtime.stateOf id = some .active
  · rw [if_pos active, setState_cancelled, clearActive_cancelled]
    simp only [clearActive_slotOf, active, true_or, true_and]
    constructor
    · rintro (present | old | ⟨_, role, _, present⟩)
      · exact .inr ⟨.service, present⟩
      · exact .inl old
      · exact .inr ⟨role, present⟩
    · rintro (old | ⟨role, present⟩)
      · exact .inr (.inl old)
      · by_cases isService : role = .service
        · exact .inl (isService ▸ present)
        · exact .inr (.inr ⟨rfl, role, isService, present⟩)
  · rw [if_neg active, clearActive_cancelled]
    simp only [active, false_or, exists_eq_left]
    exact or_comm

theorem beginDrain_held : (runtime.beginDrain id).held = runtime.held := by
  rw [beginDrain_field runtime id setState_held (fun _ _ => rfl), clearActive]
  split <;> rfl

theorem beginDrain_active :
    (runtime.beginDrain id).active = if runtime.active = some id then none else runtime.active := by
  rw [beginDrain_field runtime id setState_active (fun _ _ => rfl), clearActive]
  split <;> simp_all

end Runtime

variable {runtime : Runtime}

theorem stateOf_of_revision {id : RevisionId} {revision : Revision}
    (found : runtime.revision id = some revision) : runtime.stateOf id = some revision.state := by
  obtain ⟨_, found⟩ := ite_none_right_eq_some.mp found
  rw [stateOf, found, map_some]

def Runtime.leaves (runtime : Runtime) (id : RevisionId) : Prop :=
  ∃ state, runtime.stateOf id = some state ∧ state.leaving = true

theorem leaves_setState (runtime : Runtime) (id other : RevisionId) (state : RevisionState) :
    (runtime.setState id state).leaves other ↔
      if other = id then (∃ old, runtime.stateOf id = some old) ∧ state.leaving = true
      else runtime.leaves other := by
  simp only [leaves, setState_stateOf]
  split
  · constructor
    · rintro ⟨_, changed, leaving⟩
      rw [map_eq_some_iff] at changed
      obtain ⟨old, present, rfl⟩ := changed
      exact ⟨⟨old, present⟩, leaving⟩
    · rintro ⟨⟨_, present⟩, leaving⟩
      exact ⟨state, by rw [present, map_some], leaving⟩
  · exact Iff.rfl

theorem stateOf_of_slotOf {id : RevisionId}
    (present : runtime.slotOf id role = some token) : ∃ state, runtime.stateOf id = some state := by
  rw [slotOf, bind_eq_some_iff] at present
  obtain ⟨revision, found, _⟩ := present
  exact ⟨revision.state, by rw [stateOf, found, map_some]⟩

structure KeptByParts (property : Runtime → Prop) : Prop where
  state : ∀ runtime id state, property runtime → property (runtime.setState id state)
  schedulers : ∀ runtime id, property runtime → property (runtime.startSchedulers id)
  active : ∀ (runtime : Runtime) active, property runtime →
    property { runtime with active := active }
  services : ∀ runtime id, property runtime → property (runtime.stopServices id)
  held : ∀ runtime id, property runtime → property (runtime.unhold id)
  work : ∀ runtime id count, property runtime → property (runtime.work id count)

theorem KeptByParts.apply {property : Runtime → Prop} (kept : KeptByParts property)
    (holds : property runtime)
    (inserted : ∀ definition, property (runtime.insertRevision definition)) (effect : Effect) :
    property (effect.apply runtime) := by
  cases effect with
  | none => exact holds
  | insertRevision definition => exact inserted definition
  | swap id => exact kept.active _ (some id) (kept.state runtime id .active holds)
  | finishActivation id _ =>
    have started := kept.schedulers runtime id holds
    simp only [Effect.apply, finishActivation]
    split
    · exact kept.state _ _ .draining started
    · exact started
  | beginDrain id =>
    have cleared : property (runtime.clearActive id) := by
      unfold clearActive
      split
      · exact kept.active runtime none holds
      · exact holds
    have marked : property ((runtime.clearActive id).markDraining id) := by
      unfold markDraining
      split
      · exact kept.state _ id .draining cleared
      · exact cleared
    exact kept.services _ id marked
  | stopServices id => exact kept.services runtime id holds
  | retire id => exact kept.held _ id (kept.state runtime id .retired holds)
  | unhold id => exact kept.held runtime id holds
  | work id count => exact kept.work runtime id count holds

theorem apply_active (runtime : Runtime) (effect : Effect) (swaps : ∀ id, effect ≠ .swap id)
    (drains : ∀ id, effect ≠ .beginDrain id) : (effect.apply runtime).active = runtime.active := by
  cases effect with
  | swap id => exact absurd rfl (swaps id)
  | beginDrain id => exact absurd rfl (drains id)
  | insertRevision definition => exact insertRevision_active runtime definition
  | finishActivation id previous => exact finishActivation_active runtime id previous
  | retire id => exact setState_active runtime id .retired
  | _ => rfl

end Usai.Revisions
