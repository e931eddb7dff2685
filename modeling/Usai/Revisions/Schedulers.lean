import Usai.Revisions.Wellformed

/-! Cron, queue and service schedulers against the state of the revision they
were started for. `set_state` cancels the tokens in the cron and queue slots
only, and an activation starts its schedulers after its last await. -/

namespace Usai.Revisions

open Effect Usai.Revisions.Runtime

/-- No scheduler of a draining or retired revision runs un-stopped. -/
def Quiet (runtime : Runtime) : Prop :=
  ∀ token ∈ runtime.schedulers, runtime.leaves token.revision → token ∈ runtime.cancelled

def Runtime.reached (runtime : Runtime) (id : RevisionId) : Prop :=
  ∀ token ∈ runtime.schedulers, token.revision = id → token ∉ runtime.cancelled →
    token.role ≠ .service ∧ runtime.slotOf id token.role = some token

def Runtime.slotted (runtime : Runtime) (id : RevisionId) : Prop :=
  ∀ token ∈ runtime.schedulers, token.revision = id → token ∉ runtime.cancelled →
    runtime.slotOf id token.role = some token

/-- What the write has to find: an activation that resumes, a revision that
has not begun to leave; a demotion or a retirement, schedulers that
`set_state` reaches; a drain, which also stops the services, schedulers whose
tokens are all in their slots. -/
def Effect.Stoppable (runtime : Runtime) : Effect → Prop
  | .finishActivation id previous =>
    ((∃ role, runtime.starts id role = true) → ¬ runtime.leaves id) ∧
      ∀ old, runtime.demoted id previous = some old → runtime.reached old
  | .beginDrain id => runtime.stateOf id = some .active → runtime.slotted id
  | .retire id => runtime.reached id
  | _ => True

def Stoppable (system : System) (label : Label) : Prop :=
  (system.effectOf label).Stoppable system.runtime

theorem new_quiet (config : Config) : Quiet (new config) := by
  intro token member
  cases member

section

variable {runtime : Runtime} {state : RevisionState}

theorem quiet_of_same (quiet : Quiet runtime) {next : Runtime}
    (schedulers : next.schedulers = runtime.schedulers)
    (cancelled : ∀ token ∈ runtime.cancelled, token ∈ next.cancelled)
    (leaves : ∀ token ∈ runtime.schedulers, next.leaves token.revision →
      runtime.leaves token.revision) : Quiet next := by
  intro token member leaving
  rw [schedulers] at member
  exact cancelled token (quiet token member (leaves token member leaving))

theorem setState_quiet (wellformed : Wellformed runtime) (quiet : Quiet runtime)
    (leaving : state.leaving = true) (id : RevisionId) :
    Quiet (runtime.setState id state) ↔ runtime.reached id := by
  constructor
  · intro after token member owner running
    have leaves : (runtime.setState id state).leaves token.revision := by
      obtain ⟨revision, found⟩ := wellformed.schedulersRecorded token member
      rw [leaves_setState, if_pos owner, ← owner]
      exact ⟨⟨revision.state, by rw [stateOf, found, Option.map_some]⟩, leaving⟩
    have cancelled := after token (by rw [setState_schedulers]; exact member) leaves
    rw [setState_cancelled] at cancelled
    obtain ⟨_, role, notService, present⟩ := cancelled.resolve_left running
    have made := (wellformed.slotted id role token present).2.1
    rw [made]
    exact ⟨notService, present⟩
  · intro reached token member leaves
    rw [setState_schedulers] at member
    rw [setState_cancelled]
    by_cases stopped : token ∈ runtime.cancelled
    · exact .inl stopped
    · by_cases owner : token.revision = id
      · obtain ⟨notService, present⟩ := reached token member owner stopped
        exact .inr ⟨leaving, token.role, notService, present⟩
      · rw [leaves_setState, if_neg owner] at leaves
        exact .inl (quiet token member leaves)

theorem swap_quiet (quiet : Quiet runtime) (id : RevisionId) : Quiet (runtime.swap id) := by
  apply quiet_of_same quiet (setState_schedulers runtime id .active)
  · intro token member
    exact (setState_cancelled runtime id .active token).mpr (.inl member)
  · intro token _ leaves
    have after : (runtime.setState id .active).leaves token.revision := leaves
    rw [leaves_setState] at after
    split at after
    · cases after.2
    · exact after

theorem stopServices_quiet (quiet : Quiet runtime) (id : RevisionId) :
    Quiet (runtime.stopServices id) := by
  have schedulers : (runtime.stopServices id).schedulers = runtime.schedulers := rfl
  apply quiet_of_same quiet schedulers
  · intro token member
    exact List.mem_append_right _ member
  · intro token _ leaves
    exact leaves

theorem work_quiet (quiet : Quiet runtime) (id : RevisionId) (count : Nat) :
    Quiet (runtime.work id count) := by
  have schedulers : (runtime.work id count).schedulers = runtime.schedulers := rfl
  apply quiet_of_same quiet schedulers
  · intro token member
    exact member
  · rintro _ _ ⟨state, found, leaving⟩
    rw [work_stateOf] at found
    exact ⟨state, found, leaving⟩

theorem insertRevision_quiet (quiet : Quiet runtime) (definition : Definition) :
    Quiet (runtime.insertRevision definition) := by
  apply quiet_of_same quiet (insertRevision_schedulers runtime definition)
  · intro token member
    rw [insertRevision_cancelled]
    exact member
  · rintro _ _ ⟨state, found, leaving⟩
    rw [insertRevision_stateOf] at found
    split at found
    · cases found
      cases leaving
    · exact ⟨state, found, leaving⟩

section

variable (wellformed : Wellformed runtime)
include wellformed

theorem beginDrain_quiet (quiet : Quiet runtime) (id : RevisionId) :
    Quiet (runtime.beginDrain id) ↔ (beginDrain id).Stoppable runtime := by
  have leaves : ∀ other, (runtime.beginDrain id).leaves other ↔
      (other = id ∧ runtime.stateOf id = some .active) ∨ runtime.leaves other := by
    intro other
    simp only [leaves, beginDrain_stateOf]
    split
    · rename_i here
      exact iff_of_true ⟨.draining, rfl, rfl⟩ (.inl here)
    · rename_i elsewhere
      exact ⟨.inr, fun either => either.resolve_left elsewhere⟩
  constructor
  · intro after isActive token member owner running
    have cancelled := after token (by rw [beginDrain_schedulers]; exact member)
      ((leaves token.revision).mpr (.inl ⟨owner, isActive⟩))
    rw [beginDrain_cancelled] at cancelled
    obtain ⟨role, _, present⟩ := cancelled.resolve_left running
    have made := (wellformed.slotted id role token present).2.1
    rw [made]
    exact present
  · intro slotted token member leaving
    rw [beginDrain_schedulers] at member
    rw [beginDrain_cancelled]
    by_cases stopped : token ∈ runtime.cancelled
    · exact .inl stopped
    · rcases (leaves token.revision).mp leaving with ⟨owner, isActive⟩ | already
      · exact .inr ⟨token.role, .inl isActive, slotted isActive token member owner stopped⟩
      · exact absurd (quiet token member already) stopped

theorem startSchedulers_quiet (quiet : Quiet runtime) (id : RevisionId) :
    Quiet (runtime.startSchedulers id) ↔
      ((∃ role, runtime.starts id role = true) → ¬ runtime.leaves id) := by
  have started := startSchedulers_started runtime id
  have leaves : ∀ other, (runtime.startSchedulers id).leaves other ↔ runtime.leaves other := by
    intro other
    simp only [leaves, started.states]
  constructor
  · rintro after ⟨role, starting⟩ leaving
    obtain ⟨token, member, owner, _⟩ :=
      startSchedulers_schedulers runtime id role starting
    have cancelled := after token member (by rw [leaves, owner]; exact leaving)
    rw [started.cancelled] at cancelled
    have issued := wellformed.cancelledIssued token cancelled
    omega
  · intro stays token member leaving
    rw [started.cancelled]
    rw [leaves] at leaving
    rcases started.schedulersOnly token member with old | ⟨owner, _, starting⟩
    · exact quiet token old leaving
    · rw [owner] at leaving
      exact absurd leaving (stays ⟨token.role, starting⟩)

theorem quiet_before_setState (id : RevisionId)
    (own : ∀ token ∈ runtime.schedulers, token.revision = id → runtime.leaves id →
      token ∈ runtime.cancelled)
    (after : Quiet (runtime.setState id state)) : Quiet runtime := by
  intro token member leaves
  by_cases owner : token.revision = id
  · exact own token member owner (owner ▸ leaves)
  · have cancelled := after token (by rw [setState_schedulers]; exact member)
      ((leaves_setState runtime id token.revision state).mpr (by rw [if_neg owner]; exact leaves))
    rw [setState_cancelled] at cancelled
    rcases cancelled with stopped | ⟨_, role, _, present⟩
    · exact stopped
    · exact absurd (wellformed.slotted id role token present).1 owner

theorem finishActivation_quiet (quiet : Quiet runtime)
    (id : RevisionId) (previous : Option RevisionId) :
    Quiet (runtime.finishActivation id previous) ↔
      (finishActivation id previous).Stoppable runtime := by
  have started := startSchedulers_started runtime id
  have wellStarted := wellformed.startSchedulers id
  have quietStarted := startSchedulers_quiet wellformed quiet id
  unfold Runtime.finishActivation Effect.Stoppable
  cases demoted : runtime.demoted id previous with
  | none => simp only [quietStarted, demoted, reduceCtorEq, false_implies, implies_true, and_true]
  | some old =>
    have different := ((demoted_eq_some runtime id previous old).mp demoted).2.1
    -- the activated revision's new schedulers are none of the demoted one's
    have others : ∀ token, token.revision = old →
        (token ∈ (runtime.startSchedulers id).schedulers ↔ token ∈ runtime.schedulers) := by
      intro token owner
      constructor
      · intro member
        rcases started.schedulersOnly token member with known | ⟨mine, _⟩
        · exact known
        · exact absurd (owner.symm.trans mine) different
      · exact started.schedulersKept token
    have reached : (runtime.startSchedulers id).reached old ↔ runtime.reached old := by
      simp only [reached, started.cancelled, started.others old different]
      exact forall_congr' fun token =>
        ⟨fun holds member owner => holds ((others token owner).mpr member) owner,
          fun holds member owner => holds ((others token owner).mp member) owner⟩
    simp only [demoted, Option.some.injEq, forall_eq']
    constructor
    · intro after
      have before : Quiet (runtime.startSchedulers id) := by
        apply quiet_before_setState wellStarted old _ after
        rintro token member owner ⟨state, found, leaving⟩
        rw [started.cancelled]
        refine quiet token ((others token owner).mp member) ⟨state, ?_, leaving⟩
        rw [owner, ← started.states, found]
      exact ⟨quietStarted.mp before, reached.mp ((setState_quiet wellStarted before rfl old).mp after)⟩
    · rintro ⟨stays, reaches⟩
      exact (setState_quiet wellStarted (quietStarted.mpr stays) rfl old).mpr (reached.mpr reaches)

end

end

theorem step_quiet (system : System) (label : Label) (next : System)
    (wellformed : Wellformed system.runtime) (quiet : Quiet system.runtime)
    (taken : system.step label = some next) :
    Quiet next.runtime ↔ Stoppable system label := by
  rw [(step_inversion taken).2, Stoppable]
  cases system.effectOf label with
  | none | unhold => exact iff_of_true quiet trivial
  | insertRevision definition => exact iff_of_true (insertRevision_quiet quiet definition) trivial
  | swap id => exact iff_of_true (swap_quiet quiet id) trivial
  | finishActivation id previous => exact finishActivation_quiet wellformed quiet id previous
  | beginDrain id => exact beginDrain_quiet wellformed quiet id
  | stopServices id => exact iff_of_true (stopServices_quiet quiet id) trivial
  | retire id => exact setState_quiet wellformed quiet rfl id
  | work id count => exact iff_of_true (work_quiet quiet id count) trivial

/-- From the empty runtime, no scheduler of a leaving revision runs un-stopped
in any state of a run exactly when every write of the run can stop what it
has to. -/
theorem schedulers_stopped (config : Config) (labels : List Label) :
    Transition.Along System.step (fun system => Quiet system.runtime) (System.new config) labels ↔
      Transition.Meets System.step Stoppable (System.new config) labels :=
  Transition.along_iff_meets step_wellformed step_quiet (Wellformed.new config)
    (new_quiet config) labels

def demotedWhileWarming : List Label :=
  [.install ⟨"app", [⟨"cron:tick", .cron, none⟩], true⟩, .resume 0 .done,
   .install ⟨"app", [⟨"cron:tick", .cron, none⟩], true⟩, .resume 1 .done,
   .activate ⟨1⟩, .resume 2 .done,
   .activate ⟨2⟩, .resume 3 .done, .resume 3 .done,
   .resume 4 .done, .resume 4 .done, .resume 4 .done,
   .resume 2 .done]

/-- The activation then starts the cron scheduler of a retired revision. All
calls have returned, and no call will cancel its token. -/
theorem cron_started_after_retirement :
    ∃ final, Transition.exec System.step (System.new ⟨4, true, false, false⟩)
        demotedWhileWarming = some final ∧
      final.calls = [.returned (.installed ⟨1⟩), .returned (.installed ⟨2⟩),
        .returned (.activated ⟨1⟩), .returned (.activated ⟨2⟩), .returned .ended] ∧
      final.runtime.stateOf ⟨1⟩ = some .retired ∧ final.runtime.held = [⟨2⟩] ∧
      (⟨3, ⟨1⟩, .cron⟩ : Token) ∈ final.runtime.schedulers ∧
      (⟨3, ⟨1⟩, .cron⟩ : Token) ∉ final.runtime.cancelled ∧ ¬ Quiet final.runtime := by
  refine ⟨_, rfl, rfl, rfl, rfl, by decide, by decide, ?_⟩
  intro quiet
  have stopped := quiet ⟨3, ⟨1⟩, .cron⟩ (by decide) ⟨.retired, rfl, rfl⟩
  revert stopped
  decide

end Usai.Revisions
