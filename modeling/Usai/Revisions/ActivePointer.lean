import Usai.Revisions.Wellformed

/-! The `active` pointer against the states in the table, over every
interleaving of the runtime's calls. -/

namespace Usai.Revisions

open Effect Usai.Revisions.Runtime

def OneActive (runtime : Runtime) : Prop :=
  (∀ id, runtime.active = some id → id ∈ runtime.held ∧ runtime.stateOf id = some .active) ∧
    ∀ id ∈ runtime.held, runtime.stateOf id = some .active → runtime.active = some id

/-- What the write has to find for the pointer to stay right: the swap a held
revision and no other active one, the demotion and the retirement a revision
that is not the active one. The code checks none of these where it writes,
except the retirement in the background. -/
def Effect.Undisturbed (runtime : Runtime) : Effect → Prop
  | .swap id =>
    id ∈ runtime.held ∧ ∀ other ∈ runtime.held, other ≠ id → runtime.stateOf other ≠ some .active
  | .finishActivation id previous =>
    ∀ old, runtime.demoted id previous = some old → runtime.active ≠ some old
  | .retire id => runtime.active ≠ some id
  | _ => True

def Undisturbed (system : System) (label : Label) : Prop :=
  (system.effectOf label).Undisturbed system.runtime

theorem new_oneActive (config : Config) : OneActive (new config) := by
  constructor
  · intro id named
    cases named
  · intro id member
    cases member

section

variable {runtime : Runtime}

theorem swap_oneActive (wellformed : Wellformed runtime) (id : RevisionId) :
    OneActive (runtime.swap id) ↔ (swap id).Undisturbed runtime := by
  have states : ∀ other, (runtime.swap id).stateOf other =
      if other = id then (runtime.stateOf id).map (fun _ => .active) else runtime.stateOf other :=
    fun other => setState_stateOf runtime id other .active
  have held : (runtime.swap id).held = runtime.held := setState_held runtime id .active
  have active : (runtime.swap id).active = some id := rfl
  simp only [OneActive, Effect.Undisturbed, held, active, Option.some.injEq]
  constructor
  · rintro ⟨named, sole⟩
    refine ⟨(named id rfl).1, ?_⟩
    intro other member different found
    have same := sole other member (by rw [states, if_neg different, found])
    exact different same.symm
  · rintro ⟨member, alone⟩
    obtain ⟨_, recorded⟩ := wellformed.recorded id member
    constructor
    · rintro other rfl
      refine ⟨member, ?_⟩
      rw [states, if_pos rfl, stateOf, recorded]
      rfl
    · intro other present found
      by_contra different
      rw [states, if_neg (Ne.symm different)] at found
      exact alone other present (Ne.symm different) found

section

variable (good : OneActive runtime)
include good

theorem oneActive_of_same {next : Runtime}
    (active : next.active = runtime.active) (held : next.held = runtime.held)
    (states : ∀ id ∈ runtime.held,
      (next.stateOf id = some .active ↔ runtime.stateOf id = some .active)) :
    OneActive next := by
  rw [OneActive, active, held]
  constructor
  · intro id named
    obtain ⟨member, found⟩ := good.1 id named
    exact ⟨member, (states id member).mpr found⟩
  · intro id member found
    exact good.2 id member ((states id member).mp found)

theorem finishActivation_oneActive (id : RevisionId) (previous : Option RevisionId) :
    OneActive (runtime.finishActivation id previous) ↔
      (finishActivation id previous).Undisturbed runtime := by
  have states := fun other => finishActivation_stateOf runtime id other previous
  constructor
  · rintro ⟨named, _⟩ old demoted isActive
    have found := (named old (by rw [finishActivation_active, isActive])).2
    rw [states, if_pos demoted, Option.map_eq_some_iff] at found
    obtain ⟨_, _, clash⟩ := found
    cases clash
  · intro undisturbed
    apply oneActive_of_same good (finishActivation_active runtime id previous)
      (finishActivation_held runtime id previous)
    intro other member
    rw [states]
    split
    · rename_i demoted
      -- the demoted revision was not active: the pointer would have named it
      have inactive : runtime.stateOf other ≠ some .active := by
        intro found
        exact undisturbed other demoted (good.2 other member found)
      constructor
      · intro found
        rw [Option.map_eq_some_iff] at found
        obtain ⟨_, _, clash⟩ := found
        cases clash
      · intro found
        exact absurd found inactive
    · exact Iff.rfl

theorem beginDrain_oneActive (id : RevisionId) :
    OneActive (runtime.beginDrain id) := by
  have states := fun other => beginDrain_stateOf runtime id other
  rw [OneActive, beginDrain_active, beginDrain_held]
  constructor
  · intro other named
    have pointer : runtime.active = some other ∧ other ≠ id := by
      split at named
      · cases named
      · rename_i different
        refine ⟨named, ?_⟩
        rintro rfl
        exact different named
    obtain ⟨member, found⟩ := good.1 other pointer.1
    exact ⟨member, by rw [states, if_neg (fun both => pointer.2 both.1), found]⟩
  · intro other member found
    rw [states] at found
    split at found
    · cases found
    · rename_i different
      have pointer := good.2 other member found
      rw [if_neg]
      · exact pointer
      · intro sameId
        rw [sameId, Option.some.injEq] at pointer
        subst other
        exact different ⟨rfl, found⟩

theorem oneActive_without (id : RevisionId) {next : Runtime} (active : next.active = runtime.active)
    (held : ∀ other, other ∈ next.held ↔ other ∈ runtime.held ∧ other ≠ id)
    (states : ∀ other, other ≠ id → next.stateOf other = runtime.stateOf other) :
    OneActive next ↔ runtime.active ≠ some id := by
  rw [OneActive, active]
  constructor
  · rintro ⟨named, _⟩ isActive
    exact ((held id).mp (named id isActive).1).2 rfl
  · intro different
    constructor
    · intro other named
      obtain ⟨member, found⟩ := good.1 other named
      have apart : other ≠ id := by
        rintro rfl
        exact different named
      exact ⟨(held other).mpr ⟨member, apart⟩, (states other apart).trans found⟩
    · intro other member found
      obtain ⟨present, apart⟩ := (held other).mp member
      exact good.2 other present ((states other apart).symm.trans found)

theorem unhold_oneActive (id : RevisionId) :
    OneActive (runtime.unhold id) ↔ runtime.active ≠ some id :=
  oneActive_without good id rfl (by simp [Runtime.unhold]) (fun _ _ => rfl)

end

theorem insertRevision_oneActive (wellformed : Wellformed runtime) (good : OneActive runtime)
    (definition : Definition) : OneActive (runtime.insertRevision definition) := by
  have states := fun other => insertRevision_stateOf runtime other definition
  have unheld := wellformed.next_unheld
  rw [OneActive, insertRevision_active, insertRevision_held]
  constructor
  · intro id named
    obtain ⟨member, found⟩ := good.1 id named
    have old : id ≠ ⟨runtime.nextRevision⟩ := by
      rintro rfl
      exact unheld member
    refine ⟨?_, by rw [states, if_neg (fun both => old both.1), found]⟩
    split
    · exact List.mem_append_left _ member
    · exact member
  · intro id member found
    rw [states] at found
    split at found
    · cases found
    · rename_i old
      refine good.2 id ?_ found
      split at member
      · rename_i valid
        rw [List.mem_append, List.mem_singleton] at member
        exact member.resolve_right (fun same => old ⟨same, valid⟩)
      · exact member

end

theorem unhold_inactive {system : System} {label : Label} {id : RevisionId} {calls : List Call}
    (segment : Segment system label (.unhold id) calls) :
    system.runtime.stateOf id ≠ some .active := by
  cases segment with
  | begins _ _ _ begun =>
    cases begun with
    | remove _ _ found unused =>
      rw [stateOf_of_revision found]
      rcases unused with installed | retired
      · simp [installed]
      · simp [retired]
  | resumes _ _ _ _ _ _ resumed => cases resumed

theorem step_oneActive (system : System) (label : Label) (next : System)
    (wellformed : Wellformed system.runtime) (good : OneActive system.runtime)
    (taken : system.step label = some next) :
    OneActive next.runtime ↔ Undisturbed system label := by
  obtain ⟨segment, written⟩ := step_inversion taken
  rw [written, Undisturbed]
  cases writes : system.effectOf label with
  | none | stopServices => exact iff_of_true good trivial
  | insertRevision definition =>
    exact iff_of_true (insertRevision_oneActive wellformed good definition) trivial
  | swap id => exact swap_oneActive wellformed id
  | finishActivation id previous => exact finishActivation_oneActive good id previous
  | beginDrain id => exact iff_of_true (beginDrain_oneActive good id) trivial
  | retire id =>
    exact oneActive_without good id (setState_active _ id .retired)
      (by simp [Effect.apply, Runtime.retire, Runtime.unhold])
      (fun other apart => (setState_stateOf _ id other .retired).trans (if_neg apart))
  | unhold id =>
    have inactive : system.runtime.active ≠ some id := by
      intro named
      rw [writes] at segment
      exact unhold_inactive segment (good.1 id named).2
    exact iff_of_true ((unhold_oneActive good id).mpr inactive) trivial
  | work =>
    refine iff_of_true (oneActive_of_same good rfl rfl ?_) trivial
    intro other _
    rw [apply, work_stateOf]

/-- From the empty runtime, the pointer is right in every state of a run
exactly when every write of the run finds what it needs. -/
theorem active_pointer_sound (config : Config) (labels : List Label) :
    Transition.Along System.step (fun system => OneActive system.runtime)
        (System.new config) labels ↔
      Transition.Meets System.step Undisturbed (System.new config) labels :=
  Transition.along_iff_meets step_wellformed step_oneActive (Wellformed.new config)
    (new_oneActive config) labels

/-- A drain of the first revision starts, the revision is activated again
while the drain waits for its work, and the work settles. -/
def drainOverActivate : List Label :=
  [.install ⟨"app", [], true⟩, .resume 0 .done,
   .activate ⟨1⟩, .resume 1 .done, .resume 1 .done, .work ⟨1⟩ 1,
   .drain ⟨1⟩, .activate ⟨1⟩, .resume 3 .done, .resume 3 .done,
   .work ⟨1⟩ 0, .resume 2 .done, .resume 2 .done]

/-- The drain retires and removes the revision that was activated meanwhile:
every call has returned and the pointer names nothing the table holds. -/
theorem drain_removes_active_revision :
    ∃ final, Transition.exec System.step (System.new ⟨4, false, false, false⟩)
        drainOverActivate = some final ∧
      final.runtime.active = some ⟨1⟩ ∧ final.runtime.held = [] ∧
      final.calls = [.returned (.installed ⟨1⟩), .returned (.activated ⟨1⟩), .returned .drained,
        .returned (.activated ⟨1⟩)] ∧
      ¬ OneActive final.runtime := by
  refine ⟨_, rfl, rfl, rfl, rfl, ?_⟩
  rintro ⟨named, _⟩
  have member := (named ⟨1⟩ rfl).1
  cases member

end Usai.Revisions
