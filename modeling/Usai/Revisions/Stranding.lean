import Usai.Revisions.Segments
import Usai.Revisions.Writes

/-! Drains through the control API. The handler refuses to drain the active revision when it
is the only one that is held, whatever the others are doing when there are others. -/

namespace Usai.Revisions

open List Option Transition

def Runtime.Ready (runtime : Runtime) (id : RevisionId) : Prop :=
  id ∈ runtime.held ∧ (runtime.stateOf id = some .installed ∨ runtime.stateOf id = some .active)

def Effect.displaces (runtime : Runtime) : Effect → Option RevisionId
  | .beginDrain id | .retire id | .unhold id => some id
  | .finishActivation id previous => runtime.demoted id previous
  | _ => Option.none

/-- `pending` are the positions of the drains that were accepted for the revision that was
active then and have not returned; `completed` has the runtime at the completion of each. -/
structure Controlled extends System where
  pending : List Nat
  completed : List Runtime

namespace Controlled

def new (config : Config) : Controlled := ⟨System.new config, [], []⟩

variable (controlled : Controlled)

def drainsActive (id : RevisionId) : Bool :=
  controlled.runtime.activeRevision.map Prod.fst == some id

def refuses : Label → Bool
  | .drain id => controlled.drainsActive id && controlled.runtime.held.length == 1
  | _ => false

def awaited : Label → List Nat
  | .drain id =>
    if controlled.drainsActive id then controlled.calls.length :: controlled.pending
    else controlled.pending
  | _ => controlled.pending

def step (label : Label) : Option Controlled :=
  if controlled.refuses label then some controlled
  else
    (controlled.toSystem.step label).map fun next =>
      let awaited := controlled.awaited label
      { toSystem := next
        pending := awaited.filter fun index =>
          match next.calls[index]? with
          | some (.returned _) => false
          | _ => true
        completed := (awaited.filter fun index =>
          next.calls[index]? == some (.returned .drained)).map (fun _ => next.runtime) ++
            controlled.completed }

def Serviceable : Prop := ∀ runtime ∈ controlled.completed, ∃ id, runtime.Ready id

/-- While such a drain is under way, what is taken out of service is not the last revision
that is neither draining nor retired. -/
def Spares (label : Label) : Prop :=
  controlled.refuses label = false → controlled.awaited label ≠ [] →
    ∀ target ∈ (controlled.effectOf label).displaces controlled.runtime,
      ∃ other, other ≠ target ∧ controlled.runtime.Ready other

end Controlled

theorem apply_ready {runtime : Runtime} {effect : Effect} {id : RevisionId}
    (ready : runtime.Ready id) (apart : effect.displaces runtime ≠ some id) :
    (effect.apply runtime).Ready id := by
  obtain ⟨held, state⟩ := ready
  cases effect with
  | none | stopServices => exact ⟨held, state⟩
  | insertRevision =>
    refine ⟨?_, ?_⟩
    · rw [Effect.apply, Runtime.insertRevision_held]
      split
      · exact mem_append_left _ held
      · exact held
    · rw [Effect.apply, Runtime.insertRevision_stateOf]
      split
      · exact .inl rfl
      · exact state
  | swap target =>
    refine ⟨by rwa [Effect.apply, Runtime.swap, Runtime.setState_held], ?_⟩
    have swapped : (runtime.swap target).stateOf id = (runtime.setState target .active).stateOf id :=
      rfl
    rw [Effect.apply, swapped, Runtime.setState_stateOf]
    split
    · rename_i same
      rcases state with state | state <;> exact .inr (by rw [← same, state]; rfl)
    · exact state
  | finishActivation target previous =>
    refine ⟨by rwa [Effect.apply, Runtime.finishActivation_held], ?_⟩
    have stays : ¬ runtime.demoted target previous = some id := apart
    rwa [Effect.apply, Runtime.finishActivation_stateOf, if_neg stays]
  | beginDrain target =>
    have other : ¬ (id = target ∧ runtime.stateOf target = some .active) :=
      fun both => apart (both.1 ▸ rfl)
    refine ⟨by rwa [Effect.apply, Runtime.beginDrain_held], ?_⟩
    rwa [Effect.apply, Runtime.beginDrain_stateOf, if_neg other]
  | retire target =>
    have other : id ≠ target := fun same => apart (same ▸ rfl)
    have kept : (runtime.retire target).stateOf id = (runtime.setState target .retired).stateOf id :=
      rfl
    refine ⟨?_, by rwa [Effect.apply, kept, Runtime.setState_stateOf, if_neg other]⟩
    simpa [Effect.apply, Runtime.retire, Runtime.unhold, other] using held
  | unhold target =>
    have other : id ≠ target := fun same => apart (same ▸ rfl)
    exact ⟨by simpa [Effect.apply, Runtime.unhold, other] using held, state⟩
  | work => exact ⟨held, by rwa [Effect.apply, Runtime.work_stateOf]⟩

variable {controlled : Controlled}

theorem effectOf_drain_active {id : RevisionId} (active : controlled.drainsActive id = true) :
    controlled.effectOf (.drain id) = .beginDrain id := by
  simp only [Controlled.drainsActive, beq_iff_eq, map_eq_some_iff] at active
  obtain ⟨⟨_, _⟩, found, rfl⟩ := active
  obtain ⟨_, _, found⟩ := bind_eq_some_iff.mp found
  obtain ⟨_, lookup, same⟩ := map_eq_some_iff.mp found
  cases same
  simp only [System.effectOf, System.segment, Runtime.drain, lookup, map_some,
    getD_some]

def Controlled.Sound (controlled : Controlled) : Prop :=
  controlled.Serviceable ∧ (controlled.pending ≠ [] → ∃ id, controlled.runtime.Ready id)

theorem step_ready {label : Label} {next : System}
    (sound : controlled.Sound) (spares : controlled.Spares label)
    (accepted : controlled.refuses label = false) (awaited : controlled.awaited label ≠ [])
    (taken : controlled.toSystem.step label = some next) : ∃ id, next.runtime.Ready id := by
  rw [(step_inversion taken).2]
  cases displaced : (controlled.effectOf label).displaces controlled.runtime with
  | some target =>
    obtain ⟨other, apart, ready⟩ := spares accepted awaited target displaced
    exact ⟨other, apply_ready ready fun same => apart (some.inj (same.symm.trans displaced))⟩
  | none =>
    have pending : controlled.pending ≠ [] := by
      unfold Controlled.awaited at awaited
      split at awaited
      · split at awaited
        · rename_i active
          rw [effectOf_drain_active active] at displaced
          cases displaced
        · exact awaited
      · exact awaited
    obtain ⟨id, ready⟩ := sound.2 pending
    exact ⟨id, apply_ready ready fun same => nomatch same.symm.trans displaced⟩

theorem step_controlled_sound (controlled : Controlled) (label : Label) (next : Controlled)
    (sound : controlled.Sound) (spares : controlled.Spares label)
    (taken : controlled.step label = some next) : next.Sound := by
  unfold Controlled.step at taken
  split at taken
  · cases taken
    exact sound
  · rename_i accepted
    obtain ⟨_, moved, rfl⟩ := map_eq_some_iff.mp taken
    have ready := fun awaited =>
      step_ready sound spares (Bool.eq_false_iff.mpr accepted) awaited moved
    refine ⟨?_, ?_⟩
    · intro runtime member
      rcases mem_append.mp member with new | old
      · obtain ⟨index, ended, rfl⟩ := mem_map.mp new
        exact ready (ne_nil_of_mem (mem_filter.mp ended).1)
      · exact sound.1 runtime old
    · intro pending
      obtain ⟨_, member⟩ := exists_mem_of_ne_nil _ pending
      exact ready (ne_nil_of_mem (mem_filter.mp member).1)

/-- When no step of the run takes the last usable revision out of service while a drain of the
active one is under way, such a drain completes with a usable revision held. -/
theorem drain_leaves_revision (config : Config) (labels : List Label)
    (spares : Transition.Meets Controlled.step Controlled.Spares (Controlled.new config) labels) :
    Transition.Along Controlled.step Controlled.Serviceable (Controlled.new config) labels :=
  along_imp (fun _ sound => sound.1)
    (along_of_meets step_controlled_sound ⟨nofun, fun none => absurd rfl none⟩ spares)

def secondInstalled : List Label :=
  [.install ⟨"app", [], true⟩, .resume 0 .done, .activate ⟨1⟩, .resume 1 .done, .resume 1 .done,
    .install ⟨"app", [], true⟩, .resume 2 .done]

theorem drain_leaves_revision_second :
    Transition.Along Controlled.step Controlled.Serviceable (Controlled.new ⟨4, false, false, false⟩)
      (secondInstalled ++ [.drain ⟨1⟩, .resume 3 .done, .resume 3 .done]) := by
  have unasked : ∀ {controlled : Controlled} {label : Label}, controlled.awaited label = [] →
      controlled.Spares label := fun none _ some => absurd none some
  refine drain_leaves_revision _ _ ⟨unasked rfl, unasked rfl, unasked rfl, unasked rfl, unasked rfl,
    unasked rfl, unasked rfl, ?_, ?_, ?_, trivial⟩
  · rintro _ _ target ⟨⟩
    exact ⟨⟨2⟩, by decide, by decide, .inl rfl⟩
  · rintro _ _ target ⟨⟩
    exact ⟨⟨2⟩, by decide, by decide, .inl rfl⟩
  · rintro _ _ _ ⟨⟩

/-- The second revision is activated while the first still has work, and then drained: two are
held, so that it is accepted, and what is left is draining. -/
theorem drain_strands_runtime :
    (Transition.exec Controlled.step (Controlled.new ⟨4, false, false, false⟩)
      (secondInstalled ++ [.work ⟨1⟩ 1, .activate ⟨2⟩, .resume 3 .done, .resume 3 .done,
        .drain ⟨2⟩, .resume 5 .done, .resume 5 .done])).map (fun controlled =>
          controlled.completed.map fun runtime =>
            (runtime.active, runtime.held.map fun id => (id, runtime.stateOf id))) =
      some [(none, [(⟨1⟩, some .draining)])] := by
  decide +kernel

end Usai.Revisions
