import Usai.Revisions.Tokens

/-! Sequences of whole installs, activations, drains and removals, with the
background retirements between their segments: the tokens of the revision
that serves. `set_state` cancels `connections_stop` for ever, and an
activation may take a draining revision back. -/

namespace Usai.Revisions

open Effect List Option Usai.Revisions.Runtime Usai.Revisions.System

def Call.busy : Call → Bool
  | .compiling _ | .preparing _ | .binding _ | .warming _ _ => true
  | .drainStopping _ | .drainWaiting _ => true
  | .pruning background => !background
  | .retireSpawned _ | .retireStopping _ | .retireWaiting _ | .returned _ => false

def Label.begins : Label → Bool
  | .resume _ _ | .work _ _ => false
  | .install _ | .prepare _ | .activate _ | .request _ _ | .drain _ | .remove _ => true

/-- The runtime under one caller, who starts a call when the last returned. -/
def sequential (system : System) (label : Label) : Option System :=
  if label.begins && system.calls.any Call.busy then none else system.step label

def System.warms (system : System) (id : RevisionId) : Prop :=
  ∃ previous, Call.warming id previous ∈ system.calls

/-- An active revision's connections are not told to stop, and once its
activation has returned, each scheduler the runtime runs for it holds a token
that is not cancelled. A supervisor without a service is not kept. -/
def Serving (system : System) : Prop :=
  ∀ id, system.runtime.stateOf id = some .active →
    system.runtime.opens id ∧
      (¬ system.warms id → ∀ role, system.runtime.config.enables role = true →
        system.runtime.keeps id role = true →
        ∃ token, system.runtime.slotOf id role = some token ∧ token ∉ system.runtime.cancelled)

def Untouched (system : System) (label : Label) : Prop :=
  match system.effectOf label with
  | .swap id => system.runtime.stateOf id = some .installed
  | _ => True

def Call.Fits (runtime : Runtime) : Call → Prop
  | .binding id => ∃ state, runtime.stateOf id = some state ∧ state ≠ .active
  | .drainStopping id | .drainWaiting id => runtime.stateOf id ≠ some .active
  | .retireSpawned id => runtime.closes id
  | _ => True

structure Orderly (system : System) : Prop where
  wellformed : Wellformed system.runtime
  single : ∀ (i j : Nat) (a b : Call), system.calls[i]? = some a → system.calls[j]? = some b →
    a.busy = true → b.busy = true → i = j
  installed : ∀ id, system.runtime.stateOf id = some .installed → system.runtime.opens id
  leaving : ∀ id, system.runtime.leaves id → system.runtime.closes id
  fits : ∀ call ∈ system.calls, call.Fits system.runtime

theorem new_orderly (config : Config) : Orderly (new config) where
  wellformed := Wellformed.new config
  single := by intro i j a b found; cases found
  installed := by intro id found; cases found
  leaving := by rintro id ⟨state, found, _⟩; cases found
  fits := by intro call member; cases member

theorem new_serving (config : Config) : Serving (new config) := by
  intro id found
  cases found

variable {runtime : Runtime} {label : Label} {effect : Effect} {call next : Call}
  {calls : List Call} {system : System} {id : RevisionId}

theorem begins_fits (begun : Begins runtime label effect call) :
    call.Fits (effect.apply runtime) := by
  have inactive : ∀ id, (runtime.beginDrain id).stateOf id ≠ some .active := by
    intro id
    rw [beginDrain_stateOf]
    split
    · simp
    · rename_i different
      exact fun active => different ⟨rfl, active⟩
  cases begins_awaits begun with
  | binding found idle => exact ⟨_, stateOf_of_revision found, idle⟩
  | stopping | waiting => exact inactive _
  | compiling | preparing | returned => trivial

theorem resumes_fits
    (resumed : Resumes runtime call wakeup effect next) (fits : call.Fits runtime) :
    next.Fits (effect.apply runtime) := by
  cases resumed with
  | drainStopped => exact fits
  | retirementBegun _ _ _ _ waits => rcases waits with rfl | rfl <;> trivial
  | _ => trivial

theorem spawned_fits (wellformed : Wellformed runtime)
    (leaving : ∀ id, runtime.leaves id → runtime.closes id) (effect : Effect) :
    ∀ call ∈ runtime.spawned effect, call.Fits (effect.apply runtime) := by
  intro call member
  obtain ⟨id, previous, old, rfl, demoted, rfl⟩ := mem_spawned member
  have held := ((demoted_eq_some runtime id previous old).mp demoted).2.2
  obtain ⟨_, found⟩ := isSome_iff_exists.mp held
  apply apply_leaves_closes wellformed _ (leaving old)
  refine ⟨.draining, ?_, rfl⟩
  rw [apply, finishActivation_stateOf, if_pos demoted, stateOf_of_revision found]
  rfl

theorem apply_fits (wellformed : Wellformed runtime) (effect : Effect) (fits : call.Fits runtime)
    (calm : call.busy = false ∨ ∀ id, effect ≠ .swap id) : call.Fits (effect.apply runtime) := by
  have inactive : (∀ id, effect ≠ .swap id) → ∀ id, runtime.stateOf id ≠ some .active →
      (effect.apply runtime).stateOf id ≠ some .active := by
    intro noSwap id before after
    rcases apply_becomes_active effect after with active | swaps
    · exact before active
    · exact noSwap id swaps
  cases call with
  | binding id =>
    obtain ⟨_, found, different⟩ := fits
    have noSwap := calm.resolve_left (by simp [Call.busy])
    obtain ⟨_, present⟩ := slotOf_connections found
    obtain ⟨after, now⟩ := stateOf_of_slotOf
      (apply_slotOf wellformed effect present (.inr rfl) (fun other => absurd rfl other))
    refine ⟨after, now, ?_⟩
    rintro rfl
    exact inactive noSwap id (by rw [found]; simpa using different) now
  | drainStopping id | drainWaiting id =>
    exact inactive (calm.resolve_left (by simp [Call.busy])) id fits
  | retireSpawned => exact apply_closes wellformed effect fits
  | _ => trivial

theorem begins_label (begun : Begins runtime label effect call) :
    label.begins = true ∧ ∀ id, effect ≠ .swap id := by
  cases begun <;> exact ⟨rfl, by simp⟩

theorem sequential_inversion {next : System} (taken : sequential system label = some next) :
    (label.begins = true → ∀ call ∈ system.calls, call.busy = false) ∧
      system.step label = some next := by
  obtain ⟨free, taken⟩ := ite_none_left_eq_some.mp taken
  refine ⟨?_, taken⟩
  intro begins call member
  by_contra busy
  refine free (by simp only [begins, Bool.true_and, List.any_eq_true]; exact ⟨call, member, by simpa using busy⟩)

theorem segment_warms (segment : Segment system label effect calls)
    (member : Call.warming id previous ∈ system.calls)
    (apart : ∀ old, effect ≠ .finishActivation id old) :
    Call.warming id previous ∈ calls := by
  cases segment with
  | works => exact member
  | begins => exact mem_append_left _ member
  | resumes position _ _ call _ suspended resumed =>
    obtain ⟨index, found⟩ := mem_iff_getElem?.mp member
    by_cases same : index = position
    · subst index
      rw [suspended, some.injEq] at found
      subst call
      cases resumed
      exact absurd rfl (apart previous)
    · apply mem_append_left
      apply mem_iff_getElem?.mpr
      exact ⟨index, by rw [getElem?_set_ne (Ne.symm same)]; exact found⟩

theorem finishActivation_slots (wellformed : Wellformed runtime)
    (id : RevisionId) (previous : Option RevisionId)
    (active : (runtime.finishActivation id previous).stateOf id = some .active) (role : Role)
    (enabled : runtime.config.enables role = true) (kept : runtime.keeps id role = true) :
    ∃ token, (runtime.finishActivation id previous).slotOf id role = some token ∧
      token ∉ (runtime.finishActivation id previous).cancelled := by
  have started := startSchedulers_started runtime id
  have wellStarted := wellformed.startSchedulers id
  obtain ⟨token, present, _⟩ := startSchedulers_slotOf runtime id role enabled kept
  have owner := (wellStarted.slotted id role token present).1
  have running : token ∉ (runtime.startSchedulers id).cancelled := by
    rw [started.cancelled]
    intro cancelled
    have issued := wellformed.cancelledIssued token cancelled
    omega
  have stays : ¬ (runtime.finishActivation id previous).leaves id := by
    rintro ⟨state, found, leaving⟩
    rw [active, some.injEq] at found
    subst state
    cases leaving
  revert stays
  unfold Runtime.finishActivation
  cases runtime.demoted id previous with
  | none => exact fun _ => ⟨token, present, running⟩
  | some =>
    intro stays
    refine ⟨token, setState_slotOf_stays present (.inl stays), ?_⟩
    intro cancelled
    have leaves := setState_cancels wellStarted cancelled running
    exact stays (owner ▸ leaves)

section

variable (orderly : Orderly system) (segment : Segment system label effect calls)
include orderly segment

theorem segment_single (free : label.begins = true → ∀ call ∈ system.calls, call.busy = false) :
    ∀ (i j : Nat) (a b : Call), calls[i]? = some a → calls[j]? = some b →
      a.busy = true → b.busy = true → i = j := by
  cases segment with
  | works => exact orderly.single
  | begins _ _ call begun =>
    have idle := free (begins_label begun).1
    have last : ∀ (i : Nat) (a : Call), (system.calls ++ [call])[i]? = some a → a.busy = true →
        i = system.calls.length := by
      intro i a found busy
      rcases Slots.of_getElem?_append found with earlier | ⟨last, _⟩
      · rw [idle a (mem_of_getElem? earlier)] at busy
        cases busy
      · exact last
    intro i j a b foundA foundB busyA busyB
    rw [last i a foundA busyA, last j b foundB busyB]
  | resumes position _ _ call after suspended resumed =>
    have earlier : ∀ (i : Nat) (a : Call),
        (system.calls.set position after ++ system.runtime.spawned effect)[i]? = some a →
        a.busy = true → ∃ old, system.calls[i]? = some old ∧ old.busy = true := by
      intro i a found busy
      rcases resumed_calls found with ⟨rfl, rfl⟩ | ⟨_, old⟩ | ⟨_, spawned⟩
      · refine ⟨call, suspended, ?_⟩
        cases resumed with
        | retirementBegun _ _ _ _ waits => rcases waits with rfl | rfl <;> cases busy
        | _ => first | rfl | cases busy
      · exact ⟨a, old, busy⟩
      · obtain ⟨_, _, _, _, _, rfl⟩ := mem_spawned spawned
        cases busy
    intro i j a b foundA foundB busyA busyB
    obtain ⟨oldA, beforeA, wasBusyA⟩ := earlier i a foundA busyA
    obtain ⟨oldB, beforeB, wasBusyB⟩ := earlier j b foundB busyB
    exact orderly.single i j oldA oldB beforeA beforeB wasBusyA wasBusyB

theorem segment_fits (free : label.begins = true → ∀ call ∈ system.calls, call.busy = false) :
    ∀ call ∈ calls, call.Fits (effect.apply system.runtime) := by
  have wellformed := orderly.wellformed
  cases segment with
  | works =>
    intro call member
    exact apply_fits wellformed _ (orderly.fits call member) (.inr (by simp))
  | begins _ _ _ begun =>
    intro other member
    rw [mem_append, mem_singleton] at member
    rcases member with old | rfl
    · exact apply_fits wellformed _ (orderly.fits other old) (.inr (begins_label begun).2)
    · exact begins_fits begun
  | resumes position _ _ call _ suspended resumed =>
    intro other member
    obtain ⟨index, found⟩ := mem_iff_getElem?.mp member
    rcases resumed_calls found with ⟨rfl, rfl⟩ | ⟨apart, old⟩ | ⟨_, spawned⟩
    · exact resumes_fits resumed (orderly.fits call (mem_of_getElem? suspended))
    · apply apply_fits wellformed _ (orderly.fits other (mem_of_getElem? old))
      by_cases busy : other.busy = true
      · right
        rintro _ rfl
        cases resumed
        exact apart (orderly.single index position other _ old suspended busy rfl)
      · exact .inl (by simpa using busy)
    · exact spawned_fits wellformed orderly.leaving effect other spawned

omit orderly segment in
theorem sequential_orderly (system : System) (label : Label) (next : System)
    (orderly : Orderly system) (taken : sequential system label = some next) : Orderly next := by
  obtain ⟨free, stepped⟩ := sequential_inversion taken
  obtain ⟨segment, written⟩ := step_inversion stepped
  have wellformed := orderly.wellformed
  constructor
  · exact step_wellformed system label next wellformed stepped
  · exact segment_single orderly segment free
  · intro id found
    rw [written] at found ⊢
    exact apply_installed_opens wellformed _ (orderly.installed id) found
  · intro id leaves
    rw [written] at leaves ⊢
    exact apply_leaves_closes wellformed _ (orderly.leaving id) leaves
  · rw [written]
    exact segment_fits orderly segment free

/-- What an active revision has, it keeps through every write of a sequential
run that leaves it active, except the tail of its own activation. -/
theorem apply_keeps_token (opens : system.runtime.opens id)
    (active : (effect.apply system.runtime).stateOf id = some .active)
    (apart : ∀ old, effect ≠ .finishActivation id old)
    (present : system.runtime.slotOf id role = some token)
    (running : token ∉ system.runtime.cancelled) :
    (effect.apply system.runtime).slotOf id role = some token ∧
      token ∉ (effect.apply system.runtime).cancelled := by
  have stays : ¬ (effect.apply system.runtime).leaves id := by
    rintro ⟨state, found, leaving⟩
    rw [active, some.injEq] at found
    subst state
    cases leaving
  have owner := (orderly.wellformed.slotted id role token present).1
  refine ⟨apply_slotOf orderly.wellformed effect present (.inl stays) (fun _ => apart), ?_⟩
  intro cancelled
  rcases apply_cancels orderly.wellformed effect cancelled running with leaves | ⟨_, stops | drains⟩
  · exact stays (owner ▸ leaves)
  · rw [owner] at stops
    subst effect
    refine opens_not_closes opens ?_
    cases segment with
    | begins _ _ _ begun => cases begun
    | resumes _ _ _ _ _ suspended resumed =>
      cases resumed with
      | retirementBegun => exact orderly.fits _ (mem_of_getElem? suspended)
  · rw [owner] at drains
    subst effect
    rw [apply, beginDrain_stateOf] at active
    split at active
    · cases active
    · rename_i different
      exact different ⟨rfl, active⟩

end

theorem segment_serving {next : System} (orderly : Orderly system) (serving : Serving system)
    (segment : Segment system label (system.effectOf label) next.calls)
    (written : next.runtime = (system.effectOf label).apply system.runtime)
    (before : system.runtime.stateOf id = some .active)
    (active : next.runtime.stateOf id = some .active) :
    next.runtime.opens id ∧
      (¬ next.warms id → ∀ role, next.runtime.config.enables role = true →
        next.runtime.keeps id role = true →
        ∃ token, next.runtime.slotOf id role = some token ∧ token ∉ next.runtime.cancelled) := by
  obtain ⟨opens, tokens⟩ := serving id before
  generalize system.effectOf label = effect at segment written
  have wellformed := orderly.wellformed
  have stays : ¬ next.runtime.leaves id := by
    rintro ⟨state, found, leaving⟩
    rw [active, some.injEq] at found
    subst state
    cases leaving
  have keeps : ∀ role, next.runtime.keeps id role = system.runtime.keeps id role := by
    intro role
    obtain ⟨revision, found, _⟩ := map_eq_some_iff.mp before
    have definition : system.runtime.definitionOf id = some revision.definition := by
      rw [definitionOf, found, map_some]
    rw [written, keeps, keeps, definition,
      apply_definitionOf wellformed effect definition]
  have config : next.runtime.config = system.runtime.config := by
    rw [written]
    exact apply_config effect
  refine ⟨?_, ?_⟩
  · rw [written] at stays ⊢
    exact apply_opens wellformed effect opens stays
  · intro cold role enabled kept
    rw [config] at enabled
    rw [keeps] at kept
    rw [written] at active ⊢
    by_cases finishes : ∃ previous, effect = .finishActivation id previous
    · obtain ⟨previous, rfl⟩ := finishes
      exact finishActivation_slots wellformed id previous active role enabled kept
    · have apart : ∀ old, effect ≠ .finishActivation id old :=
        fun old same => finishes ⟨old, same⟩
      have coldBefore : ¬ system.warms id := by
        rintro ⟨previous, member⟩
        exact cold ⟨previous, segment_warms segment member apart⟩
      obtain ⟨token, present, running⟩ := tokens coldBefore role enabled kept
      exact ⟨token, apply_keeps_token orderly segment opens active apart present running⟩

theorem swap_serving {next : System} (orderly : Orderly system) (serving : Serving system)
    (segment : Segment system label (system.effectOf label) next.calls)
    (written : next.runtime = (system.effectOf label).apply system.runtime)
    (swaps : system.effectOf label = .swap id) :
    Serving next ↔ system.runtime.stateOf id = some .installed := by
  have others : ∀ other, next.runtime.stateOf other = some .active → other ≠ id →
      system.runtime.stateOf other = some .active := by
    intro other active different
    rw [written, swaps] at active
    rcases apply_becomes_active _ active with before | same
    · exact before
    · cases same
      exact absurd rfl different
  have resumed : Call.binding id ∈ system.calls ∧
      Call.warming id system.runtime.active ∈ next.calls := by
    rw [swaps] at segment
    generalize next.calls = calls at segment ⊢
    cases segment with
    | begins _ _ _ begun => cases begun
    | resumes _ _ _ _ _ suspended resumed =>
      cases resumed
      refine ⟨mem_of_getElem? suspended, mem_append_left _ ?_⟩
      exact List.mem_set (List.getElem?_eq_some_iff.mp suspended).1 _
  obtain ⟨state, bound, inactive⟩ := orderly.fits _ resumed.1
  have becomes : next.runtime.stateOf id = some .active := by
    have states := setState_stateOf system.runtime id id .active
    rw [if_pos rfl, bound, map_some] at states
    rw [written, swaps]
    exact states
  constructor
  · intro after
    obtain ⟨opens, _⟩ := after id becomes
    have stays : state.leaving = false := by
      by_contra leaving
      have closes := orderly.leaving id ⟨state, bound, by simpa using leaving⟩
      rw [written] at opens
      exact opens_not_closes opens (apply_closes orderly.wellformed _ closes)
    rw [bound]
    cases state with
    | installed => rfl
    | active => exact absurd rfl inactive
    | draining => cases stays
    | retired => cases stays
  · intro installed other active
    by_cases same : other = id
    · subst other
      refine ⟨?_, fun cold => absurd ⟨_, resumed.2⟩ cold⟩
      have stays : ¬ next.runtime.leaves id := by
        rintro ⟨found, isState, leaving⟩
        rw [becomes, some.injEq] at isState
        subst found
        cases leaving
      rw [written] at stays ⊢
      exact apply_opens orderly.wellformed _ (orderly.installed id installed) stays
    · exact segment_serving orderly serving segment written (others other active same) active

theorem sequential_serving (system : System) (label : Label) (next : System)
    (orderly : Orderly system) (serving : Serving system)
    (taken : sequential system label = some next) :
    Serving next ↔ Untouched system label := by
  obtain ⟨_, stepped⟩ := sequential_inversion taken
  obtain ⟨segment, written⟩ := step_inversion stepped
  unfold Untouched
  split
  · rename_i id swaps
    exact swap_serving orderly serving segment written swaps
  · rename_i noSwap
    refine iff_of_true ?_ trivial
    intro id active
    have before : system.runtime.stateOf id = some .active := by
      have after := active
      rw [written] at after
      rcases apply_becomes_active _ after with before | swaps
      · exact before
      · exact absurd swaps (noSwap id)
    exact segment_serving orderly serving segment written before active

/-- Whatever calls overlap, the connections of a revision that has only been installed are
open, and those of one that leaves are closed. -/
theorem connections_follow_state (config : Config) (labels : List Label) :
    Transition.Along System.step (fun system => Wellformed system.runtime ∧ ∀ id,
      (system.runtime.stateOf id = some .installed → system.runtime.opens id) ∧
        (system.runtime.leaves id → system.runtime.closes id)) (System.new config) labels := by
  have new := new_orderly config
  refine Transition.along_of_meets ?_ ⟨new.wellformed, fun id => ⟨new.installed id, new.leaving id⟩⟩
    (Transition.meets_true _ _)
  intro system label next ⟨wellformed, follow⟩ _ taken
  refine ⟨step_wellformed system label next wellformed taken, ?_⟩
  rw [(step_inversion taken).2]
  exact fun id => ⟨apply_installed_opens wellformed _ (follow id).1,
    apply_leaves_closes wellformed _ (follow id).2⟩

/-- In a sequence of calls from the empty runtime, every active revision has
its tokens in every state exactly when every activation that reaches its swap
is of a revision that has only been installed. -/
theorem active_revision_tokens (config : Config) (labels : List Label) :
    Transition.Along sequential Serving (System.new config) labels ↔
      Transition.Meets sequential Untouched (System.new config) labels :=
  Transition.along_iff_meets sequential_orderly sequential_serving (new_orderly config)
    (new_serving config) labels

def rollback : List Label :=
  [.install ⟨"app", [], true⟩, .resume 0 .done, .install ⟨"app", [], true⟩, .resume 1 .done,
   .activate ⟨1⟩, .resume 2 .done, .resume 2 .done, .work ⟨1⟩ 1,
   .activate ⟨2⟩, .resume 3 .done, .resume 3 .done,
   .activate ⟨1⟩, .resume 5 .done, .resume 5 .done]

/-- The revision that was rolled back to is active and held, and its
connections are told to stop at once. -/
theorem rollback_stops_connections :
    ∃ final, Transition.exec sequential (System.new ⟨4, true, true, true⟩) rollback = some final ∧
      final.calls[5]? = some (.returned (.activated ⟨1⟩)) ∧
      final.runtime.active = some ⟨1⟩ ∧ final.runtime.stateOf ⟨1⟩ = some .active ∧
      final.runtime.slotOf ⟨1⟩ .connections = some ⟨0, ⟨1⟩, .connections⟩ ∧
      (⟨0, ⟨1⟩, .connections⟩ : Token) ∈ final.runtime.cancelled ∧ ¬ Serving final := by
  refine ⟨_, rfl, rfl, rfl, rfl, rfl, by decide, ?_⟩
  intro serving
  have opens := (serving ⟨1⟩ rfl).1
  exact opens_not_closes opens ⟨⟨0, ⟨1⟩, .connections⟩, rfl, by decide⟩

end Usai.Revisions
