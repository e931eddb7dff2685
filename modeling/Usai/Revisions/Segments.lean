import Usai.Revisions.Calls
import Usai.Slots

/-! Inversion of the step function: every segment a label can name, with the
write it makes and the await it ends at. -/

namespace Usai.Revisions

open List Option Usai.Revisions.Runtime Usai.Revisions.System

inductive Begins (runtime : Runtime) : Label → Effect → Call → Prop where
  | install (definition : Definition) :
      Begins runtime (.install definition) .none (runtime.install definition)
  | prepare (id : RevisionId) : Begins runtime (.prepare id) .none (runtime.prepare id)
  | activate (id : RevisionId) : Begins runtime (.activate id) .none (runtime.activate id)
  | request (id : RevisionId) (wanted : ActivateRequest) :
      Begins runtime (.request id wanted) .none (runtime.requestActivate id wanted)
  | drain (id : RevisionId) (revision : Revision) (found : runtime.revision id = some revision)
      (call : Call) (waits : call = .drainStopping id ∨ call = .drainWaiting id) :
      Begins runtime (.drain id) (.beginDrain id) call
  | drainGone (id : RevisionId) (reply : Reply)
      (answers : reply = .drained ∨ reply = .refused (.unknownRevision id)) :
      Begins runtime (.drain id) .none (.returned reply)
  | remove (id : RevisionId) (revision : Revision) (found : runtime.revision id = some revision)
      (unused : revision.state = .installed ∨ revision.state = .retired) :
      Begins runtime (.remove id) (.unhold id) (.returned .removed)
  | removeRefused (id : RevisionId) (error : RuntimeError) :
      Begins runtime (.remove id) .none (.returned (.refused error))

/-- Every way a suspended call can go on: the await, how it ends, the write
and the next await. -/
inductive Resumes (runtime : Runtime) : Call → Wakeup → Effect → Call → Prop where
  | compiled (definition : Definition) (reply : Reply)
      (answers : reply = .installed ⟨runtime.nextRevision⟩ ∨ reply = .refused .invalidDefinition) :
      Resumes runtime (.compiling definition) .done (.insertRevision definition) (.returned reply)
  | compileFailed (definition : Definition) (error : RuntimeError) :
      Resumes runtime (.compiling definition) (.failed error) .none (.returned (.refused error))
  | prepared (id : RevisionId) :
      Resumes runtime (.preparing id) .done .none (.returned (.prepared id))
  | prepareFailed (id : RevisionId) (error : RuntimeError) :
      Resumes runtime (.preparing id) (.failed error) .none (.returned (.refused error))
  | swapped (id : RevisionId) :
      Resumes runtime (.binding id) .done (.swap id) (.warming id runtime.active)
  | bindFailed (id : RevisionId) (error : RuntimeError) :
      Resumes runtime (.binding id) (.failed error) .none (.returned (.refused error))
  | warmed (id : RevisionId) (previous : Option RevisionId) (wakeup : Wakeup) :
      Resumes runtime (.warming id previous) wakeup (.finishActivation id previous)
        (.returned (.activated id))
  | drainStopped (id : RevisionId) :
      Resumes runtime (.drainStopping id) .done .none (.drainWaiting id)
  | drained (id : RevisionId) (settled : runtime.inFlightOf id = 0) :
      Resumes runtime (.drainWaiting id) .done (.retire id) (.pruning false)
  | drainExpired (id : RevisionId) :
      Resumes runtime (.drainWaiting id) .expired .none (.returned (.refused (.drainTimeout id)))
  | retirementGone (id : RevisionId) :
      Resumes runtime (.retireSpawned id) .done .none (.returned .ended)
  | retirementBegun (id : RevisionId) (revision : Revision)
      (found : runtime.revision id = some revision) (call : Call)
      (waits : call = .retireStopping id ∨ call = .retireWaiting id) :
      Resumes runtime (.retireSpawned id) .done (.stopServices id) call
  | retirementStopped (id : RevisionId) :
      Resumes runtime (.retireStopping id) .done .none (.retireWaiting id)
  | retirementLeft (id : RevisionId) (wakeup : Wakeup) :
      Resumes runtime (.retireWaiting id) wakeup .none (.returned .ended)
  | retired (id : RevisionId) (wakeup : Wakeup) (draining : runtime.stateOf id = some .draining)
      (settled : runtime.inFlightOf id = 0) :
      Resumes runtime (.retireWaiting id) wakeup (.retire id) (.pruning true)
  | pruned (background : Bool) (reply : Reply) (ends : reply = .ended ∨ reply = .drained) :
      Resumes runtime (.pruning background) .done .none (.returned reply)

variable (runtime : Runtime) (id : RevisionId)

theorem drain_begins :
    Begins runtime (.drain id) (runtime.drain id).1 (runtime.drain id).2 := by
  unfold drain
  cases found : runtime.revision id with
  | some revision =>
    apply Begins.drain id revision found
    simp only
    split
    · exact .inl rfl
    · exact .inr rfl
  | none =>
    simp only
    split
    · exact .drainGone id _ (.inl rfl)
    · exact .drainGone id _ (.inr rfl)

theorem remove_begins :
    Begins runtime (.remove id) (runtime.remove id).1 (runtime.remove id).2 := by
  unfold remove
  cases found : runtime.revision id with
  | some revision =>
    cases state : revision.state with
    | installed => simpa only [state] using Begins.remove id revision found (.inl state)
    | retired => simpa only [state] using Begins.remove id revision found (.inr state)
    | draining | active => simpa only [state] using Begins.removeRefused id _
  | none => exact .removeRefused id _

theorem concludeRetirement_resumes (wakeup : Wakeup) :
    Resumes runtime (.retireWaiting id) wakeup (runtime.concludeRetirement id).1
      (runtime.concludeRetirement id).2 := by
  unfold concludeRetirement
  by_cases left : runtime.stateOf id ≠ some .draining
  · rw [if_pos left]
    exact .retirementLeft id wakeup
  · by_cases busy : runtime.inFlightOf id ≠ 0
    · rw [if_neg left, if_pos busy]
      exact .retirementLeft id wakeup
    · rw [if_neg left, if_neg busy]
      exact .retired id wakeup (not_not.mp left) (not_not.mp busy)

theorem beginRetirement_resumes :
    Resumes runtime (.retireSpawned id) .done (runtime.beginRetirement id).1
      (runtime.beginRetirement id).2 := by
  unfold beginRetirement
  cases found : runtime.revision id with
  | none => exact .retirementGone id
  | some revision =>
    apply Resumes.retirementBegun id revision found
    simp only
    split
    · exact .inl rfl
    · exact .inr rfl

theorem resumes_of_resume {runtime : Runtime} {call : Call} {wakeup : Wakeup}
    {next : Effect × Call} (resumed : runtime.resume call wakeup = some next) :
    Resumes runtime call wakeup next.1 next.2 := by
  unfold resume at resumed
  split at resumed
  all_goals try cases resumed
  all_goals try constructor
  · rename_i definition
    cases definition.schedulesValid with
    | true => exact .inl rfl
    | false => exact .inr rfl
  · split at resumed <;> cases resumed
    constructor
    assumption
  · exact beginRetirement_resumes runtime _
  · split at resumed <;> cases resumed
    exact concludeRetirement_resumes runtime _ _
  · exact concludeRetirement_resumes runtime _ _
  · rename_i background
    cases background with
    | true => exact .inl rfl
    | false => exact .inr rfl

inductive Segment (system : System) : Label → Effect → List Call → Prop where
  | begins (label : Label) (effect : Effect) (call : Call)
      (begun : Begins system.runtime label effect call) :
      Segment system label effect (system.calls ++ [call])
  | resumes (index : Nat) (wakeup : Wakeup) (effect : Effect) (call next : Call)
      (suspended : system.calls[index]? = some call)
      (resumed : Resumes system.runtime call wakeup effect next) :
      Segment system (.resume index wakeup) effect
        (system.calls.set index next ++ system.runtime.spawned effect)
  | works (id : RevisionId) (count : Nat) :
      Segment system (.work id count) (.work id count) system.calls

theorem segment_inversion {system : System} {label : Label} {next : Effect × List Call}
    (runs : system.segment label = some next) : Segment system label next.1 next.2 := by
  cases label with
  | install definition =>
    cases runs
    exact .begins _ _ _ (.install definition)
  | prepare id =>
    cases runs
    exact .begins _ _ _ (.prepare id)
  | activate id =>
    cases runs
    exact .begins _ _ _ (.activate id)
  | request id wanted =>
    cases runs
    exact .begins _ _ _ (.request id wanted)
  | drain id =>
    cases runs
    exact .begins _ _ _ (drain_begins system.runtime id)
  | remove id =>
    cases runs
    exact .begins _ _ _ (remove_begins system.runtime id)
  | work id count =>
    cases runs
    exact .works id count
  | resume index wakeup =>
    simp only [System.segment, bind_eq_some_iff, map_eq_some_iff] at runs
    obtain ⟨call, suspended, _, taken, rfl⟩ := runs
    exact .resumes index wakeup _ call _ suspended (resumes_of_resume taken)

/-- A taken step runs one segment, and changes the shared state by the
segment's write alone. -/
theorem step_inversion {system next : System} {label : Label}
    (taken : system.step label = some next) :
    Segment system label (system.effectOf label) next.calls ∧
      next.runtime = (system.effectOf label).apply system.runtime := by
  rw [step, map_eq_some_iff] at taken
  obtain ⟨pair, found, rfl⟩ := taken
  have effect : system.effectOf label = pair.1 := by
    simp only [effectOf, found, map_some, getD_some]
  rw [effect]
  exact ⟨segment_inversion found, rfl⟩

section

variable {runtime : Runtime} {label : Label} {effect : Effect} {call next : Call}
  {calls : List Call}

inductive FirstAwait (runtime : Runtime) : Label → Effect → Call → Prop where
  | compiling (room : runtime.held.length < runtime.config.maxRevisions) :
      FirstAwait runtime (.install definition) .none (.compiling definition)
  | preparing {label : Label} {id : RevisionId} : FirstAwait runtime label .none (.preparing id)
  | binding {label : Label} {id : RevisionId} {revision : Revision}
      (found : runtime.revision id = some revision) (idle : revision.state ≠ .active) :
      FirstAwait runtime label .none (.binding id)
  | stopping {label : Label} {id : RevisionId} :
      FirstAwait runtime label (.beginDrain id) (.drainStopping id)
  | waiting {label : Label} {id : RevisionId} :
      FirstAwait runtime label (.beginDrain id) (.drainWaiting id)
  | returned {label : Label} {effect : Effect}
      (other : ∀ id, reply ≠ .activated id) : FirstAwait runtime label effect (.returned reply)

theorem activate_awaits (id : RevisionId) :
    FirstAwait runtime label .none (runtime.activate id) := by
  unfold activate
  cases found : runtime.revision id with
  | none => exact .returned (by simp)
  | some =>
    simp only
    split
    · exact .returned (by simp)
    · exact .binding found ‹_›

theorem begins_awaits (begun : Begins runtime label effect call) :
    FirstAwait runtime label effect call := by
  cases begun with
  | install =>
    unfold install
    split
    · exact .returned (by simp)
    · exact .compiling (by omega)
  | prepare =>
    unfold prepare
    split
    · exact .preparing
    · exact .returned (by simp)
  | activate id => exact activate_awaits id
  | request id _ =>
    unfold requestActivate
    simp only
    split
    · exact .returned (by simp)
    · split
      · exact activate_awaits id
      · exact .returned (by simp)
    · exact activate_awaits id
  | drain _ _ _ _ waits =>
    rcases waits with rfl | rfl
    · exact .stopping
    · exact .waiting
  | drainGone _ _ answers => rcases answers with rfl | rfl <;> exact .returned (by simp)
  | remove | removeRefused => exact .returned (by simp)

theorem mem_spawned (member : call ∈ runtime.spawned effect) :
    ∃ id previous old, effect = .finishActivation id previous ∧
      runtime.demoted id previous = some old ∧ call = .retireSpawned old := by
  cases effect with
  | finishActivation id previous =>
    simp only [spawned, mem_toList, map_eq_some_iff] at member
    obtain ⟨old, demoted, rfl⟩ := member
    exact ⟨id, previous, old, rfl, demoted, rfl⟩
  | _ => cases member

theorem resumed_calls (found : (calls.set position next ++ extra)[index]? = some call) :
    (index = position ∧ call = next) ∨ (index ≠ position ∧ calls[index]? = some call) ∨
      (calls.length ≤ index ∧ call ∈ extra) := by
  by_cases inside : index < calls.length
  · rw [getElem?_append_left (by rw [length_set]; exact inside)] at found
    exact (Slots.of_getElem?_set found).imp id .inl
  · rw [getElem?_append_right (by rw [length_set]; omega)] at found
    exact .inr (.inr ⟨by omega, mem_of_getElem? found⟩)

end

end Usai.Revisions
