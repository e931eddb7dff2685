import Usai.Slots
import Usai.Transition

/-! Timers on the Wasm substrate. The bridge (`guest-bridge.js`) starts an operation for each
`setTimeout` and for each turn of a `setInterval`; the host (`wasm.rs`) has the operations in
its maps until it completes them, and puts a cancellation off to the next settle. -/

namespace Usai.Execution

open List Option Slots Transition

/-- The promise of a timer's operation: not completed, completed with its reactions still to
run, or done. -/
inductive TimerStage where
  | waiting
  | completed (ok : Bool)
  | done
  deriving DecidableEq, Repr

/-- An operation of a timeout, or of the interval with this handle. `cleared` says that a
timeout was cleared. -/
structure TimerOp where
  interval : Option Nat
  stage : TimerStage
  cleared : Bool
  deriving DecidableEq, Repr

structure Interval where
  current : Nat
  listed : Bool
  running : Bool
  cleared : Bool
  deriving DecidableEq, Repr

/-- `ops` are by native id, `intervals` by handle. `held` are the timers in the host's maps.
`ranCleared` says that the callback of a cleared timer was run. -/
structure Timers where
  ops : List TimerOp
  intervals : List Interval
  held : List Nat
  deferred : List Nat
  accepting : Bool
  ranCleared : Bool
  deriving DecidableEq, Repr

inductive TimerHandle where
  | timeout (id : Nat)
  | interval (handle : Nat)
  deriving DecidableEq, Repr

inductive TimerLabel where
  | setTimeout
  | setInterval
  | clearTimeout (timer : TimerHandle)
  | clearInterval (timer : TimerHandle)
  | react (id : Nat)
  | rearm (handle : Nat)
  | settle
  | deliver (id : Nat) (ok : Bool)
  | stop
  | cancel
  deriving DecidableEq, Repr

namespace Timers

def new : Timers := ⟨[], [], [], [], true, false⟩

variable (timers : Timers)

def startOp (interval : Option Nat) : Timers :=
  { timers with
    ops := timers.ops ++
      [⟨interval, if timers.accepting then .waiting else .completed false, false⟩]
    held := if timers.accepting then timers.held ++ [timers.ops.length] else timers.held }

def cancelOp (id : Nat) : Timers :=
  if (timers.ops[id]?).any (·.stage ≠ .done) ∧ id ∈ timers.held then
    { timers with deferred := timers.deferred ++ [id] }
  else timers

def complete (ids : List Nat) (ok : Bool) : Timers :=
  { timers with
    ops := timers.ops.mapIdx fun id op =>
      if id ∈ ids ∧ op.stage = .waiting then { op with stage := .completed ok } else op
    held := timers.held.filter (· ∉ ids) }

def markOp (id : Nat) (change : TimerOp → TimerOp) : Timers :=
  { timers with ops := timers.ops.modify id change }

def markInterval (handle : Nat) (change : Interval → Interval) : Timers :=
  { timers with intervals := timers.intervals.modify handle change }

def step : TimerLabel → Option Timers
  | .setTimeout => some (timers.startOp none)
  | .setInterval =>
    some { timers.startOp (some timers.intervals.length) with
      intervals := timers.intervals ++ [⟨timers.ops.length, true, false, false⟩] }
  | .clearTimeout (.timeout id) =>
    some ((timers.cancelOp id).markOp id fun op => { op with cleared := true })
  -- an object is no key of `pending`
  | .clearTimeout (.interval handle) =>
    some (timers.markInterval handle fun interval => { interval with cleared := true })
  | .clearInterval (.interval handle) =>
    let unlisted := timers.markInterval handle fun interval =>
      { interval with cleared := true, listed := false }
    match timers.intervals[handle]? with
    | some { listed := true, current, .. } => some (unlisted.cancelOp current)
    | _ => some unlisted
  -- a number is no key of `intervals`
  | .clearInterval (.timeout id) =>
    some (timers.markOp id fun op => { op with cleared := true })
  | .react id =>
    match timers.ops[id]? with
    | some { stage := .completed ok, interval, cleared } =>
      let reacted := timers.markOp id fun op => { op with stage := .done }
      match ok, interval with
      | false, _ => some reacted
      | true, none => some { reacted with ranCleared := timers.ranCleared || cleared }
      | true, some handle =>
        match timers.intervals[handle]? with
        | some { listed := true, cleared, .. } =>
          some { reacted.markInterval handle (fun interval => { interval with running := true }) with
            ranCleared := timers.ranCleared || cleared }
        | _ => some reacted
    | _ => none
  | .rearm handle =>
    match timers.intervals[handle]? with
    | some { running := true, listed, .. } =>
      let returned := timers.markInterval handle fun interval =>
        { interval with running := false, current := timers.ops.length }
      some (if listed then returned.startOp (some handle) else returned)
    | _ => none
  | .settle => some { timers.complete timers.deferred false with deferred := [] }
  -- the guest is entered when the last settle has left nothing deferred
  | .deliver id ok =>
    if timers.deferred = [] ∧ id ∈ timers.held then some (timers.complete [id] ok) else none
  | .stop => some (timers.complete timers.held true)
  | .cancel => some { timers.complete timers.held false with accepting := false }

def Obedient : Prop := timers.ranCleared = false

/-- A timeout is not cleared while its completion is on the way to its callback, nor an
interval by `clearTimeout` or a timeout by `clearInterval` while it is live; and the listeners
of a stop have cleared no timer that is live. -/
def Orderly : TimerLabel → Prop
  | .clearTimeout (.timeout id) => ∀ op ∈ timers.ops[id]?, op.stage ≠ .completed true
  | .clearInterval (.timeout id) => ∀ op ∈ timers.ops[id]?, op.stage ≠ .completed true ∧
      id ∉ timers.held
  | .clearTimeout (.interval handle) => ∀ interval ∈ timers.intervals[handle]?,
      interval.listed = false
  | .stop => timers.deferred = []
  | _ => True

structure Sound : Prop where
  waiting : ∀ id ∈ timers.held, ∃ op, timers.ops[id]? = some op ∧ op.stage = .waiting
  timeouts : ∀ id op, timers.ops[id]? = some op → op.cleared = true →
    op.stage ≠ .completed true ∧ (id ∈ timers.held → id ∈ timers.deferred)
  intervals : ∀ (handle : Nat) interval, timers.intervals[handle]? = some interval →
    interval.cleared = true → interval.listed = false
  obedient : timers.Obedient

variable {timers}

theorem cancelOp_frame (timers : Timers) (id : Nat) :
    (timers.cancelOp id).ops = timers.ops ∧ (timers.cancelOp id).held = timers.held := by
  unfold cancelOp
  split <;> exact ⟨rfl, rfl⟩

section

variable (sound : timers.Sound)
include sound

theorem Sound.startOp (interval : Option Nat) :
    (timers.startOp interval).Sound where
  waiting id member := by
    have old : id ∈ timers.held → ∃ op, (timers.startOp interval).ops[id]? = some op ∧
        op.stage = .waiting := by
      intro held
      obtain ⟨op, found, stage⟩ := sound.waiting id held
      exact ⟨op, List.getElem?_append_left (List.getElem?_eq_some_iff.mp found).1 ▸ found, stage⟩
    simp only [Timers.startOp] at member
    split at member
    · rename_i accepts
      rcases mem_append.mp member with held | new
      · exact old held
      · cases mem_singleton.mp new
        exact ⟨_, getElem?_concat_length, by simp [accepts]⟩
    · exact old member
  timeouts id op found cleared := by
    rcases of_getElem?_append found with before | ⟨rfl, rfl⟩
    · obtain ⟨stage, deferred⟩ := sound.timeouts id op before cleared
      refine ⟨stage, fun held => deferred ?_⟩
      simp only [Timers.startOp] at held
      split at held
      · refine (mem_append.mp held).resolve_right fun new => ?_
        rw [mem_singleton.mp new, getElem?_eq_none (Nat.le_refl _)] at before
        cases before
      · exact held
    · cases cleared
  intervals := sound.intervals
  obedient := sound.obedient

theorem Sound.cancelOp (id : Nat) : (timers.cancelOp id).Sound := by
  unfold Timers.cancelOp
  split
  · refine ⟨sound.waiting, ?_, sound.intervals, sound.obedient⟩
    intro other op found cleared
    obtain ⟨stage, deferred⟩ := sound.timeouts other op found cleared
    exact ⟨stage, fun held => mem_append_left _ (deferred held)⟩
  · exact sound

theorem Sound.complete (ids : List Nat) (ok : Bool) (deferred : List Nat)
    (spares : ok = true → ∀ id ∈ ids, ∀ op, timers.ops[id]? = some op → op.stage = .waiting →
      op.cleared = false)
    (keeps : ∀ id ∈ timers.deferred, id ∈ ids ∨ id ∈ deferred) :
    Sound { timers.complete ids ok with deferred } where
  waiting id member := by
    obtain ⟨held, apart⟩ := mem_filter.mp member
    obtain ⟨op, found, stage⟩ := sound.waiting id held
    refine ⟨op, ?_, stage⟩
    simp only [Timers.complete, getElem?_mapIdx, found, map_some]
    rw [if_neg (fun both => of_decide_eq_true apart both.1)]
  timeouts id op found cleared := by
    simp only [Timers.complete, getElem?_mapIdx] at found
    obtain ⟨before, here, rfl⟩ := map_eq_some_iff.mp found
    have kept : before.cleared = true := by
      split at cleared <;> exact cleared
    obtain ⟨stage, awaits⟩ := sound.timeouts id before here kept
    refine ⟨?_, ?_⟩
    · split
      · rename_i completes
        rintro ⟨⟩
        cases (spares rfl id completes.1 before here completes.2).symm.trans kept
      · exact stage
    · intro member
      obtain ⟨held, apart⟩ := mem_filter.mp member
      exact (keeps id (awaits held)).resolve_left (of_decide_eq_true apart)
  intervals := sound.intervals
  obedient := sound.obedient

theorem Sound.markOp (id : Nat) (change : TimerOp → TimerOp)
    (changes : ∀ op, timers.ops[id]? = some op → (change op).stage = op.stage ∨ id ∉ timers.held)
    (clears : ∀ op, timers.ops[id]? = some op → (change op).cleared = true →
      (change op).stage ≠ .completed true ∧ (id ∈ timers.held → id ∈ timers.deferred)) :
    (timers.markOp id change).Sound where
  waiting other held := by
    obtain ⟨op, found, stage⟩ := sound.waiting other held
    simp only [Timers.markOp, getElem?_modify]
    split
    · rename_i same
      cases same
      refine ⟨change op, by rw [found]; rfl, ?_⟩
      rw [(changes op found).resolve_right (not_not.mpr held), stage]
    · exact ⟨op, by rw [found]; rfl, stage⟩
  timeouts other op found cleared := by
    rcases of_getElem?_modify found with ⟨rfl, before, here, rfl⟩ | before
    · exact clears before here cleared
    · exact sound.timeouts other op before cleared
  intervals := sound.intervals
  obedient := sound.obedient

theorem Sound.markInterval (handle : Nat) (change : Interval → Interval)
    (clears : ∀ interval, timers.intervals[handle]? = some interval →
      (change interval).cleared = true → (change interval).listed = false) :
    (timers.markInterval handle change).Sound where
  waiting := sound.waiting
  timeouts := sound.timeouts
  intervals other interval found cleared := by
    rcases of_getElem?_modify found with ⟨rfl, before, here, rfl⟩ | before
    · exact clears before here cleared
    · exact sound.intervals other interval before cleared
  obedient := sound.obedient

theorem cancelOp_deferred {id : Nat} (held : id ∈ timers.held) :
    id ∈ (timers.cancelOp id).deferred := by
  obtain ⟨_, found, stage⟩ := sound.waiting id held
  have cancels : (timers.ops[id]?).any (·.stage ≠ .done) ∧ id ∈ timers.held :=
    ⟨by simp [found, stage], held⟩
  rw [cancelOp, if_pos cancels]
  exact mem_append_right _ (mem_singleton_self id)

theorem Sound.react {id : Nat} {op : TimerOp} {ok : Bool}
    (found : timers.ops[id]? = some op) (completed : op.stage = .completed ok) :
    (timers.markOp id fun op => { op with stage := .done }).Sound := by
  have gone : id ∉ timers.held := by
    intro held
    obtain ⟨_, same, stage⟩ := sound.waiting id held
    cases found.symm.trans same
    cases completed.symm.trans stage
  exact sound.markOp id _ (fun _ _ => .inr gone) (fun _ _ _ => ⟨nofun, fun held => absurd held gone⟩)

theorem Sound.ran {cleared : Bool} (uncleared : cleared = false) :
    Sound { timers with ranCleared := timers.ranCleared || cleared } :=
  ⟨sound.waiting, sound.timeouts, sound.intervals, by rw [Obedient, uncleared, Bool.or_false]; exact sound.obedient⟩

end

theorem step_sound (timers : Timers) (label : TimerLabel) (next : Timers) (sound : timers.Sound)
    (orderly : timers.Orderly label) (taken : timers.step label = some next) : next.Sound := by
  cases label with
  | setTimeout =>
    cases taken
    exact sound.startOp none
  | setInterval =>
    cases taken
    have started := sound.startOp (some timers.intervals.length)
    refine ⟨started.waiting, started.timeouts, ?_, started.obedient⟩
    intro handle interval found cleared
    rcases of_getElem?_append found with before | ⟨_, rfl⟩
    · exact sound.intervals handle interval before cleared
    · cases cleared
  | clearTimeout timer =>
    cases timer with
    | timeout id =>
      cases taken
      obtain ⟨ops, held⟩ := cancelOp_frame timers id
      refine (sound.cancelOp id).markOp id _ (fun _ _ => .inl rfl) ?_
      intro op found _
      rw [ops] at found
      refine ⟨orderly op found, fun here => ?_⟩
      rw [held] at here
      exact cancelOp_deferred sound here
    | interval handle =>
      cases taken
      exact sound.markInterval handle _ fun interval found _ => orderly interval found
  | clearInterval timer =>
    cases timer with
    | timeout id =>
      cases taken
      refine sound.markOp id _ (fun _ _ => .inl rfl) ?_
      intro op found _
      obtain ⟨stage, gone⟩ := orderly op found
      exact ⟨stage, fun held => absurd held gone⟩
    | interval handle =>
      have unlisted := sound.markInterval handle
        (fun interval => { interval with cleared := true, listed := false }) (fun _ _ _ => rfl)
      simp only [step] at taken
      split at taken <;> cases taken
      · exact unlisted.cancelOp _
      · exact unlisted
  | react id =>
    simp only [step] at taken
    split at taken
    · rename_i ok interval cleared found
      have reacted := sound.react found rfl
      split at taken
      · cases taken
        exact reacted
      · cases taken
        refine reacted.ran (Bool.eq_false_iff.mpr fun wasCleared => ?_)
        exact (sound.timeouts id _ found wasCleared).1 rfl
      · rename_i handle
        split at taken <;> cases taken
        · rename_i current running cleared listed
          have marked := reacted.markInterval handle
            (fun interval => { interval with running := true })
            (fun interval found cleared => sound.intervals handle interval found cleared)
          refine marked.ran (Bool.eq_false_iff.mpr fun wasCleared => ?_)
          cases sound.intervals handle _ listed wasCleared
        · exact reacted
    · cases taken
  | rearm handle =>
    simp only [step] at taken
    split at taken <;> cases taken
    have returned := sound.markInterval handle
      (fun interval => { interval with running := false, current := timers.ops.length })
      (fun interval found cleared => sound.intervals handle interval found cleared)
    split
    · exact returned.startOp _
    · exact returned
  | settle =>
    cases taken
    exact sound.complete _ false [] nofun (fun _ member => .inl member)
  | deliver id ok =>
    obtain ⟨⟨settled, held⟩, rfl⟩ := ite_some_none_eq_some.mp taken
    refine sound.complete [id] ok timers.deferred ?_ (fun _ member => .inr member)
    intro _ other same op found _
    cases mem_singleton.mp same
    refine Bool.eq_false_iff.mpr fun cleared => ?_
    have awaited := (sound.timeouts id op found cleared).2 held
    rw [settled] at awaited
    cases awaited
  | stop =>
    cases taken
    refine sound.complete timers.held true timers.deferred ?_ (fun _ member => .inr member)
    intro _ id held op found _
    refine Bool.eq_false_iff.mpr fun cleared => ?_
    have awaited := (sound.timeouts id op found cleared).2 held
    rw [show timers.deferred = [] from orderly] at awaited
    cases awaited
  | cancel =>
    cases taken
    have completed := sound.complete timers.held false timers.deferred nofun
      (fun _ member => .inr member)
    exact ⟨completed.waiting, completed.timeouts, completed.intervals, completed.obedient⟩

end Timers

/-- While timers are cleared as their kind wants it, not on the way to their callback and not
by the listeners of a stop, the callback of a cleared timer never runs. -/
theorem cleared_timers_silent (labels : List TimerLabel)
    (orderly : Transition.Meets Timers.step Timers.Orderly Timers.new labels) :
    Transition.Along Timers.step Timers.Obedient Timers.new labels :=
  along_imp (fun _ sound => sound.obedient)
    (along_of_meets Timers.step_sound ⟨nofun, nofun, nofun, rfl⟩ orderly)

theorem cleared_timers_silent_two :
    Transition.Along Timers.step Timers.Obedient Timers.new
      [.setTimeout, .setTimeout, .clearTimeout (.timeout 0), .settle, .deliver 1 true, .react 1] :=
  cleared_timers_silent _ ⟨trivial, trivial, by rintro op ⟨⟩; exact nofun, trivial, trivial, trivial, trivial⟩

/-- A listener clears a timeout, and the stop that called it completes the timeout. -/
theorem stop_runs_cleared_timer :
    (Transition.exec Timers.step Timers.new
      [.setTimeout, .clearTimeout (.timeout 0), .stop, .settle, .react 0]).map
        Timers.ranCleared = some true := by
  decide

end Usai.Execution
