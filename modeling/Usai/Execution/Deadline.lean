import Usai.Execution.Clock

/-! The deadline of a world: the timer that first asks a connection or a service
to stop and is then armed again as the bound of its unwinding. What it does is
proved of the automaton of the clock, with the history of what has happened, and
read off every run of the driver. -/

namespace Usai.Execution

open List Option Ownership Transition World

/-- What has happened: how often the deadline asked the world to stop and how often
the guest was told, whether the deadline has fired, whether the owner has
cancelled, whether someone else has signalled the stop, and whether a guest entry
of the driven world has failed before what was then its deadline. -/
structure History where
  asked : Nat
  told : Nat
  fired : Bool
  owner : Bool
  signalled : Bool
  broke : Bool

namespace History

def none : History := ⟨0, 0, false, false, false, false⟩

def after (history : History) (clock : Clock) (event : Event) (next : Clock) : History where
  asked := if event = .deadline ∧ next.driving = true then history.asked + 1 else history.asked
  told := if event = .told then history.told + 1 else history.told
  fired := history.fired || event == .deadline
  owner := history.owner || event == .owner
  signalled := history.signalled || event == .signal
  broke := history.broke || (clock.driving && event == .failure false)

/-- A world that was asked to stop ends as `DeadlineExceeded`, unless its owner
cancelled it or its guest failed before the grace elapsed. -/
def Excuses (history : History) : Termination → Prop
  | .deadlineExceeded => True
  | .cancelled _ => history.owner = true
  | .faulted _ => history.owner = true ∨ history.broke = true
  | .completed => False

end History

/-- The invariant of the automaton, for a world of this specification whose counter
stood at `initial`. -/
structure Timely (spec : WorldSpec) (initial : Nat) (clock : Clock) (history : History) : Prop where
  spec : clock.spec = spec
  asked : history.asked = if clock.stopped then 1 else 0
  early : clock.stage = .early → clock.stopped = false ∧ clock.stopArmed = false ∧ history.told = 0
  eligible : clock.stopped = true →
    clock.spec.finite = false ∧ clock.spec.stop = true ∧ clock.spec.deadline = true ∧
      history.fired = true
  told : history.told ≤ 1
  armed : clock.stopArmed = true → history.told = 0
  driven : clock.driving = true →
    clock.termination = none ∧ clock.overruns = initial ∧
      (clock.cancelFired = true → history.owner = true) ∧ clock.severed = false
  cancelling : ∀ reason atDeadline, clock.stage = .cancelling reason atDeadline →
    clock.termination = none ∧ clock.overruns = initial ∧
      (if atDeadline then clock.stopped = false else history.owner = true)
  overruns : clock.overruns = initial ∨ clock.overruns = initial + 1 ∧ history.fired = true
  verdict : clock.stopped = true → ∀ termination, clock.termination = some termination →
    history.Excuses termination
  signalled : clock.spec.finite = true → clock.stopFired = true → history.signalled = true

structure History.Grown (before after : History) : Prop where
  asked : after.asked = before.asked
  told : after.told = before.told
  fired : before.fired = true → after.fired = true
  owner : before.owner = true → after.owner = true
  signalled : before.signalled = true → after.signalled = true
  broke : before.broke = true → after.broke = true

section

variable {spec : WorldSpec} {initial : Nat} {clock next : Clock} {before history : History} {event : Event}
  {termination : Termination}

theorem History.flags_grown (history : History) (clock : Clock) (event : Event) (next : Clock) :
    history.Grown { history.after clock event next with asked := history.asked, told := history.told } where
  asked := rfl
  told := rfl
  fired := fun fired => Bool.or_eq_true_iff.mpr (.inl fired)
  owner := fun owner => Bool.or_eq_true_iff.mpr (.inl owner)
  signalled := fun signalled => Bool.or_eq_true_iff.mpr (.inl signalled)
  broke := fun broke => Bool.or_eq_true_iff.mpr (.inl broke)

theorem History.after_grown (unasked : event = .deadline → next.driving = false)
    (untold : event ≠ .told) : history.Grown (history.after clock event next) where
  asked := by
    apply if_neg
    rintro ⟨deadline, driving⟩
    cases (unasked deadline).symm.trans driving
  told := if_neg untold
  fired := (history.flags_grown clock event next).fired
  owner := (history.flags_grown clock event next).owner
  signalled := (history.flags_grown clock event next).signalled
  broke := (history.flags_grown clock event next).broke

theorem History.Grown.excuses (grown : before.Grown history)
    (excused : before.Excuses termination) : history.Excuses termination := by
  cases termination with
  | completed => exact excused
  | deadlineExceeded => trivial
  | cancelled => exact grown.owner excused
  | faulted => exact excused.imp grown.owner grown.broke

namespace Timely

theorem grow (timely : Timely spec initial clock before) (grown : before.Grown history) :
    Timely spec initial clock history where
  spec := timely.spec
  asked := grown.asked.trans timely.asked
  early := by
    intro early
    obtain ⟨stopped, armed, told⟩ := timely.early early
    exact ⟨stopped, armed, grown.told.trans told⟩
  eligible := by
    intro stopped
    obtain ⟨lasting, stoppable, declared, fired⟩ := timely.eligible stopped
    exact ⟨lasting, stoppable, declared, grown.fired fired⟩
  told := grown.told ▸ timely.told
  armed := fun armed => grown.told.trans (timely.armed armed)
  driven := by
    intro driving
    obtain ⟨termination, overruns, cancelled, severed⟩ := timely.driven driving
    exact ⟨termination, overruns, fun fired => grown.owner (cancelled fired), severed⟩
  cancelling := by
    intro reason atDeadline stage
    obtain ⟨termination, overruns, cause⟩ := timely.cancelling reason atDeadline stage
    refine ⟨termination, overruns, ?_⟩
    cases atDeadline with
    | true => exact cause
    | false => exact grown.owner cause
  overruns := timely.overruns.imp_right fun grew => ⟨grew.1, grown.fired grew.2⟩
  verdict := fun stopped termination ended => grown.excuses (timely.verdict stopped termination ended)
  signalled := fun finite fired => grown.signalled (timely.signalled finite fired)

section

variable (timely : Timely spec initial clock history)
include timely

theorem leave : Timely spec initial (clock.leave .done) history :=
  { timely with
    early := nofun
    driven := nofun
    cancelling := nofun }

theorem finish (excused : clock.stopped = true → history.Excuses termination) :
    Timely spec initial (clock.finish termination) history :=
  { timely with
    early := nofun
    driven := nofun
    cancelling := nofun
    verdict := by
      intro stopped other ended
      cases ended
      exact excused stopped }

theorem cancel (driving : clock.driving = true)
    (cause : if atDeadline then clock.stopped = false else history.owner = true) :
    Timely spec initial (clock.leave (.cancelling reason atDeadline)) history :=
  { timely with
    early := nofun
    driven := nofun
    cancelling := by
      intro other late stage
      cases stage
      obtain ⟨termination, overruns, _⟩ := timely.driven driving
      exact ⟨termination, overruns, cause⟩ }

theorem overrun (driving : clock.driving = true) (fired : history.fired = true) :
    Timely spec initial { clock.finish .deadlineExceeded with overruns := clock.overruns + 1 } history :=
  { timely with
    early := nofun
    driven := nofun
    cancelling := nofun
    overruns := by
      obtain ⟨_, overruns, _⟩ := timely.driven driving
      exact .inr ⟨congrArg (· + 1) overruns, fired⟩
    verdict := by
      intro stopped other ended
      cases ended
      trivial }

end

theorem turn (timely : Timely spec initial clock before) (turn : Turn clock event next) :
    Timely spec initial next (before.after clock event next) := by
  have looped : clock.stage = .looping → clock.driving = true := by
    intro stage
    rw [Clock.driving, stage]
  have grown : (event = .deadline → next.driving = false) → event ≠ .told →
      Timely spec initial clock (before.after clock event next) :=
    fun unasked untold => timely.grow (History.after_grown unasked untold)
  have flags := timely.grow (before.flags_grown clock event next)
  cases turn with
  | still apart => exact grown (fun deadline => absurd deadline apart.1) apart.2
  | entered early =>
    have grown := grown (by simp) (by simp)
    obtain ⟨stopped, armed, told⟩ := grown.early early
    have driven := grown.driven (by rw [Clock.driving, early])
    exact { grown with
      asked := by rw [grown.asked, stopped]
      early := by simp
      eligible := by simp
      armed := fun _ => told
      driven := fun _ => driven
      cancelling := by simp
      verdict := by simp }
  | owner =>
    have grown := grown (by simp) (by simp)
    exact { grown with
      driven := by
        intro driving
        obtain ⟨termination, overruns, _, severed⟩ := grown.driven driving
        exact ⟨termination, overruns, fun _ => Bool.or_true _, severed⟩ }
  | signal =>
    exact { grown (by simp) (by simp) with
      signalled := fun _ _ => Bool.or_true _ }
  | told looping armed =>
    exact { flags with
      early := by
        intro early
        cases looping.symm.trans early
      told := by
        show before.told + 1 ≤ 1
        rw [timely.armed armed]
      armed := by simp }
  | asked looping declared first lasting stoppable =>
    have driving := looped looping
    have driven := flags.driven driving
    exact { flags with
      asked := by
        show (if _ then before.asked + 1 else before.asked) = 1
        rw [timely.asked, first]
        exact if_pos ⟨rfl, driving⟩
      early := by
        intro early
        cases looping.symm.trans early
      eligible := fun _ => ⟨lasting, stoppable, declared, Bool.or_true _⟩
      driven := fun _ => driven
      cancelling := by
        intro reason atDeadline stage
        cases looping.symm.trans stage
      overruns := .inl driven.2.1
      verdict := by
        intro _ termination ended
        cases driven.1.symm.trans ended
      signalled := by
        intro finite
        cases lasting.symm.trans finite }
  | overran looping stopped untold =>
    have grown := grown (fun _ => rfl) untold
    exact grown.overrun (looped looping) (grown.eligible stopped).2.2.2
  | interrupted => exact (grown (fun _ => rfl) (by simp)).finish (fun _ => trivial)
  | @faulted elapsed _ driving cause =>
    have grown := grown (fun _ => rfl) (by simp)
    apply grown.finish
    intro stopped
    obtain ⟨_, _, declared, _⟩ := grown.eligible stopped
    cases elapsed with
    | true => exact absurd ⟨declared, rfl⟩ (cause stopped)
    | false =>
      right
      simp only [History.after, driving, beq_self_eq_true, Bool.and_self, Bool.or_true]
  | cut looping severed =>
    obtain ⟨_, _, _, joined⟩ := timely.driven (looped looping)
    cases joined.symm.trans severed
  | settled =>
    apply (grown (fun _ => rfl) (by simp)).finish
    intro stopped
    rw [if_pos stopped]
    trivial
  | cancelled looping fired =>
    have grown := grown (fun _ => rfl) (by simp)
    obtain ⟨_, _, cancelled, _⟩ := grown.driven (looped looping)
    exact grown.cancel (looped looping) (cancelled fired)
  | bounded looping unasked => exact (grown (fun _ => rfl) (by simp)).cancel (looped looping) unasked
  | @unwound reason atDeadline _ termination cancelling ends apart =>
    have grown := grown (fun _ => rfl) apart.2
    obtain ⟨_, _, cause⟩ := grown.cancelling reason atDeadline cancelling
    apply grown.finish
    intro stopped
    cases atDeadline with
    | true => cases cause.symm.trans stopped
    | false =>
      cases termination with
      | completed => exact absurd rfl ends
      | deadlineExceeded => trivial
      | cancelled => exact cause
      | faulted => exact .inl cause
  | dropped apart => exact (grown (fun _ => rfl) apart.2).leave

end Timely

end

def Label.drives : Label → Bool
  | .returns _ _ | .run | .cancelArm | .stopArm | .deadlineArm | .recvArm | .dropDriver
  | .dropFields => true
  | .guestStart _ | .guestCancel _ | .guestSettle | .cancelToken | .stopToken | .finish _ _
  | .reserve _ | .push _ | .refuse _ | .abort _ | .foreign _ => false

/-- A step of a world whose grace has elapsed, unless its owner cancels or drops it
or its guest failed before: the select is biased and polls the timer before the
completions, so the timer is taken in their place. -/
def Label.due : Label → Bool
  | .recvArm | .cancelArm | .dropDriver | .returns (.error _) false => false
  | _ => true

namespace World

/-- How many steps the driver of a world that was asked to stop is from its end,
once the grace has elapsed. -/
def unwinding (world : World) : Nat :=
  (match world.phase with
    | .selecting => 1
    | .polling => 2
    | _ => 3) + if world.stopArmed then 3 else 0

structure Unwinding (world : World) (steps : Nat) : Prop where
  looping : world.clock.stage = .looping
  stopped : world.stoppedAtDeadline = true
  declared : world.spec.deadline = true
  left : world.unwinding ≤ steps

structure Expired (world : World) : Prop where
  past : world.clock.stage = .done
  verdict : world.clock.termination = some .deadlineExceeded

variable {world next : World} {label : Label} {steps : Nat} {labels : List Label}

theorem unwindOverran_expired (world : World) : world.unwindOverran.Expired := by
  constructor <;> rw [unwindOverran_clock] <;> rfl

theorem expired_step (expired : world.Expired) (taken : world.step label = some next) :
    next.Expired := by
  have turn : Turn world.clock label.event next.clock := by
    apply turn_of_step ?_ taken
    intro early
    cases expired.past.symm.trans early
  obtain ⟨past, same⟩ := turn.past expired.past
  exact ⟨past, same.trans expired.verdict⟩

theorem step_frame (idle : label.drives = false) (taken : world.step label = some next) :
    next.phase = world.phase ∧ next.spec = world.spec ∧ next.stopArmed = world.stopArmed ∧
      next.stoppedAtDeadline = world.stoppedAtDeadline := by
  cases label with
  | guestStart =>
    obtain ⟨_, rfl⟩ := ite_some_none_eq_some.mp taken
    split <;> exact ⟨rfl, rfl, rfl, rfl⟩
  | guestCancel | guestSettle | foreign =>
    obtain ⟨_, rfl⟩ := ite_some_none_eq_some.mp taken
    exact ⟨rfl, rfl, rfl, rfl⟩
  | cancelToken | stopToken =>
    cases taken
    exact ⟨rfl, rfl, rfl, rfl⟩
  | finish | reserve | push | refuse | abort =>
    obtain ⟨_, _, rfl⟩ := map_eq_some_iff.mp taken
    exact ⟨rfl, rfl, rfl, rfl⟩
  | returns | run | cancelArm | stopArm | deadlineArm | recvArm | dropDriver | dropFields => cases idle

theorem expired_run (expired : world.Expired)
    (run : exec step world labels = some final) : final.Expired := by
  have preserved (world : World) (label : Label) (next : World) (expired : world.Expired)
      (_ : True) (taken : world.step label = some next) : next.Expired :=
    expired_step expired taken
  exact along_reached (along_of_meets preserved expired (meets_true world labels)) run

theorem unwinding_pos (world : World) : 0 < world.unwinding := by
  unfold unwinding
  split <;> omega

theorem unwinding_le (world : World) : world.unwinding ≤ 6 := by
  unfold unwinding
  split <;> split <;> omega

variable (unwinding : world.Unwinding steps)
include unwinding

theorem unwinding_idle (idle : label.drives = false)
    (taken : world.step label = some next) : next.Unwinding steps := by
  obtain ⟨phase, spec, armed, stopped⟩ := step_frame idle taken
  refine ⟨?_, stopped.trans unwinding.stopped, ?_, ?_⟩
  · show next.phase.clockStage = .looping
    rw [phase]
    exact unwinding.looping
  · rw [spec]
    exact unwinding.declared
  · unfold World.unwinding
    rw [phase, armed]
    exact unwinding.left

theorem Unwinding.moved
    (frame : next.spec = world.spec ∧ next.stoppedAtDeadline = world.stoppedAtDeadline)
    (looping : next.phase.clockStage = .looping) (nearer : next.unwinding < world.unwinding) :
    next.Unwinding (steps - 1) := by
  refine ⟨looping, frame.2.trans unwinding.stopped, ?_, ?_⟩
  · rw [frame.1]
    exact unwinding.declared
  · have left := unwinding.left
    omega

theorem returns_unwinding (due : (Label.returns result elapsed).due = true)
    (taken : world.returns elapsed result = some next) :
    next.Unwinding (steps - 1) ∨ next.Expired := by
  have stopped := unwinding.stopped
  have looping : world.phase.clockStage = .looping := unwinding.looping
  cases result with
  | ok reply =>
    unfold returns at taken
    cases phase : world.phase with
    | polling =>
      simp only [phase, stopped] at taken
      split at taken
      case isTrue =>
        cases taken
        refine .inr ⟨?_, ?_⟩ <;> rw [endDrive_clock] <;> rfl
      case isFalse =>
        cases taken
        left
        refine unwinding.moved ⟨rfl, stopped.symm⟩ rfl ?_
        simp only [World.unwinding, phase]
        omega
    | stopping =>
      simp only [phase] at taken
      cases taken
      left
      refine unwinding.moved ⟨rfl, rfl⟩ rfl ?_
      simp only [World.unwinding, phase]
      omega
    | delivering =>
      simp only [phase] at taken
      cases taken
      left
      unfold World.acknowledge
      cases reply.accepted <;>
      · refine unwinding.moved ⟨rfl, rfl⟩ rfl ?_
        simp [World.unwinding, phase]
    | selecting =>
      simp only [phase] at taken
      cases taken
    | instantiating | created | invoking | cancelling | finalizing | detaching | retired | gone
    | abandoned => cases (congrArg Phase.clockStage phase).symm.trans looping
  | error detail =>
    cases elapsed with
    | false => cases due
    | true =>
      -- the grace has elapsed, so the failure is the watchdog's
      have overran (world : World) (stopped : world.stoppedAtDeadline = true)
          (declared : world.spec.deadline = true) : (world.guestFailed detail true).Expired := by
        unfold guestFailed
        rw [if_pos ⟨declared, rfl⟩, if_pos stopped]
        exact unwindOverran_expired world
      right
      unfold returns at taken
      cases phase : world.phase with
      | polling =>
        simp only [phase] at taken
        cases taken
        exact overran world stopped unwinding.declared
      | stopping =>
        simp only [phase, stopped] at taken
        cases taken
        exact unwindOverran_expired world
      | delivering =>
        simp only [phase] at taken
        cases taken
        apply overran
        · exact (congrArg Clock.stopped leaveRoute_clock).trans stopped
        · have same : world.leaveRoute.spec.deadline = world.spec.deadline :=
            congrArg (fun clock : Clock => clock.spec.deadline) leaveRoute_clock
          exact same.trans unwinding.declared
      | selecting =>
        simp only [phase] at taken
        cases taken
      | instantiating | created | invoking | cancelling | finalizing | detaching | retired
      | gone | abandoned => cases (congrArg Phase.clockStage phase).symm.trans looping

theorem unwinding_drives (drives : label.drives = true)
    (due : label.due = true) (taken : world.step label = some next) :
    next.Unwinding (steps - 1) ∨ next.Expired := by
  have looping : world.phase.clockStage = .looping := unwinding.looping
  cases label with
  | returns => exact returns_unwinding unwinding due taken
  | run | dropFields =>
    simp only [World.step] at taken
    split at taken
    case h_1 phase => cases (congrArg Phase.clockStage phase).symm.trans looping
    case h_2 => cases taken
  | stopArm =>
    obtain ⟨phase, ready, same⟩ := arm_ready taken
    cases same
    left
    refine unwinding.moved ⟨rfl, rfl⟩ rfl ?_
    have armed := (Bool.and_eq_true_iff.mp ready).1
    simp [World.unwinding, phase, armed]
  | deadlineArm =>
    obtain ⟨_, _, same⟩ := arm_ready taken
    cases same
    right
    unfold World.deadlineArm
    rw [if_neg (by simp [unwinding.stopped]), if_pos unwinding.stopped]
    exact unwindOverran_expired world
  | cancelArm | recvArm | dropDriver => cases due
  | guestStart | guestCancel | guestSettle | cancelToken | stopToken | finish | reserve | push
  | refuse | abort | foreign => cases drives

theorem unwinding_run
    (due : labels.all Label.due = true) (run : exec step world labels = some final) :
    final.Unwinding (steps - labels.countP Label.drives) ∨ final.Expired := by
  induction labels generalizing world steps with
  | nil =>
    cases run
    exact .inl unwinding
  | cons label _ ih =>
    rw [all_cons, Bool.and_eq_true_iff] at due
    obtain ⟨_, taken, run⟩ := bind_eq_some_iff.mp run
    cases drives : label.drives with
    | false =>
      rw [countP_cons_of_neg (by simp [drives])]
      exact ih (unwinding_idle unwinding drives taken) due.2 run
    | true =>
      rw [countP_cons_of_pos drives, Nat.add_comm, ← Nat.sub_sub]
      rcases unwinding_drives unwinding drives due.1 taken with unwinding | expired
      · exact ih unwinding due.2 run
      · exact .inr (expired_run expired run)

theorem unwinding_enabled (result : Except String Reply) (elapsed : Bool) :
    (world.step (.returns result elapsed)).isSome = true ∨ (world.step .deadlineArm).isSome = true := by
  have looping : world.phase.clockStage = .looping := unwinding.looping
  cases phase : world.phase with
  | selecting =>
    right
    simp only [step, arm, phase, unwinding.declared, if_true, isSome_some]
  | polling | stopping | delivering =>
    left
    cases result <;> simp only [step, returns, phase] <;> first | rfl | (split <;> rfl)
  | instantiating | created | invoking | cancelling | finalizing | detaching | retired | gone
  | abandoned => cases (congrArg Phase.clockStage phase).symm.trans looping

end World

structure Timeline where
  world : World
  history : History

namespace Timeline

def start (spec : WorldSpec) (ledger : Ledger) : Timeline := ⟨World.create spec ledger, .none⟩

def step (timeline : Timeline) (label : Label) : Option Timeline :=
  (timeline.world.step label).map fun next =>
    ⟨next, timeline.history.after timeline.world.clock label.event next.clock⟩

/-- What the deadline of a world of this specification does, over a counter that
stood at `initial` when the world was created. -/
structure Bounded (spec : WorldSpec) (initial : Nat) (timeline : Timeline) : Prop where
  asked_once : timeline.history.asked ≤ 1 ∧ timeline.history.told ≤ 1
  asked_only : 0 < timeline.history.asked → spec.finite = false ∧ spec.stop = true
  verdict : 0 < timeline.history.asked → ∀ termination,
    timeline.world.termination = some termination → timeline.history.Excuses termination
  /-- The driver of a world that was asked is never stuck, and once the grace has
  elapsed six of its steps end it. -/
  unwinds : 0 < timeline.history.asked → timeline.world.phase.driving = true →
    (∀ result elapsed, (timeline.world.step (.returns result elapsed)).isSome = true ∨
      (timeline.world.step .deadlineArm).isSome = true) ∧
    ∀ labels final, labels.all Label.due = true → 6 ≤ labels.countP Label.drives →
      exec World.step timeline.world labels = some final →
        final.termination = some .deadlineExceeded
  overruns : timeline.world.host.overruns = initial ∨
    timeline.world.host.overruns = initial + 1 ∧ timeline.history.fired = true
  unsignalled : spec.finite = true → timeline.world.stopFired = true →
    timeline.history.signalled = true

def Kept (spec : WorldSpec) (initial : Nat) (timeline : Timeline) : Prop :=
  Timely spec initial timeline.world.clock timeline.history

theorem start_kept (spec : WorldSpec) (ledger : Ledger) :
    (start spec ledger).Kept spec ledger.gauges.deadlineUnwindOverruns where
  spec := rfl
  asked := rfl
  early := fun _ => ⟨rfl, rfl, rfl⟩
  eligible := nofun
  told := Nat.zero_le 1
  armed := nofun
  driven := fun _ => ⟨rfl, rfl, nofun, rfl⟩
  cancelling := nofun
  overruns := .inl rfl
  verdict := nofun
  signalled := nofun

variable {spec : WorldSpec} {initial : Nat} {timeline : Timeline}

theorem step_kept (timeline : Timeline) (label : Label) (next : Timeline)
    (kept : timeline.Kept spec initial) (_ : True) (taken : timeline.step label = some next) :
    next.Kept spec initial := by
  obtain ⟨world, stepped, rfl⟩ := map_eq_some_iff.mp taken
  have turn : Turn timeline.world.clock label.event world.clock :=
    turn_of_step (fun early => (kept.early early).1) stepped
  exact kept.turn turn

theorem Kept.stopped (kept : timeline.Kept spec initial)
    (asked : 0 < timeline.history.asked) : timeline.world.clock.stopped = true := by
  have count := kept.asked
  cases stopped : timeline.world.clock.stopped with
  | true => rfl
  | false =>
    rw [stopped, if_neg Bool.false_ne_true] at count
    omega

theorem Kept.unwinding (kept : timeline.Kept spec initial)
    (asked : 0 < timeline.history.asked) (driving : timeline.world.phase.driving = true) :
    timeline.world.Unwinding 6 := by
  have stopped := kept.stopped asked
  obtain ⟨_, _, declared, _⟩ := kept.eligible stopped
  have late : timeline.world.clock.stage ≠ .early := by
    intro early
    cases (kept.early early).1.symm.trans stopped
  refine ⟨?_, stopped, declared, unwinding_le _⟩
  show timeline.world.phase.clockStage = .looping
  cases phase : timeline.world.phase with
  | polling | selecting | stopping | delivering => rfl
  | instantiating | created | invoking => exact absurd (congrArg Phase.clockStage phase) late
  | cancelling | finalizing | detaching | retired | gone | abandoned =>
    cases (congrArg Phase.driving phase).symm.trans driving

theorem Kept.bounded (kept : timeline.Kept spec initial) :
    timeline.Bounded spec initial where
  asked_once := by
    refine ⟨?_, kept.told⟩
    rw [kept.asked]
    split <;> omega
  asked_only := by
    intro asked
    obtain ⟨lasting, stoppable, _⟩ := kept.eligible (kept.stopped asked)
    exact ⟨kept.spec ▸ lasting, kept.spec ▸ stoppable⟩
  verdict := fun asked => kept.verdict (kept.stopped asked)
  unwinds := by
    intro asked driving
    have unwinding := kept.unwinding asked driving
    refine ⟨unwinding_enabled unwinding, ?_⟩
    intro labels final due enough run
    rcases unwinding_run unwinding due run with unwinding | expired
    · have left := unwinding.left
      have positive := unwinding_pos final
      omega
    · exact expired.verdict
  overruns := kept.overruns
  unsignalled := fun finite => kept.signalled (kept.spec ▸ finite)

end Timeline

/-- In every run of a driver its deadline asks the world to stop at most once, only
if it is not finite and has a stop token; a world that was asked ends as
`DeadlineExceeded` unless its owner cancels it or its guest fails before the grace
elapses; the overrun is counted at most once and only after the deadline fired; the
stop token of a finite world is fired by others only. -/
theorem deadline_asks_once_then_bounds (spec : WorldSpec) (ledger : Ledger) (labels : List Label) :
    Along Timeline.step (Timeline.Bounded spec ledger.gauges.deadlineUnwindOverruns)
      (Timeline.start spec ledger) labels := by
  have kept := along_of_meets Timeline.step_kept (Timeline.start_kept spec ledger)
    (meets_true (Timeline.start spec ledger) labels)
  exact along_imp (fun _ => Timeline.Kept.bounded) kept

end Usai.Execution
