import Usai.Execution.Keeping

/-! The driver as its deadline sees it: a small automaton over the flags the timer
arm reads and sets, and the proof that every step of the driver is a step of it. -/

namespace Usai.Execution

open Host Option Ownership

def Host.overruns (host : Host) : Nat := host.ledger.gauges.deadlineUnwindOverruns

namespace Host

variable (host : Host)

theorem overruns_release (ledger : Ledger) (op : OpId) :
    (ledger.release op).1.gauges.deadlineUnwindOverruns = ledger.gauges.deadlineUnwindOverruns := by
  unfold Ledger.release
  split <;> rfl

@[simp] theorem overruns_dropGuard (guard : OpGuard) : (host.dropGuard guard).overruns = host.overruns := by
  unfold Host.overruns Host.dropGuard OpGuard.drop
  split
  · rfl
  · exact overruns_release host.ledger guard.op

@[simp] theorem overruns_releaseGuard (guard : OpGuard) :
    (host.releaseGuard guard).overruns = host.overruns :=
  overruns_release host.ledger guard.op

@[simp] theorem overruns_cancelOp (world : WorldId) (op : OpId) :
    (host.cancelOp world op).overruns = host.overruns := by
  unfold overruns cancelOp Ledger.cancelOp
  split
  · split <;> rfl
  · rfl

@[simp] theorem overruns_cancelWorld (world : WorldId) :
    (host.cancelWorld world).overruns = host.overruns := rfl

@[simp] theorem overruns_start (world : WorldId) (kind : String) :
    (host.start world kind).overruns = host.overruns := rfl

@[simp] theorem overruns_close : host.close.overruns = host.overruns := rfl

theorem overruns_dropAll (completions : List Completion) (host : Host) :
    (completions.foldl (fun host completion => host.dropGuard completion.guard) host).overruns =
      host.overruns := by
  induction completions generalizing host with
  | nil => rfl
  | cons _ _ ih => rw [List.foldl_cons, ih, overruns_dropGuard]

@[simp] theorem overruns_drain : host.drain.overruns = host.overruns :=
  overruns_dropAll host.queue { host with queue := [] }

@[simp] theorem overruns_reap : host.reap.overruns = host.overruns := by
  unfold reap
  split
  · exact overruns_drain host
  · rfl

theorem overruns_apply (ledger : Ledger) (operation : Operation) :
    (operation.apply ledger).1.gauges.deadlineUnwindOverruns =
      ledger.gauges.deadlineUnwindOverruns := by
  cases operation with
  | start => rfl
  | cancelOp op world => exact overruns_cancelOp (new ledger) world op
  | cancelWorld => rfl
  | release op => exact overruns_release ledger op
  | releaseGuard guard => exact overruns_release ledger guard.op
  | dropGuard guard => exact overruns_dropGuard (new ledger) guard

theorem overruns_gauge (gauge : Gauge) (other : gauge ≠ .unwindOverrun) :
    (host.gauge gauge).overruns = host.overruns := by
  cases gauge <;> first | rfl | exact absurd rfl other

variable {host}

end Host

/-- Where a driver is, for its deadline: before `drive`, in its loop, telling the
guest of a cancellation, or past it. -/
inductive ClockStage where
  | early
  | looping
  | cancelling (reason : String) (atDeadline : Bool)
  | done
  deriving DecidableEq, Repr

def Phase.clockStage : Phase → ClockStage
  | .instantiating | .created | .invoking => .early
  | .polling | .selecting | .stopping | .delivering _ => .looping
  | .cancelling reason atDeadline => .cancelling reason atDeadline
  | .finalizing | .detaching | .retired | .gone | .abandoned => .done

/-- What the deadline depends on and what it decides. The cancel token and the
completion channel matter only until the loop is left. -/
structure Clock where
  spec : WorldSpec
  stage : ClockStage
  cancelFired : Bool
  severed : Bool
  stopFired : Bool
  stopArmed : Bool
  stopped : Bool
  termination : Option Termination
  overruns : Nat

def World.clock (world : World) : Clock where
  spec := world.spec
  stage := world.phase.clockStage
  cancelFired := world.phase.driving && world.cancelFired
  severed := world.phase.driving && world.host.closed
  stopFired := world.stopFired
  stopArmed := world.stopArmed
  stopped := world.stoppedAtDeadline
  termination := world.termination
  overruns := world.host.overruns

inductive Event where
  | deadline
  | told
  | owner
  | signal
  | failure (elapsed : Bool)
  | other
  deriving DecidableEq, Repr

def Label.event : Label → Event
  | .deadlineArm => .deadline
  | .stopArm => .told
  | .cancelToken => .owner
  | .stopToken => .signal
  | .returns (.error _) elapsed => .failure elapsed
  | _ => .other

def Clock.leave (clock : Clock) (stage : ClockStage) : Clock :=
  { clock with stage, cancelFired := false, severed := false }

def Clock.finish (clock : Clock) (termination : Termination) : Clock :=
  { clock.leave .done with termination := some termination }

def Clock.driving (clock : Clock) : Bool :=
  match clock.stage with
  | .early | .looping => true
  | .cancelling _ _ | .done => false

inductive Turn (clock : Clock) : Event → Clock → Prop
  | still (apart : event ≠ .deadline ∧ event ≠ .told) : Turn clock event clock
  | entered (early : clock.stage = .early) :
      Turn clock .other
        { clock with stage := .looping, stopArmed := clock.spec.stop, stopped := false }
  | owner (fired : Bool) : Turn clock .owner { clock with cancelFired := fired }
  | signal : Turn clock .signal { clock with stopFired := true }
  | told (looping : clock.stage = .looping) (armed : clock.stopArmed = true) :
      Turn clock .told { clock with stopArmed := false }
  | asked (looping : clock.stage = .looping) (declared : clock.spec.deadline = true)
      (first : clock.stopped = false) (lasting : clock.spec.finite = false)
      (stoppable : clock.spec.stop = true) :
      Turn clock .deadline { clock with stopped := true, stopFired := true }
  | overran (looping : clock.stage = .looping) (stopped : clock.stopped = true)
      (apart : event ≠ .told) :
      Turn clock event { clock.finish .deadlineExceeded with overruns := clock.overruns + 1 }
  | interrupted (driving : clock.driving = true) (unasked : clock.stopped = false) :
      Turn clock (.failure elapsed) (clock.finish .deadlineExceeded)
  | faulted (driving : clock.driving = true)
      (cause : clock.stopped = true → ¬ (clock.spec.deadline = true ∧ elapsed = true)) :
      Turn clock (.failure elapsed) (clock.finish (.faulted detail))
  | cut (looping : clock.stage = .looping) (severed : clock.severed = true) :
      Turn clock .other (clock.finish (.faulted detail))
  | settled (looping : clock.stage = .looping) :
      Turn clock .other (clock.finish (if clock.stopped then .deadlineExceeded else .completed))
  | cancelled (looping : clock.stage = .looping) (fired : clock.cancelFired = true) :
      Turn clock .other (clock.leave (.cancelling "cancelled by owner" false))
  | bounded (looping : clock.stage = .looping) (unasked : clock.stopped = false) :
      Turn clock .deadline (clock.leave (.cancelling "deadline exceeded" true))
  | unwound {termination : Termination}
      (cancelling : clock.stage = .cancelling reason atDeadline)
      (ends : if atDeadline then termination = .deadlineExceeded else termination ≠ .completed)
      (apart : event ≠ .deadline ∧ event ≠ .told) :
      Turn clock event (clock.finish termination)
  | dropped (apart : event ≠ .deadline ∧ event ≠ .told) :
      Turn clock event (clock.leave .done)

theorem Turn.quiet {clock next : Clock} (same : next = clock)
    (apart : event ≠ .deadline ∧ event ≠ .told) : Turn clock event next := by
  rw [same]
  exact .still apart

theorem Turn.past {clock next : Clock} (turn : Turn clock event next)
    (past : clock.stage = .done) : next.stage = .done ∧ next.termination = clock.termination := by
  have idle : clock.driving = false := by simp only [Clock.driving, past]
  cases turn with
  | still | owner | signal => exact ⟨past, rfl⟩
  | dropped => exact ⟨rfl, rfl⟩
  | entered other | told other | asked other | overran other | cut other | settled other
  | cancelled other | bounded other | unwound other => cases past.symm.trans other
  | interrupted driving | faulted driving => cases idle.symm.trans driving

namespace World

variable (world : World)

theorem retire_overruns : world.retire.host.overruns = world.host.overruns := by
  unfold retire
  split
  · rfl
  · rw [Host.overruns_gauge _ _ (by decide), Host.overruns_drain, Host.overruns_close,
      overruns_cancelWorld]

theorem retire_clock : world.retire.clock.leave .done = world.clock.leave .done := by
  unfold clock Clock.leave
  simp only [retire_overruns]
  unfold retire
  split <;> rfl

theorem finishRun_clock : world.finishRun.clock = world.clock.leave .done :=
  retire_clock world

theorem conclude_clock (pending : Option Nat) :
    (world.conclude pending).clock = world.clock.leave .done := by
  unfold conclude
  split
  · rfl
  · exact finishRun_clock world

theorem endDrive_clock (termination : Termination) :
    (world.endDrive termination).clock = world.clock.finish termination := by
  unfold endDrive
  split
  · exact conclude_clock _ _
  · rfl

theorem deadlineInterrupted_clock :
    world.deadlineInterrupted.clock = world.clock.finish .deadlineExceeded := by
  unfold deadlineInterrupted
  rw [endDrive_clock]
  rfl

theorem unwindOverran_clock :
    world.unwindOverran.clock =
      { world.clock.finish .deadlineExceeded with overruns := world.clock.overruns + 1 } := by
  unfold unwindOverran
  rw [deadlineInterrupted_clock]
  rfl

variable {world} {next : World}

theorem dropReceiver_clock (world : World) (phase : Phase) (past : phase.clockStage = .done)
    (idle : phase.driving = false) : (world.dropReceiver phase).clock = world.clock.leave .done := by
  simp only [World.dropReceiver, World.clock, past, idle, Host.overruns_drain, Host.overruns_close,
    Bool.false_and]
  rfl

theorem leaveRoute_clock : world.leaveRoute.clock = world.clock := by
  unfold leaveRoute
  split
  case h_1 completion phase =>
    simp only [World.clock, phase, Host.overruns_dropGuard]
    rfl
  case h_2 => rfl

theorem route_clock (world : World) (phase : world.phase = .selecting) (completion : Completion) :
    (world.route completion).clock = world.clock := by
  unfold route
  split
  · simp only [World.clock, phase, Host.overruns_dropGuard,
      Host.overruns_gauge _ .rejectedStale (by decide)]
    rfl
  · split
    · simp only [World.clock, phase, Host.overruns_dropGuard,
        Host.overruns_gauge _ .droppedLate (by decide)]
      rfl
    · simp only [clock, phase]
      rfl

theorem acknowledge_clock (phase : world.phase = .delivering completion)
    (accepted : Bool) : (world.acknowledge completion accepted).clock = world.clock := by
  cases accepted
  · simp only [acknowledge, clock, phase, Bool.false_eq_true, if_false,
      Host.overruns_gauge _ .droppedLate (by decide), Host.overruns_releaseGuard]
    rfl
  · simp only [acknowledge, clock, phase, if_true,
      Host.overruns_gauge _ .delivered (by decide), Host.overruns_releaseGuard]
    rfl

theorem guestFailed_turn (driving : world.clock.driving = true)
    (looping : world.stoppedAtDeadline = true → world.clock.stage = .looping) :
    Turn world.clock (.failure elapsed) (world.guestFailed detail elapsed).clock := by
  unfold guestFailed
  split
  case isTrue late =>
    cases stopped : world.stoppedAtDeadline with
    | true =>
      rw [if_pos rfl, unwindOverran_clock]
      exact .overran (looping stopped) stopped (by nofun)
    | false =>
      rw [if_neg Bool.false_ne_true, deadlineInterrupted_clock]
      exact .interrupted driving stopped
  case isFalse soon =>
    rw [endDrive_clock]
    exact .faulted driving (fun _ => soon)

theorem returns_ok_turn (elapsed : Bool)
    (taken : world.returns elapsed (.ok reply) = some next) :
    Turn world.clock .other next.clock := by
  have apart : Event.other ≠ .deadline ∧ Event.other ≠ .told := by decide
  unfold returns at taken
  cases phase : world.phase <;> simp only [phase] at taken
  case instantiating =>
    cases taken
    refine .quiet ?_ apart
    simp only [World.clock, phase, Host.overruns_gauge _ .created (by decide)]
    rfl
  case invoking =>
    cases taken
    have stage : world.clock.stage = .early := congrArg Phase.clockStage phase
    have same : clock { world with
        phase := .polling, stopArmed := world.spec.stop, stoppedAtDeadline := false } =
        { world.clock with stage := .looping, stopArmed := world.spec.stop, stopped := false } := by
      simp only [clock, phase]
      rfl
    rw [same]
    exact .entered stage
  case polling =>
    have stage : world.clock.stage = .looping := congrArg Phase.clockStage phase
    split at taken <;> cases taken
    case isTrue =>
      rw [endDrive_clock]
      exact .settled stage
    case isFalse =>
      refine .quiet ?_ apart
      simp only [clock, phase]
      rfl
  case stopping =>
    cases taken
    refine .quiet ?_ apart
    simp only [clock, phase]
    rfl
  case delivering =>
    cases taken
    exact .quiet (acknowledge_clock phase _) apart
  case cancelling reason atDeadline =>
    have stage : world.clock.stage = .cancelling reason atDeadline := congrArg Phase.clockStage phase
    cases taken
    rw [endDrive_clock]
    refine .unwound stage ?_ apart
    cases atDeadline with
    | true => rfl
    | false => nofun
  case finalizing =>
    cases taken
    rw [conclude_clock]
    exact .dropped apart
  case detaching =>
    cases taken
    rw [finishRun_clock]
    exact .dropped apart
  case created | selecting | retired | gone | abandoned => cases taken

theorem returns_error_turn (early : world.clock.stage = .early → world.stoppedAtDeadline = false)
    (taken : world.returns elapsed (.error detail) = some next) :
    Turn world.clock (.failure elapsed) next.clock := by
  have apart : Event.failure elapsed ≠ .deadline ∧ Event.failure elapsed ≠ .told := ⟨by nofun, by nofun⟩
  unfold returns at taken
  cases phase : world.phase <;> simp only [phase] at taken <;> cases taken
  case instantiating =>
    rw [dropReceiver_clock _ .abandoned rfl rfl]
    exact .dropped apart
  case invoking =>
    have stage : world.clock.stage = .early := congrArg Phase.clockStage phase
    apply guestFailed_turn
    · simp only [Clock.driving, stage]
    · intro stopped
      cases (early stage).symm.trans stopped
  case polling =>
    have stage : world.clock.stage = .looping := congrArg Phase.clockStage phase
    apply guestFailed_turn
    · simp only [Clock.driving, stage]
    · exact fun _ => stage
  case stopping =>
    have stage : world.clock.stage = .looping := congrArg Phase.clockStage phase
    cases stopped : world.stoppedAtDeadline with
    | true =>
      rw [if_pos rfl, unwindOverran_clock]
      exact .overran stage stopped (by nofun)
    | false =>
      rw [if_neg Bool.false_ne_true, endDrive_clock]
      refine .faulted (by simp only [Clock.driving, stage]) ?_
      intro asked
      cases stopped.symm.trans asked
  case delivering =>
    have stage : world.leaveRoute.clock.stage = .looping := by
      rw [leaveRoute_clock]
      simp only [clock, phase, Phase.clockStage]
    rw [← leaveRoute_clock]
    apply guestFailed_turn
    · simp only [Clock.driving, stage]
    · exact fun _ => stage
  case cancelling reason atDeadline =>
    have stage : world.clock.stage = .cancelling reason atDeadline := congrArg Phase.clockStage phase
    cases atDeadline with
    | true =>
      rw [if_pos rfl, deadlineInterrupted_clock]
      exact .unwound stage rfl apart
    | false =>
      rw [if_neg Bool.false_ne_true, endDrive_clock]
      exact .unwound stage nofun apart
  case finalizing =>
    rw [conclude_clock]
    exact .dropped apart
  case detaching =>
    rw [finishRun_clock]
    exact .dropped apart

theorem arm_ready (armed : world.arm ready taken = some next) :
    world.phase = .selecting ∧ ready = true ∧ taken = some next := by
  unfold arm at armed
  split at armed
  case h_1 selecting => exact ⟨selecting, ite_none_right_eq_some.mp armed⟩
  case h_2 => cases armed

theorem deadlineArm_turn (phase : world.phase = .selecting) (declared : world.spec.deadline = true) :
    Turn world.clock .deadline world.deadlineArm.clock := by
  have stage : world.clock.stage = .looping := congrArg Phase.clockStage phase
  unfold deadlineArm
  split
  case isTrue eligible =>
    have same : clock { world with
        phase := .polling, stoppedAtDeadline := true, stopFired := true } =
        { world.clock with stopped := true, stopFired := true } := by
      simp only [clock, phase]
      rfl
    rw [same]
    exact .asked stage declared eligible.1 eligible.2.1 eligible.2.2
  case isFalse =>
    cases stopped : world.stoppedAtDeadline with
    | true =>
      rw [if_pos rfl, unwindOverran_clock]
      exact .overran stage stopped (by nofun)
    | false =>
      exact .bounded stage stopped

theorem withHost_clock {host : Host} (overruns : host.overruns = world.host.overruns)
    (closed : world.phase.driving = true → host.closed = world.host.closed) :
    clock { world with host } = world.clock := by
  have severed : (world.phase.driving && host.closed) = (world.phase.driving && world.host.closed) := by
    cases driving : world.phase.driving with
    | true => rw [closed driving]
    | false => rfl
  simp only [clock, overruns, severed]

theorem departed_idle {phase : Phase} (departed : phase.departed = true) : phase.driving = false := by
  cases phase <;> first | rfl | cases departed

theorem hostStep_clock (tasked : ∀ host, action = some host → Host.TaskStep world.host host)
    (taken : world.hostStep action = some next) : next.clock = world.clock := by
  obtain ⟨host, found, rfl⟩ := map_eq_some_iff.mp taken
  obtain ⟨overruns, closed⟩ : host.overruns = world.host.overruns ∧ host.closed = world.host.closed := by
    cases tasked host found with
    | discard => exact ⟨overruns_dropGuard _ _, rfl⟩
    | advance | push => exact ⟨rfl, rfl⟩
  split
  case isTrue departed =>
    apply withHost_clock
    · rw [overruns_reap, overruns]
    · intro driving
      cases (departed_idle departed).symm.trans driving
  case isFalse => exact withHost_clock overruns (fun _ => closed)

theorem recvArm_turn (phase : world.phase = .selecting) (taken : (match world.host.recv with
      | some (completion, host) => some ({ world with host }.route completion)
      | none =>
        if world.host.closed then some (world.endDrive (.faulted "completion channel closed"))
        else none) = some next) : Turn world.clock .other next.clock := by
  have stage : world.clock.stage = .looping := congrArg Phase.clockStage phase
  split at taken
  case h_1 completion host received =>
    cases taken
    have frame : host.overruns = world.host.overruns ∧ host.closed = world.host.closed := by
      unfold Host.recv at received
      split at received <;> cases received
      exact ⟨rfl, rfl⟩
    have routed := route_clock { world with host } phase completion
    exact .quiet (routed.trans (withHost_clock frame.1 (fun _ => frame.2))) (by decide)
  case h_2 =>
    obtain ⟨closed, rfl⟩ := ite_some_none_eq_some.mp taken
    rw [endDrive_clock]
    refine .cut stage ?_
    simp only [clock, phase, Phase.driving, closed, Bool.and_self]

theorem turn_of_step (early : world.clock.stage = .early → world.stoppedAtDeadline = false)
    (taken : world.step label = some next) : Turn world.clock label.event next.clock := by
  have quiet : next.clock = world.clock → Turn world.clock .other next.clock :=
    fun same => .quiet same (by decide)
  cases label with
  | guestStart =>
    obtain ⟨_, rfl⟩ := ite_some_none_eq_some.mp taken
    apply quiet
    split
    · exact withHost_clock (overruns_start _ _ _) (fun _ => rfl)
    · rfl
  | guestCancel =>
    obtain ⟨_, rfl⟩ := ite_some_none_eq_some.mp taken
    exact quiet (withHost_clock (overruns_cancelOp _ _ _) (fun _ => rfl))
  | guestSettle =>
    obtain ⟨_, rfl⟩ := ite_some_none_eq_some.mp taken
    exact quiet rfl
  | returns result elapsed =>
    cases result with
    | ok => exact returns_ok_turn elapsed taken
    | error => exact returns_error_turn early taken
  | run =>
    simp only [step] at taken
    split at taken <;> cases taken
    case h_1 phase =>
      apply quiet
      simp only [clock, phase]
      rfl
  | cancelArm =>
    obtain ⟨phase, fired, same⟩ := arm_ready taken
    cases same
    apply Turn.cancelled
    · simp only [clock, phase, Phase.clockStage]
    · simp only [clock, phase, Phase.driving, fired, Bool.and_self]
  | stopArm =>
    obtain ⟨phase, ready, same⟩ := arm_ready taken
    cases same
    have shown : clock { world with phase := .stopping, stopArmed := false } =
        { world.clock with stopArmed := false } := by
      simp only [clock, phase]
      rfl
    rw [shown]
    apply Turn.told
    · simp only [clock, phase, Phase.clockStage]
    · exact (Bool.and_eq_true_iff.mp ready).1
  | deadlineArm =>
    obtain ⟨phase, declared, same⟩ := arm_ready taken
    cases same
    exact deadlineArm_turn phase declared
  | recvArm =>
    obtain ⟨phase, _, same⟩ := arm_ready taken
    exact recvArm_turn phase same
  | dropDriver =>
    simp only [step, dropDriver] at taken
    split at taken <;> cases taken
    case h_1 phase =>
      rw [dropReceiver_clock _ .abandoned rfl rfl]
      exact .dropped (by decide)
    case h_5 =>
      rw [finishRun_clock, leaveRoute_clock]
      exact .dropped (by decide)
  | dropFields =>
    simp only [step] at taken
    split at taken <;> cases taken
    case h_1 phase =>
      rw [dropReceiver_clock _ .gone rfl rfl, retire_clock]
      exact .dropped (by decide)
  | cancelToken =>
    cases taken
    exact .owner _
  | stopToken =>
    cases taken
    exact .signal
  | finish => exact quiet (hostStep_clock (fun _ => Host.finish_taskStep) taken)
  | reserve => exact quiet (hostStep_clock (fun _ => Host.reserve_taskStep) taken)
  | push => exact quiet (hostStep_clock (fun _ => Host.push_taskStep) taken)
  | refuse => exact quiet (hostStep_clock (fun _ => Host.refuse_taskStep) taken)
  | abort => exact quiet (hostStep_clock (fun _ => Host.discard_taskStep) taken)
  | foreign =>
    obtain ⟨_, rfl⟩ := ite_some_none_eq_some.mp taken
    exact quiet (withHost_clock (overruns_apply _ _) (fun _ => rfl))

end World

end Usai.Execution
