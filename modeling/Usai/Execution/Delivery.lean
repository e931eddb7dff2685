import Usai.Execution.Keeping

/-! What every run of a driver keeps: one holder or one release for each
operation, one delivery at most and none once the work is decided, and one
change of the live-world gauge each way. -/

namespace Usai.Execution

open List Option Ownership
open Transition

variable {phase : Phase}

namespace Phase

def raised : Phase → Nat
  | .instantiating | .abandoned => 0
  | .created | .invoking | .polling | .selecting | .stopping | .delivering _ | .cancelling _ _
  | .finalizing | .detaching | .retired | .gone => 1

def lowered : Phase → Nat
  | .retired | .gone => 1
  | .instantiating | .created | .invoking | .polling | .selecting | .stopping | .delivering _
  | .cancelling _ _ | .finalizing | .detaching | .abandoned => 0

def running : Phase → Bool
  | .created | .invoking | .polling | .selecting | .stopping | .delivering _ | .cancelling _ _
  | .finalizing | .detaching => true
  | .instantiating | .retired | .gone | .abandoned => false

theorem running_gauge (running : phase.running = true) :
    phase.raised = 1 ∧ phase.lowered = 0 ∧ phase.departed = false := by
  cases phase <;> first | exact ⟨rfl, rfl, rfl⟩ | cases running

theorem gauge_bounds (phase : Phase) :
    phase.lowered ≤ phase.raised ∧ phase.raised ≤ 1 ∧
      (phase.departed = true → phase.lowered = phase.raised) := by
  cases phase <;> simp [lowered, raised, departed]

theorem inGuest_present (inside : phase.inGuest = true) :
    phase.departed = false ∧ phase ≠ .selecting := by
  cases phase <;> simp [inGuest, departed] at inside ⊢

end Phase

namespace World

structure Sound (live : Nat) (world : World) : Prop where
  kept : world.host.Kept world.id world.phase.held
    (live + world.phase.raised - world.phase.lowered)
  accounted : ∀ op ∈ world.deliveries, op ∈ world.phase.held ∨ op ∈ world.host.released
  once : world.deliveries.Nodup
  polled : world.phase = .selecting → world.settled = false
  raised : world.raised = world.phase.raised
  lowered : world.lowered = world.phase.lowered
  finished : world.finished = decide (world.phase.lowered = 1)
  emptied : world.phase.departed = true → world.host.tasks = [] → world.host.queue = []

structure Idle (live : Nat) (world : World) : Prop where
  kept : world.host.Kept world.id [] (live + 1)
  accounted : world.deliveries ⊆ world.host.released
  once : world.deliveries.Nodup
  raised : world.raised = 1
  lowered : world.lowered = 0
  finished : world.finished = false

def Final (before after : World) : Prop :=
  before.Terminal → after.Terminal ∧ after.deliveries = before.deliveries

structure Decided (live : Nat) (before after : World) : Prop where
  sound : after.Sound live
  left : after.phase.driving = false
  same : after.deliveries = before.deliveries

variable {world next : World} {host : Host} {live : Nat}

theorem Decided.final (decided : Decided live world next) : Final world next :=
  fun _ => ⟨.inr decided.left, decided.same⟩

theorem create_sound (spec : WorldSpec) (indexed : ledger.Indexed) :
    (create spec ledger).Sound ledger.gauges.liveWorlds where
  kept := Host.new_kept _ { indexed with }
  accounted := by intro op member; cases member
  once := nodup_nil
  polled := by intro selecting; cases selecting
  raised := rfl
  lowered := rfl
  finished := rfl
  emptied := by intro departed; cases departed

theorem Sound.idle (sound : world.Sound live) (here : world.phase = phase)
    (running : phase.running = true) (free : phase.held = []) : world.Idle live := by
  subst here
  have gauge := Phase.running_gauge running
  have kept := sound.kept
  rw [free, gauge.1, gauge.2.1] at kept
  refine ⟨kept, ?_, sound.once, sound.raised.trans gauge.1, sound.lowered.trans gauge.2.1, ?_⟩
  · intro op member
    have accounted := sound.accounted op member
    rw [free] at accounted
    exact accounted.resolve_left not_mem_nil
  · rw [sound.finished, gauge.2.1]
    rfl

theorem Idle.enter (idle : world.Idle live) (phase : Phase) (running : phase.running = true)
    (free : phase.held = []) (polled : phase = .selecting → world.settled = false) :
    Sound live { world with phase := phase } where
  kept := by
    rw [free, (Phase.running_gauge running).1, (Phase.running_gauge running).2.1]
    exact idle.kept
  accounted := fun _ member => .inr (idle.accounted member)
  once := idle.once
  polled := polled
  raised := idle.raised.trans (Phase.running_gauge running).1.symm
  lowered := idle.lowered.trans (Phase.running_gauge running).2.1.symm
  finished := by
    rw [(Phase.running_gauge running).2.1]
    exact idle.finished
  emptied := by
    intro departed
    rw [(Phase.running_gauge running).2.2] at departed
    cases departed

theorem Idle.withHost (idle : world.Idle live) (kept : host.Kept world.id [] (live + 1))
    (released : world.host.released ⊆ host.released) : Idle live { world with host := host } :=
  { idle with kept := kept, accounted := List.Subset.trans idle.accounted released }

theorem Sound.withHost (sound : world.Sound live)
    (kept : host.Kept world.id world.phase.held
      (live + world.phase.raised - world.phase.lowered))
    (released : world.host.released ⊆ host.released)
    (emptied : world.phase.departed = true → host.tasks = [] → host.queue = []) :
    Sound live { world with host := host } :=
  { sound with
    kept := kept
    accounted := fun op member => (sound.accounted op member).imp_right (fun old => released old)
    emptied := emptied }

section

variable (idle : world.Idle live)
include idle

theorem finishRun_decided : Decided live world world.finishRun := by
  have retires : world.retire = { world with
      finished := true
      accepting := false
      cancelFired := true
      host := ((world.host.cancelWorld world.id).close.drain).gauge .retired
      lowered := world.lowered + 1 } := by
    rw [retire, idle.finished]
    rfl
  have kept := (idle.kept.cancelledWorld world.id).closed.drained.gauged .retired
  have released := Host.drain_released (world.host.cancelWorld world.id).close
  refine ⟨?_, rfl, ?_⟩
  · rw [finishRun, retires]
    exact {
      kept := kept
      accounted := fun _ member => .inr (released (idle.accounted member))
      once := idle.once
      polled := by intro selecting; cases selecting
      raised := idle.raised
      lowered := congrArg Nat.succ idle.lowered
      finished := rfl
      emptied := by intro departed; cases departed }
  · rw [finishRun, retires]

theorem conclude_decided (pending : Option Nat) :
    Decided live world (world.conclude pending) := by
  unfold conclude
  split
  · have counted : Idle live { world with host := world.host.gauge .detachedWork } :=
      idle.withHost (idle.kept.gauged .detachedWork) (List.Subset.refl _)
    exact ⟨counted.enter .detaching rfl rfl (by intro selecting; cases selecting), rfl, rfl⟩
  · exact finishRun_decided idle

theorem endDrive_decided (termination : Termination) :
    Decided live world (world.endDrive termination) := by
  have ended : Idle live { world with termination := some termination } := { idle with }
  unfold endDrive
  split
  · exact { conclude_decided ended _ with }
  · exact ⟨ended.enter .finalizing rfl rfl (by intro selecting; cases selecting), rfl, rfl⟩

theorem loseInterest_idle : world.loseInterest.Idle live :=
  { idle with kept := idle.kept.cancelledWorld world.id }

theorem deadlineInterrupted_decided :
    Decided live world world.deadlineInterrupted :=
  { endDrive_decided (loseInterest_idle idle) .deadlineExceeded with }

theorem unwindOverran_decided : Decided live world world.unwindOverran :=
  { deadlineInterrupted_decided
      (idle.withHost (idle.kept.gauged .unwindOverrun) (List.Subset.refl _)) with }

theorem guestFailed_decided (detail : String) (elapsed : Bool) :
    Decided live world (world.guestFailed detail elapsed) := by
  unfold guestFailed
  split
  · split
    · exact unwindOverran_decided idle
    · exact deadlineInterrupted_decided idle
  · exact endDrive_decided idle (.faulted detail)

theorem cancelWorld_decided (reason : String) (atDeadline : Bool) :
    Decided live world (world.cancelWorld reason atDeadline) :=
  ⟨(loseInterest_idle idle).enter (.cancelling reason atDeadline) rfl rfl
    (by intro selecting; cases selecting), rfl, rfl⟩

end

structure Advances (live : Nat) (before after : World) : Prop where
  sound : after.Sound live
  final : Final before after

theorem Decided.advances (decided : Decided live world next) : Advances live world next :=
  ⟨decided.sound, decided.final⟩

theorem quiet_final (phase : next.phase = world.phase) (settled : next.settled = world.settled)
    (same : next.deliveries = world.deliveries) : Final world next := by
  rintro (decided | left)
  · exact ⟨.inl (settled.trans decided), same⟩
  · exact ⟨.inr (phase ▸ left), same⟩

theorem Idle.advances (idle : next.Idle live) (phase : Phase) (running : phase.running = true)
    (free : phase.held = []) (polled : phase = .selecting → next.settled = false)
    (driving : world.phase.driving = true) (settled : next.settled = world.settled)
    (same : next.deliveries = world.deliveries) :
    Advances live world { next with phase := phase } := by
  refine ⟨idle.enter phase running free polled, ?_⟩
  -- in the loop, only the guest can have decided the work
  rintro (decided | left)
  · exact ⟨.inl (settled.trans decided), same⟩
  · rw [driving] at left
    cases left

section

variable (sound : world.Sound live) {completion : Completion}
include sound

theorem leaveRoute_idle (running : world.phase.running = true) :
    world.leaveRoute.Idle live := by
  unfold leaveRoute
  cases phase : world.phase with
  | delivering completion =>
    have kept := sound.kept
    rw [phase] at kept
    have gauge := Phase.running_gauge running
    refine ⟨kept.dropped completion.owns, ?_, sound.once, sound.raised.trans gauge.1,
      sound.lowered.trans gauge.2.1, ?_⟩
    · intro op member
      rcases sound.accounted op member with held | released
      · rw [phase, Phase.held, mem_singleton] at held
        subst held
        have spent : (world.host.dropGuard completion.guard).released =
            completion.op :: world.host.released := by
          rw [Host.dropGuard, completion.owns]
          rfl
        exact spent ▸ mem_cons_self
      · exact Host.dropGuard_released world.host completion.guard released
    · simp only [sound.finished, gauge.2.1]
      rfl
  | created | invoking | polling | selecting | stopping | cancelling | finalizing | detaching =>
    exact sound.idle phase rfl rfl
  | instantiating | retired | gone | abandoned =>
    rw [phase] at running
    cases running

theorem acknowledge_advances (phase : world.phase = .delivering completion) (accepted : Bool) :
    Advances live world (world.acknowledge completion accepted) := by
  have idle := leaveRoute_idle sound (by rw [phase]; rfl)
  have left : world.leaveRoute = { world with
      phase := .polling, host := world.host.dropGuard completion.guard } := by
    rw [leaveRoute, phase]
  have driving : world.phase.driving = true := by rw [phase]; rfl
  have gauged (gauge : Gauge) (same : gauge.live (live + 1) = live + 1) : Idle live { world.leaveRoute with
      host := world.leaveRoute.host.gauge gauge } :=
    idle.withHost (same ▸ idle.kept.gauged gauge) (List.Subset.refl _)
  rw [left] at gauged
  rw [acknowledge, Host.releaseGuard_eq_dropGuard world.host completion.owns]
  cases accepted with
  | true =>
    have idle : Idle live { world with
        phase := .polling
        delivered := world.delivered + 1
        host := (world.host.dropGuard completion.guard).gauge .delivered } :=
      { gauged .delivered rfl with }
    exact idle.advances .polling rfl rfl (by intro selecting; cases selecting) driving rfl rfl
  | false =>
    have idle : Idle live { world with
        phase := .polling
        dropped := world.dropped + 1
        host := (world.host.dropGuard completion.guard).gauge .droppedLate } :=
      { gauged .droppedLate rfl with }
    exact idle.advances .polling rfl rfl (by intro selecting; cases selecting) driving rfl rfl

theorem abandon_advances (phase : world.phase = .instantiating) :
    Advances live world (world.dropReceiver .abandoned) := by
  have kept := sound.kept
  rw [phase] at kept
  refine ⟨⟨kept.closed.drained, ?_, sound.once, ?_, ?_, ?_, ?_, ?_⟩, fun _ => ⟨.inr rfl, rfl⟩⟩
  · intro op member
    rcases sound.accounted op member with held | released
    · rw [phase] at held
      cases held
    · exact .inr (Host.drain_released world.host.close released)
  · intro selecting
    cases selecting
  · rw [dropReceiver, sound.raised, phase]
    rfl
  · rw [dropReceiver, sound.lowered, phase]
    rfl
  · rw [dropReceiver, sound.finished, phase]
    rfl
  · intro _ _
    exact Host.drain_queue world.host.close

theorem created_advances (phase : world.phase = .instantiating) :
    Advances live world { world with
      phase := .created, raised := world.raised + 1, host := world.host.gauge .created } := by
  have kept := sound.kept
  have raised := sound.raised
  have lowered := sound.lowered
  have finished := sound.finished
  rw [phase] at kept raised lowered finished
  have idle : Idle live { world with
      raised := world.raised + 1, host := world.host.gauge .created } := by
    refine ⟨kept.gauged .created, ?_, sound.once, congrArg Nat.succ raised, lowered, finished⟩
    intro op member
    have accounted := sound.accounted op member
    rw [phase] at accounted
    exact accounted.resolve_left not_mem_nil
  exact idle.advances .created rfl rfl (by intro selecting; cases selecting)
    (by rw [phase]; rfl) rfl rfl

theorem returns_ok_advances (elapsed : Bool)
    (taken : world.returns elapsed (.ok reply) = some next) : Advances live world next := by
  unfold returns at taken
  cases phase : world.phase <;> simp only [phase] at taken
  case instantiating =>
    cases taken
    exact created_advances sound phase
  case invoking =>
    cases taken
    have idle : Idle live { world with stopArmed := world.spec.stop, stoppedAtDeadline := false } :=
      { sound.idle phase rfl rfl with }
    exact idle.advances .polling rfl rfl (by intro selecting; cases selecting)
      (by rw [phase]; rfl) rfl rfl
  case polling =>
    have idle := sound.idle phase rfl rfl
    split at taken <;> cases taken
    · have read : Idle live { world with phase := .polling, lastState := some reply.pending } :=
        { idle with }
      have decided := endDrive_decided read
        (if world.stoppedAtDeadline then .deadlineExceeded else .completed)
      exact Decided.advances ⟨decided.sound, decided.left, decided.same⟩
    · next unsettled =>
        exact idle.advances .selecting rfl rfl (fun _ => Bool.eq_false_iff.mpr unsettled)
          (by rw [phase]; rfl) rfl rfl
  case stopping =>
    cases taken
    have idle := sound.idle phase rfl rfl
    exact idle.advances .polling rfl rfl (by intro selecting; cases selecting)
      (by rw [phase]; rfl) rfl rfl
  case delivering =>
    cases taken
    exact acknowledge_advances sound phase reply.accepted
  case cancelling =>
    cases taken
    exact (endDrive_decided (sound.idle phase rfl rfl) _).advances
  case finalizing =>
    cases taken
    exact (conclude_decided (sound.idle phase rfl rfl) _).advances
  case detaching =>
    cases taken
    exact (finishRun_decided (sound.idle phase rfl rfl)).advances
  case created | selecting | retired | gone | abandoned => cases taken

theorem returns_error_advances (elapsed : Bool)
    (taken : world.returns elapsed (.error detail) = some next) : Advances live world next := by
  unfold returns at taken
  cases phase : world.phase <;> simp only [phase] at taken <;> cases taken
  case instantiating => exact abandon_advances sound phase
  case invoking | polling =>
    have idle := sound.idle phase rfl rfl
    exact (guestFailed_decided idle detail elapsed).advances
  case stopping =>
    have idle := sound.idle phase rfl rfl
    split
    · exact (unwindOverran_decided idle).advances
    · exact (endDrive_decided idle _).advances
  case delivering =>
    have idle := leaveRoute_idle sound (by rw [phase]; rfl)
    have same : world.leaveRoute.deliveries = world.deliveries := by rw [leaveRoute, phase]
    have decided := guestFailed_decided idle detail elapsed
    exact Decided.advances ⟨decided.sound, decided.left, decided.same.trans same⟩
  case cancelling =>
    have idle := sound.idle phase rfl rfl
    split
    · exact (deadlineInterrupted_decided idle).advances
    · exact (endDrive_decided idle _).advances
  case finalizing => exact (conclude_decided (sound.idle phase rfl rfl) _).advances
  case detaching => exact (finishRun_decided (sound.idle phase rfl rfl)).advances

theorem route_advances (phase : world.phase = .selecting)
    (received : world.host.recv = some (completion, host)) :
    Advances live world ({ world with host := host }.route completion) := by
  have idle := sound.idle phase rfl rfl
  have kept := idle.kept.taken received
  have released : world.host.released = host.released := by
    unfold Host.recv at received
    split at received <;> cases received
    rfl
  have dropped (gauge : Gauge) (same : gauge.live (live + 1) = live + 1) : Idle live { world with
      dropped := world.dropped + 1
      host := (host.gauge gauge).dropGuard completion.guard } :=
    { idle with
      kept := Host.Kept.dropped (same ▸ kept.gauged gauge) completion.owns
      accounted := List.Subset.trans (released ▸ idle.accounted)
        (Host.dropGuard_released (host.gauge gauge) completion.guard) }
  have driving : world.phase.driving = true := by rw [phase]; rfl
  unfold route
  split
  · exact (dropped .rejectedStale rfl).advances .polling rfl rfl
      (by intro selecting; cases selecting) driving rfl rfl
  · split
    · exact (dropped .droppedLate rfl).advances .polling rfl rfl
        (by intro selecting; cases selecting) driving rfl rfl
    · -- The guest is entered: the loop has just read that it has no outcome yet.
      have fresh : completion.op ∉ world.deliveries := by
        intro again
        exact kept.custody.not_spent mem_cons_self (released ▸ idle.accounted again)
      refine ⟨⟨kept, ?_, nodup_cons.mpr ⟨fresh, sound.once⟩, ?_, idle.raised, idle.lowered,
        idle.finished, ?_⟩, ?_⟩
      · intro op member
        rcases mem_cons.mp member with rfl | old
        · exact .inl mem_cons_self
        · exact .inr (released ▸ idle.accounted old)
      · intro selecting
        cases selecting
      · intro departed
        cases departed
      · rintro (settled | left)
        · rw [sound.polled phase] at settled
          cases settled
        · rw [driving] at left
          cases left

end

theorem arm_inversion
    (armed : world.arm ready taken = some next) : world.phase = .selecting ∧ taken = some next := by
  unfold arm at armed
  split at armed
  · next selecting => exact ⟨selecting, (ite_none_right_eq_some.mp armed).2⟩
  · cases armed

section

variable (sound : world.Sound live)
include sound

theorem deadlineArm_advances (phase : world.phase = .selecting) :
    Advances live world world.deadlineArm := by
  have idle := sound.idle phase rfl rfl
  unfold deadlineArm
  split
  · have asked : Idle live { world with stoppedAtDeadline := true, stopFired := true } := { idle with }
    exact asked.advances .polling rfl rfl (by intro selecting; cases selecting)
      (by rw [phase]; rfl) rfl rfl
  · split
    · exact (unwindOverran_decided idle).advances
    · exact (cancelWorld_decided idle _ _).advances

theorem dropDriver_advances (taken : world.dropDriver = some next) :
    Advances live world next := by
  have drops (running : world.phase.running = true) : Advances live world world.leaveRoute.finishRun := by
    have decided := finishRun_decided (leaveRoute_idle sound running)
    have same : world.leaveRoute.deliveries = world.deliveries := by
      unfold leaveRoute
      split <;> rfl
    exact Decided.advances ⟨decided.sound, decided.left, decided.same.trans same⟩
  unfold dropDriver at taken
  cases phase : world.phase with
  | instantiating =>
    simp only [phase] at taken
    cases taken
    exact abandon_advances sound phase
  | retired | gone | abandoned =>
    simp only [phase] at taken
    cases taken
  | created | invoking | polling | selecting | stopping | delivering | cancelling | finalizing
  | detaching =>
    rw [phase] at taken
    cases taken
    exact drops (by rw [phase]; rfl)

theorem dropFields_advances (phase : world.phase = .retired) :
    Advances live world (world.retire.dropReceiver .gone) := by
  have finished : world.finished = true := by
    rw [sound.finished, phase]
    rfl
  have unchanged : world.retire = world := by rw [retire, if_pos finished]
  have kept := sound.kept
  rw [phase] at kept
  rw [unchanged]
  refine ⟨⟨kept.closed.drained, ?_, sound.once, ?_, ?_, ?_, ?_, ?_⟩, fun _ => ⟨.inr rfl, rfl⟩⟩
  · intro op member
    have accounted := sound.accounted op member
    rw [phase] at accounted
    exact .inr (Host.drain_released world.host.close (accounted.resolve_left not_mem_nil))
  · intro selecting
    cases selecting
  · rw [dropReceiver, sound.raised, phase]
    rfl
  · rw [dropReceiver, sound.lowered, phase]
    rfl
  · exact finished
  · intro _ _
    exact Host.drain_queue world.host.close

theorem hostStep_advances (steps : ∀ host, action = some host → Host.TaskStep world.host host)
    (taken : world.hostStep action = some next) : Advances live world next := by
  obtain ⟨host, acts, rfl⟩ := map_eq_some_iff.mp taken
  have step := steps host acts
  have kept := sound.kept.tasked step
  have released := Host.taskStep_released step
  refine ⟨sound.withHost ?_ ?_ ?_, quiet_final rfl rfl rfl⟩
  · split
    · exact kept.reaped
    · exact kept
  · split
    · exact List.Subset.trans released (Host.reap_released host)
    · exact released
  · intro departed
    rw [if_pos departed]
    intro idle
    rw [Host.reap_tasks] at idle
    rw [Host.reap, idle, isEmpty_nil, if_pos rfl, Host.drain_queue]

theorem host_advances (kept : host.Kept world.id world.phase.held
      (live + world.phase.raised - world.phase.lowered))
    (frame : host.released = world.host.released ∧
      (world.phase.departed = true → host.tasks = [] → host.queue = [])) :
    Advances live world { world with host := host } :=
  ⟨sound.withHost kept (frame.1 ▸ List.Subset.refl _) frame.2, quiet_final rfl rfl rfl⟩

theorem step_advances (taken : world.step label = some next) :
    Advances live world next := by
  cases label with
  | guestStart kind =>
    obtain ⟨inside, rfl⟩ := ite_some_none_eq_some.mp taken
    have present : world.phase.departed ≠ true := by simp [(Phase.inGuest_present inside).1]
    split
    · exact host_advances sound (sound.kept.start kind)
        ⟨rfl, fun departed => absurd departed present⟩
    · exact ⟨sound, quiet_final rfl rfl rfl⟩
  | guestCancel op =>
    obtain ⟨inside, rfl⟩ := ite_some_none_eq_some.mp taken
    exact host_advances sound (sound.kept.cancelledOp world.id op) ⟨rfl, sound.emptied⟩
  | guestSettle =>
    obtain ⟨inside, rfl⟩ := ite_some_none_eq_some.mp taken
    refine ⟨{ sound with polled := ?_ }, fun _ => ⟨.inl rfl, rfl⟩⟩
    intro selecting
    exact absurd selecting (Phase.inGuest_present inside).2
  | returns result elapsed =>
    cases result with
    | ok => exact returns_ok_advances sound elapsed taken
    | error => exact returns_error_advances sound elapsed taken
  | run =>
    unfold step at taken
    cases phase : world.phase with
    | created =>
      simp only [phase] at taken
      cases taken
      exact (sound.idle phase rfl rfl).advances .invoking rfl rfl
        (by intro selecting; cases selecting) (by rw [phase]; rfl) rfl rfl
    | instantiating | invoking | polling | selecting | stopping | delivering | cancelling
    | finalizing | detaching | retired | gone | abandoned =>
      simp only [phase] at taken
      cases taken
  | cancelArm =>
    obtain ⟨phase, same⟩ := arm_inversion taken
    cases same
    exact (cancelWorld_decided (sound.idle phase rfl rfl) _ _).advances
  | stopArm =>
    obtain ⟨phase, same⟩ := arm_inversion taken
    cases same
    have asked : Idle live { world with stopArmed := false } := { sound.idle phase rfl rfl with }
    exact asked.advances .stopping rfl rfl (by intro selecting; cases selecting)
      (by rw [phase]; rfl) rfl rfl
  | deadlineArm =>
    obtain ⟨phase, same⟩ := arm_inversion taken
    cases same
    exact deadlineArm_advances sound phase
  | recvArm =>
    obtain ⟨phase, same⟩ := arm_inversion taken
    split at same
    · next completion host received =>
      cases same
      exact route_advances sound phase received
    · obtain ⟨_, rfl⟩ := ite_some_none_eq_some.mp same
      exact (endDrive_decided (sound.idle phase rfl rfl) _).advances
  | dropDriver => exact dropDriver_advances sound taken
  | dropFields =>
    unfold step at taken
    cases phase : world.phase with
    | retired =>
      simp only [phase] at taken
      cases taken
      exact dropFields_advances sound phase
    | instantiating | created | invoking | polling | selecting | stopping | delivering
    | cancelling | finalizing | detaching | gone | abandoned =>
      simp only [phase] at taken
      cases taken
  | cancelToken | stopToken =>
    cases taken
    exact ⟨{ sound with }, quiet_final rfl rfl rfl⟩
  | finish => exact hostStep_advances sound (fun _ => Host.finish_taskStep) taken
  | reserve => exact hostStep_advances sound (fun _ => Host.reserve_taskStep) taken
  | push => exact hostStep_advances sound (fun _ => Host.push_taskStep) taken
  | refuse => exact hostStep_advances sound (fun _ => Host.refuse_taskStep) taken
  | abort => exact hostStep_advances sound (fun _ => Host.discard_taskStep) taken
  | foreign =>
    obtain ⟨foreign, rfl⟩ := ite_some_none_eq_some.mp taken
    exact host_advances sound (sound.kept.spared (foreign_spares sound.kept.indexed foreign))
      ⟨rfl, sound.emptied⟩

end

theorem final_trans (first second third : World) (before : Final first second)
    (after : Final second third) : Final first third := by
  intro terminal
  obtain ⟨still, same⟩ := before terminal
  obtain ⟨stays, later⟩ := after still
  exact ⟨stays, later.trans same⟩

def Ended (world : World) : Prop := world.phase.departed = true ∧ world.host.tasks = []

/-- What the driver owes for the operations its world started: each has been
released once or still has its record and one holder; each was delivered at
most once; and the live-world gauge, `live` before the driver, went up once at most
and, when the driver is gone, down as often. -/
structure Accountable (live : Nat) (world : World) : Prop where
  released : ∀ op ∈ world.host.started,
    world.host.released.count op + world.held.count op = 1
  recorded : ∀ op ∈ world.host.started,
    (world.host.ledger.byOp.lookup op).isSome ↔ op ∈ world.held
  delivered : ∀ op, world.deliveries.count op ≤ 1
  own : world.deliveries ⊆ world.host.started
  gauge : world.lowered ≤ world.raised ∧ world.raised ≤ 1
  counted : world.host.ledger.gauges.liveWorlds = live + world.raised - world.lowered
  departed : world.phase.departed = true → world.lowered = world.raised
  ended : world.Ended → ∀ op ∈ world.host.started, world.host.released.count op = 1

theorem Sound.accountable (sound : world.Sound live) : world.Accountable live := by
  have gauge := Phase.gauge_bounds world.phase
  have custody := sound.kept.custody
  have counts : ∀ op ∈ world.host.started,
      world.host.released.count op + world.held.count op = 1 :=
    fun op member => custody.count_eq_one member
  refine ⟨counts, ?_, ?_, ?_, ?_, ?_, ?_, ?_⟩
  · intro op member
    constructor
    · intro present
      refine (custody.mem_issued.mp member).resolve_right ?_
      intro released
      rw [sound.kept.absent op released] at present
      cases present
    · intro held
      obtain ⟨_, found, _⟩ := sound.kept.recorded op held
      rw [found]
      rfl
  · intro op
    exact nodup_iff_count_le_one.mp sound.once op
  · intro op member
    rw [custody.mem_issued, mem_append]
    exact (sound.accounted op member).imp_left .inl
  · rw [sound.raised, sound.lowered]
    exact ⟨gauge.1, gauge.2.1⟩
  · rw [sound.raised, sound.lowered]
    exact sound.kept.counted
  · rw [sound.raised, sound.lowered]
    exact gauge.2.2
  · rintro ⟨departed, idle⟩ op member
    have free : world.held = [] := by
      have holds : world.phase.held = [] := by
        cases phase : world.phase <;> first | rfl | (rw [phase] at departed; cases departed)
      rw [held, holds, Host.held, idle, sound.emptied departed idle]
      rfl
    have count := counts op member
    rw [free] at count
    exact count

theorem departs (world : World) :
    ∃ labels final, exec World.step world labels = some final ∧ final.phase.departed = true := by
  cases phase : world.phase with
  | gone | abandoned => exact ⟨[], world, rfl, by rw [phase]; rfl⟩
  | instantiating =>
    refine ⟨[.dropDriver], world.dropReceiver .abandoned, ?_, rfl⟩
    simp only [exec_cons, exec_nil, step, dropDriver, phase, bind_some]
  | retired =>
    refine ⟨[.dropFields], world.retire.dropReceiver .gone, ?_, rfl⟩
    simp only [exec_cons, exec_nil, step, phase, bind_some]
  | created | invoking | polling | selecting | stopping | delivering | cancelling | finalizing
  | detaching =>
    have drops : world.step .dropDriver = some world.leaveRoute.finishRun := by
      simp only [step, dropDriver, phase]
    have leaves : world.leaveRoute.finishRun.step .dropFields =
        some (world.leaveRoute.finishRun.retire.dropReceiver .gone) := rfl
    refine ⟨[.dropDriver, .dropFields], world.leaveRoute.finishRun.retire.dropReceiver .gone,
      ?_, rfl⟩
    rw [exec_cons, drops, bind_some, exec_cons, leaves]
    rfl

theorem tasks_end (departed : world.phase.departed = true) :
    ∃ labels final, exec World.step world labels = some final ∧ final.Ended := by
  induction count : world.host.tasks.length generalizing world with
  | zero => exact ⟨[], world, rfl, departed, length_eq_zero_iff.mp count⟩
  | succ rest ih =>
    obtain ⟨task, tasks, shape⟩ := exists_cons_of_length_eq_add_one count
    let dropped := ({ world.host with tasks := tasks }.dropGuard task.guard).reap
    have aborts : world.step (.abort 0) = some { world with host := dropped } := by
      simp only [step, hostStep, Host.discard, shape, departed, dropped]
      rfl
    have fewer : dropped.tasks.length = rest := by
      have same : dropped.tasks = tasks := Host.reap_tasks _
      rw [shape, length_cons] at count
      rw [same]
      omega
    obtain ⟨labels, final, reached, ended⟩ :=
      @ih { world with host := dropped } departed fewer
    refine ⟨.abort 0 :: labels, final, ?_, ended⟩
    rw [exec_cons, aborts]
    exact reached

end World

open World

/-- For every ledger a world can start on and every run of its driver, under
every guest, every order of completions and every timing of the tokens, the
deadline and the drop: each operation the world started is released once or
has one holder, and is released once when the run has ended; it is delivered
once at most; nothing is delivered after the work is decided, hence none after
retirement; the gauge goes down exactly as often as it went up; and from every
state the run can be ended. -/
theorem driver_contract (before : List Operation) (spec : WorldSpec) (labels : List Label) :
    Along World.step (Accountable (Ownership.run Ledger.new before).gauges.liveWorlds)
      (World.create spec (Ownership.run Ledger.new before)) labels ∧
    Between World.step Final (World.create spec (Ownership.run Ledger.new before)) labels ∧
    ∀ world, ∃ more final, exec World.step world more = some final ∧ final.Ended := by
  have initial := create_sound spec (run_indexed Ledger.new_indexed before)
  have always : Meets World.step (fun _ _ => True)
      (World.create spec (Ownership.run Ledger.new before)) labels := meets_true _ labels
  have preserved {live : Nat} : ∀ world label next, Sound live world → True →
      World.step world label = some next → Sound live next := fun _ _ _ sound _ taken => (step_advances sound taken).sound
  have related {live : Nat} : ∀ world label next, Sound live world → True →
      World.step world label = some next → Final world next := fun _ _ _ sound _ taken => (step_advances sound taken).final
  refine ⟨?_, ?_, ?_⟩
  · exact along_imp (fun _ sound => sound.accountable) (along_of_meets preserved initial always)
  · exact between_of_meets final_trans preserved related initial always
  · intro world
    obtain ⟨labels, _, reached, departed⟩ := departs world
    obtain ⟨more, final, finished, ended⟩ := tasks_end departed
    refine ⟨labels ++ more, final, ?_, ended⟩
    rw [exec_append, reached]
    exact finished

end Usai.Execution
