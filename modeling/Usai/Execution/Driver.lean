import Usai.Transition
import Usai.Execution.Host

/-! The world driver of `world.rs` as a transition system: the phases of
`create`, `run`, `drive`, `route` and `retire` between two awaits, the guest's
calls while it is entered, the host tasks, the tokens and the other worlds of
the same ledger. -/

namespace Usai.Execution

open Ownership

inductive Gauge where
  | created
  | retired
  | delivered
  | droppedLate
  | rejectedStale
  | detachedWork
  | unwindOverrun
  deriving DecidableEq, Repr

def Gauge.change (gauges : Gauges) : Gauge → Gauges
  | .created => { gauges with
      liveWorlds := gauges.liveWorlds + 1
      worldsCreated := gauges.worldsCreated + 1 }
  | .retired => { gauges with liveWorlds := gauges.liveWorlds - 1 }
  | .delivered => { gauges with completionsDelivered := gauges.completionsDelivered + 1 }
  | .droppedLate => { gauges with completionsDroppedLate := gauges.completionsDroppedLate + 1 }
  | .rejectedStale => { gauges with completionsRejectedStale := gauges.completionsRejectedStale + 1 }
  | .detachedWork => { gauges with detachedWorkDetected := gauges.detachedWorkDetected + 1 }
  | .unwindOverrun => { gauges with deadlineUnwindOverruns := gauges.deadlineUnwindOverruns + 1 }

def Host.gauge (host : Host) (gauge : Gauge) : Host :=
  { host with ledger := { host.ledger with gauges := gauge.change host.ledger.gauges } }

inductive Termination where
  | completed
  | cancelled (reason : String)
  | deadlineExceeded
  | faulted (detail : String)
  deriving DecidableEq, Repr

structure WorldSpec where
  finite : Bool
  deadline : Bool
  stop : Bool
  deriving DecidableEq, Repr

/-- The await the driver's future is suspended at. All but `created`,
`selecting` and the last three are inside the guest. -/
inductive Phase where
  | instantiating
  | created
  | invoking
  | polling
  | selecting
  | stopping
  | delivering (completion : Completion)
  | cancelling (reason : String) (atDeadline : Bool)
  | finalizing
  | detaching
  | retired
  | gone
  | abandoned

namespace Phase

def inGuest : Phase → Bool
  | .instantiating | .invoking | .polling | .stopping | .delivering _ | .cancelling _ _
  | .finalizing | .detaching => true
  | .created | .selecting | .retired | .gone | .abandoned => false

def driving : Phase → Bool
  | .instantiating | .created | .invoking | .polling | .selecting | .stopping | .delivering _ => true
  | .cancelling _ _ | .finalizing | .detaching | .retired | .gone | .abandoned => false

def departed : Phase → Bool
  | .gone | .abandoned => true
  | .instantiating | .created | .invoking | .polling | .selecting | .stopping | .delivering _
  | .cancelling _ _ | .finalizing | .detaching | .retired => false

def held : Phase → List OpId
  | .delivering completion => [completion.op]
  | _ => []

end Phase

/-- One driver and what it shares with its guest and its tasks. `stopArmed` and
`stoppedAtDeadline` are locals of `drive`; `settled` says that the guest has an
outcome; `deliveries`, `raised` and `lowered` are the history of the calls of
`deliver` and of the changes this driver made to the live-world gauge. -/
structure World where
  spec : WorldSpec
  id : WorldId
  phase : Phase
  host : Host
  accepting : Bool
  cancelFired : Bool
  stopFired : Bool
  stopArmed : Bool
  stoppedAtDeadline : Bool
  settled : Bool
  lastState : Option Nat
  termination : Option Termination
  delivered : Nat
  dropped : Nat
  finished : Bool
  deliveries : List OpId
  raised : Nat
  lowered : Nat

structure Reply where
  accepted : Bool
  pending : Nat
  deriving DecidableEq, Repr

namespace World

def create (spec : WorldSpec) (ledger : Ledger) : World where
  spec := spec
  id := ledger.nextWorldId.2
  phase := .instantiating
  host := .new ledger.nextWorldId.1
  accepting := true
  cancelFired := false
  stopFired := false
  stopArmed := false
  stoppedAtDeadline := false
  settled := false
  lastState := none
  termination := none
  delivered := 0
  dropped := 0
  finished := false
  deliveries := []
  raised := 0
  lowered := 0

def retire (world : World) : World :=
  if world.finished then world
  else { world with
    finished := true
    accepting := false
    cancelFired := true
    host := ((world.host.cancelWorld world.id).close.drain).gauge .retired
    lowered := world.lowered + 1 }

def finishRun (world : World) : World := { world.retire with phase := .retired }

def conclude (world : World) (pending : Option Nat) : World :=
  if world.termination = some .completed ∧ world.spec.finite ∧ 0 < pending.getD 0 then
    { world with phase := .detaching, host := world.host.gauge .detachedWork }
  else world.finishRun

def endDrive (world : World) (termination : Termination) : World :=
  match world.lastState with
  | some pending => { world with termination := some termination }.conclude (some pending)
  | none => { world with termination := some termination, phase := .finalizing }

def loseInterest (world : World) : World :=
  { world with
    accepting := false
    cancelFired := true
    host := world.host.cancelWorld world.id }

def deadlineInterrupted (world : World) : World :=
  world.loseInterest.endDrive .deadlineExceeded

def unwindOverran (world : World) : World :=
  { world with host := world.host.gauge .unwindOverrun }.deadlineInterrupted

/-- A guest entry failed. After the deadline that is the watchdog's interrupt
and not a fault. -/
def guestFailed (world : World) (detail : String) (elapsed : Bool) : World :=
  if world.spec.deadline ∧ elapsed then
    if world.stoppedAtDeadline then world.unwindOverran else world.deadlineInterrupted
  else world.endDrive (.faulted detail)

def cancelWorld (world : World) (reason : String) (atDeadline : Bool) : World :=
  { world.loseInterest with phase := .cancelling reason atDeadline }

def route (world : World) (completion : Completion) : World :=
  if completion.world ≠ world.id then
    { world with
      phase := .polling
      dropped := world.dropped + 1
      host := (world.host.gauge .rejectedStale).dropGuard completion.guard }
  else if world.host.ledger.isDeliverable world.id completion.op = false then
    { world with
      phase := .polling
      dropped := world.dropped + 1
      host := (world.host.gauge .droppedLate).dropGuard completion.guard }
  else
    { world with
      phase := .delivering completion
      deliveries := completion.op :: world.deliveries }

def acknowledge (world : World) (completion : Completion) (accepted : Bool) : World :=
  let world := { world with phase := .polling, host := world.host.releaseGuard completion.guard }
  if accepted then
    { world with delivered := world.delivered + 1, host := world.host.gauge .delivered }
  else
    { world with dropped := world.dropped + 1, host := world.host.gauge .droppedLate }

def leaveRoute (world : World) : World :=
  match world.phase with
  | .delivering completion =>
    { world with phase := .polling, host := world.host.dropGuard completion.guard }
  | _ => world

def dropReceiver (world : World) (phase : Phase) : World :=
  { world with phase := phase, host := world.host.close.drain }

def returns (world : World) (elapsed : Bool) : Except String Reply → Option World
  | .ok reply =>
    match world.phase with
    | .instantiating => some { world with
        phase := .created
        raised := world.raised + 1
        host := world.host.gauge .created }
    | .invoking => some { world with
        phase := .polling
        stopArmed := world.spec.stop
        stoppedAtDeadline := false }
    | .polling =>
      if world.settled then
        some ({ world with lastState := some reply.pending }.endDrive
          (if world.stoppedAtDeadline then .deadlineExceeded else .completed))
      else some { world with phase := .selecting }
    | .stopping => some { world with phase := .polling }
    | .delivering completion => some (world.acknowledge completion reply.accepted)
    | .cancelling reason atDeadline =>
      some (world.endDrive (if atDeadline then .deadlineExceeded else .cancelled reason))
    | .finalizing => some (world.conclude (some reply.pending))
    | .detaching => some world.finishRun
    | .created | .selecting | .retired | .gone | .abandoned => none
  | .error detail =>
    match world.phase with
    | .instantiating => some (world.dropReceiver .abandoned)
    | .invoking | .polling => some (world.guestFailed detail elapsed)
    | .stopping =>
      some (if world.stoppedAtDeadline then world.unwindOverran
        else world.endDrive (.faulted detail))
    | .delivering _ => some (world.leaveRoute.guestFailed detail elapsed)
    | .cancelling _ atDeadline =>
      some (if atDeadline then world.deadlineInterrupted else world.endDrive (.faulted detail))
    | .finalizing => some (world.conclude none)
    | .detaching => some world.finishRun
    | .created | .selecting | .retired | .gone | .abandoned => none

/-- The deadline arm of the select: a declared deadline asks connection-bound
and persistent work to stop first. -/
def deadlineArm (world : World) : World :=
  if world.stoppedAtDeadline = false ∧ world.spec.finite = false ∧ world.spec.stop then
    { world with phase := .polling, stoppedAtDeadline := true, stopFired := true }
  else if world.stoppedAtDeadline then world.unwindOverran
  else world.cancelWorld "deadline exceeded" true

end World

inductive Label where
  | guestStart (kind : String)
  | guestCancel (op : OpId)
  | guestSettle
  | returns (result : Except String Reply) (elapsed : Bool)
  | run
  | cancelArm
  | stopArm
  | deadlineArm
  | recvArm
  | dropDriver
  | dropFields
  | cancelToken
  | stopToken
  | finish (index : Nat) (outcome : OpOutcome)
  | reserve (index : Nat)
  | push (index : Nat)
  | refuse (index : Nat)
  | abort (index : Nat)
  | foreign (operation : Operation)

/-- The ledger calls of other worlds: their own starts and cancellations, and
releases of records that are not this world's. -/
def Foreign (id : WorldId) (ledger : Ledger) : Operation → Bool
  | .start world _ | .cancelWorld world | .cancelOp _ world => world ≠ id
  | .release op => (ledger.byOp.lookup op).all (fun record => record.world ≠ id)
  | .releaseGuard guard | .dropGuard guard =>
    (ledger.byOp.lookup guard.op).all (fun record => record.world ≠ id)

namespace World

def hostStep (world : World) (host : Option Host) : Option World :=
  host.map (fun host =>
    { world with host := if world.phase.departed then host.reap else host })

def dropDriver (world : World) : Option World :=
  match world.phase with
  | .instantiating => some (world.dropReceiver .abandoned)
  | .retired | .gone | .abandoned => none
  | _ => some world.leaveRoute.finishRun

/-- An arm of the select, when it is ready. The select is biased, but a token
may fire between two polls, so every arm that is ready may be the one taken. -/
def arm (world : World) (ready : Bool) (taken : Option World) : Option World :=
  match world.phase with
  | .selecting => if ready then taken else none
  | _ => none

def step (world : World) : Label → Option World
  | .guestStart kind =>
    if world.phase.inGuest then
      some (if world.accepting then { world with host := world.host.start world.id kind }
        else world)
    else none
  | .guestCancel op =>
    if world.phase.inGuest then some { world with host := world.host.cancelOp world.id op }
    else none
  | .guestSettle => if world.phase.inGuest then some { world with settled := true } else none
  | .returns result elapsed => world.returns elapsed result
  | .run =>
    match world.phase with
    | .created => some { world with phase := .invoking }
    | _ => none
  | .cancelArm => world.arm world.cancelFired (some (world.cancelWorld "cancelled by owner" false))
  | .stopArm =>
    world.arm (world.stopArmed && world.stopFired)
      (some { world with phase := .stopping, stopArmed := false })
  | .deadlineArm => world.arm world.spec.deadline (some world.deadlineArm)
  | .recvArm =>
    world.arm true (match world.host.recv with
      | some (completion, host) => some ({ world with host := host }.route completion)
      | none =>
        if world.host.closed then some (world.endDrive (.faulted "completion channel closed"))
        else none)
  | .dropDriver => world.dropDriver
  | .dropFields =>
    match world.phase with
    | .retired => some (world.retire.dropReceiver .gone)
    | _ => none
  | .cancelToken => some { world with cancelFired := true }
  | .stopToken => some { world with stopFired := true }
  | .finish index outcome => world.hostStep (world.host.finish index outcome)
  | .reserve index => world.hostStep (world.host.reserve index)
  | .push index => world.hostStep (world.host.push index)
  | .refuse index => world.hostStep (world.host.refuse index)
  | .abort index => world.hostStep (world.host.discard index)
  | .foreign operation =>
    if Foreign world.id world.host.ledger operation then
      some { world with host :=
        { world.host with ledger := (operation.apply world.host.ledger).1 } }
    else none

def held (world : World) : List OpId := world.phase.held ++ world.host.held

def Terminal (world : World) : Prop := world.settled = true ∨ world.phase.driving = false

end World

end Usai.Execution
