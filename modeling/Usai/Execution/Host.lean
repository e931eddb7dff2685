import Usai.Ownership.LedgerCalls

/-! The host side of a world's operations: the owner tasks that
`spawn_operation` spawns, the bounded channel their completions travel in, and
the ledger guard that each of them carries. -/

namespace Usai.Execution

open Ownership

structure OpOutcome where
  ok : Bool
  payload : String
  deriving DecidableEq, Repr

structure Completion where
  world : WorldId
  op : OpId
  outcome : OpOutcome
  guard : OpGuard
  owns : guard = OpGuard.new op

/-- Where an owner task stands. A send first takes a permit of the channel and
then puts the value in; the receiver can go away in between. -/
inductive TaskPhase where
  | running
  | sending (outcome : OpOutcome)
  | permitted (outcome : OpOutcome)
  deriving DecidableEq, Repr

def TaskPhase.isPermitted : TaskPhase → Bool
  | .permitted _ => true
  | .running | .sending _ => false

structure HostTask where
  world : WorldId
  op : OpId
  guard : OpGuard
  phase : TaskPhase
  owns : guard = OpGuard.new op

def HostTask.complete (task : HostTask) (outcome : OpOutcome) : Completion :=
  ⟨task.world, task.op, outcome, task.guard, task.owns⟩

def channelCapacity : Nat := 64

/-- The ledger, the owner tasks of one world and its completion channel.
`started` and `released` are the history: the ids the world's `start` was given
and the releases its guards made. -/
structure Host where
  ledger : Ledger
  tasks : List HostTask
  queue : List Completion
  closed : Bool
  started : List OpId
  released : List OpId

namespace Host

def new (ledger : Ledger) : Host := ⟨ledger, [], [], false, [], []⟩

def spawnOperation (host : Host) (world : WorldId) (op : OpId) : Host :=
  { host with tasks := host.tasks ++ [⟨world, op, OpGuard.new op, .running, rfl⟩] }

def start (host : Host) (world : WorldId) (kind : String) : Host :=
  let (ledger, op) := host.ledger.start world kind
  { host with ledger := ledger, started := op :: host.started }.spawnOperation world op

def cancelOp (host : Host) (world : WorldId) (op : OpId) : Host :=
  { host with ledger := (host.ledger.cancelOp op world).1 }

def cancelWorld (host : Host) (world : WorldId) : Host :=
  { host with ledger := (host.ledger.cancelWorld world).1 }

def dropGuard (host : Host) (guard : OpGuard) : Host :=
  { host with
    ledger := (guard.drop host.ledger).1
    released := if guard.released then host.released else guard.op :: host.released }

def releaseGuard (host : Host) (guard : OpGuard) : Host :=
  { host with
    ledger := (guard.release host.ledger).1
    released := guard.op :: host.released }

def discard (host : Host) (index : Nat) : Option Host := do
  let task ← host.tasks[index]?
  some ({ host with tasks := host.tasks.eraseIdx index }.dropGuard task.guard)

def finish (host : Host) (index : Nat) (outcome : OpOutcome) : Option Host := do
  let task ← host.tasks[index]?
  if task.phase = .running then
    some { host with tasks := host.tasks.set index { task with phase := .sending outcome } }
  else none

def permits (host : Host) : Nat := host.tasks.countP (fun task => task.phase.isPermitted)

def reserve (host : Host) (index : Nat) : Option Host := do
  let task ← host.tasks[index]?
  match task.phase with
  | .sending outcome =>
    if host.closed = false ∧ host.queue.length + host.permits < channelCapacity then
      some { host with tasks := host.tasks.set index { task with phase := .permitted outcome } }
    else none
  | .running | .permitted _ => none

/-- The value goes into the channel, also when it was closed since the permit
was taken, and the task ends. -/
def push (host : Host) (index : Nat) : Option Host := do
  let task ← host.tasks[index]?
  match task.phase with
  | .permitted outcome =>
    some { host with
      tasks := host.tasks.eraseIdx index
      queue := host.queue ++ [task.complete outcome] }
  | .running | .sending _ => none

def refuse (host : Host) (index : Nat) : Option Host := do
  let task ← host.tasks[index]?
  match task.phase with
  | .sending _ => if host.closed then host.discard index else none
  | .running | .permitted _ => none

def recv (host : Host) : Option (Completion × Host) :=
  match host.queue with
  | [] => none
  | completion :: rest => some (completion, { host with queue := rest })

def drain (host : Host) : Host :=
  host.queue.foldl (fun host completion => host.dropGuard completion.guard)
    { host with queue := [] }

def close (host : Host) : Host := { host with closed := true }

/-- The channel's memory goes with its last handle. Once the receiver is gone
and no task is left, what was pushed after the receiver went is dropped. -/
def reap (host : Host) : Host :=
  if host.tasks.isEmpty then host.drain else host

def held (host : Host) : List OpId :=
  host.tasks.map HostTask.op ++ host.queue.map Completion.op

end Host

end Usai.Execution
