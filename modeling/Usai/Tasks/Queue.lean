import Usai.Admission.Accounts
import Usai.Execution.Driver

/-! The task queue of `workloads/tasks.rs`: senders, the worker, and the tasks it
spawns. A step is what the worker or a task does between two points at which it
can wait. A sender is two steps, because its send wakes the worker, which may
run on another thread before the sender has counted. -/

namespace Usai.Tasks

open Admission (Accounts Budget)
open Revisions (RevisionId)
open Execution (Termination)

/-- How far a dispatch has come. `held` is in the hands of the worker that waits
for a permit, and `dropped` was in its hands when the runtime was gone. -/
inductive Stage where
  | waiting
  | held
  | dropped
  | spawned
  | running
  | completed
  | failed
  | lost
  deriving DecidableEq, Repr

def Stage.live : Stage → Bool
  | .spawned | .running => true
  | .waiting | .held | .dropped | .completed | .failed | .lost => false

/-- One dispatch that was sent. `accepted` is history: `enqueue` has counted it
and returned its id. -/
structure Dispatched where
  revision : RevisionId
  workload : String
  stage : Stage
  accepted : Bool
  deriving DecidableEq, Repr

inductive Worker where
  | receiving
  | acquiring (index : Nat)
  | draining
  | closing
  | stopped
  deriving DecidableEq, Repr

def Worker.waitsForPermit : Worker → Bool
  | .acquiring _ => true
  | .receiving | .draining | .closing | .stopped => false

/-- The dispatches are named by their position; `channel` holds the positions of
those that were sent and not received. `queued` is an integer, so that a wrap of
the source's counter is a negative value. -/
structure TaskQueue where
  runtime : Accounts
  runtimeGone : Bool
  shutdown : Bool
  capacity : Nat
  channel : List Nat
  budget : Budget
  queued : Int
  completed : Nat
  failed : Nat
  lost : Nat
  worker : Worker
  dispatches : List Dispatched

abbrev Execution := Except String (Termination × Option (Except String Unit))

def succeeded : Execution → Bool
  | .ok (.completed, some (.ok _)) => true
  | _ => false

inductive Label where
  | send (revision : RevisionId) (workload : String)
  | count (index : Nat)
  | receive
  | acquire
  | leave
  | drain
  | close
  | admission (index : Nat)
  | finish (index : Nat) (result : Execution)
  | shutdown
  /-- The last owner of the runtime is gone, which the tasks and a worker that
  waits for a permit are. -/
  | runtimeGone
  | runtime (label : Usai.Admission.Label)

namespace TaskQueue

def start (maxWorlds appConcurrency capacity concurrency : Nat) : TaskQueue where
  runtime := Accounts.new maxWorlds appConcurrency
  runtimeGone := false
  shutdown := false
  capacity := capacity
  channel := []
  budget := Budget.new "runtime.tasks" concurrency
  queued := 0
  completed := 0
  failed := 0
  lost := 0
  worker := .receiving
  dispatches := []

def setStage (queue : TaskQueue) (index : Nat) (dispatched : Dispatched) (stage : Stage) : TaskQueue :=
  { queue with dispatches := queue.dispatches.set index { dispatched with stage := stage } }

/-- `enqueue` up to the send: a channel that is closed or full gives the child
back that was retained for it. -/
def send (queue : TaskQueue) (revision : RevisionId) (workload : String) : Option TaskQueue := do
  let retained ← queue.runtime.retainForChild revision
  if queue.worker = .stopped ∨ queue.capacity ≤ queue.channel.length then
    let released ← retained.releaseChild 0
    some { queue with runtime := released }
  else
    some { queue with
      runtime := retained
      channel := queue.channel ++ [queue.dispatches.length]
      dispatches := queue.dispatches ++ [⟨revision, workload, .waiting, false⟩] }

def count (queue : TaskQueue) (index : Nat) (dispatched : Dispatched) : Option TaskQueue :=
  if dispatched.accepted then none
  else some { queue with
    queued := queue.queued + 1
    dispatches := queue.dispatches.set index { dispatched with accepted := true } }

def spawn (queue : TaskQueue) (index : Nat) (dispatched : Dispatched) : TaskQueue :=
  { queue.setStage index dispatched .spawned with
    budget := queue.budget.acquired
    worker := .receiving }

def receive (queue : TaskQueue) : Option TaskQueue :=
  match queue.worker, queue.channel with
  | .receiving, index :: rest => do
      let dispatched ← queue.dispatches[index]?
      let received := { queue with channel := rest, queued := queue.queued - 1 }
      some (if queue.runtimeGone then
          { received.setStage index dispatched .dropped with worker := .draining }
        else if queue.budget.available = 0 then
          { received.setStage index dispatched .held with worker := .acquiring index }
        else received.spawn index dispatched)
  | _, _ => none

def acquire (queue : TaskQueue) : Option TaskQueue :=
  match queue.worker with
  | .acquiring index => do
      let dispatched ← queue.dispatches[index]?
      if queue.budget.available = 0 then none else some (queue.spawn index dispatched)
  | _ => none

def leave (queue : TaskQueue) : Option TaskQueue :=
  if queue.worker = .receiving ∧ queue.shutdown = true then some { queue with worker := .draining }
  else none

/-- One turn of the last loop: what is still in the channel is counted as lost,
and neither `queued` nor the revision hears of it. -/
def drain (queue : TaskQueue) : Option TaskQueue :=
  match queue.worker, queue.channel with
  | .draining, index :: rest => do
      let dispatched ← queue.dispatches[index]?
      some { queue.setStage index dispatched .lost with
        channel := rest
        lost := queue.lost + 1 }
  | .draining, [] => some { queue with worker := .closing }
  | _, _ => none

def close (queue : TaskQueue) : Option TaskQueue :=
  if queue.worker = .closing then some { queue with worker := .stopped } else none

/-- The spawned task up to its world: the admission takes over from the child
that was retained, and a refusal ends the task. -/
def admission (queue : TaskQueue) (index : Nat) (dispatched : Dispatched) : Option TaskQueue :=
  if dispatched.stage = .spawned then do
    let account ← queue.runtime.accounts.lookup dispatched.revision
    let admitted := queue.runtime.admitInFlight dispatched.revision account dispatched.workload
    let released ← admitted.1.releaseChild (admitted.1.children.idxOf dispatched.revision)
    match admitted.2 with
    | .ok _ => some { queue.setStage index dispatched .running with runtime := released }
    | .error _ =>
      some { queue.setStage index dispatched .failed with
        runtime := released
        failed := queue.failed + 1
        budget := queue.budget.free }
  else none

def finish (queue : TaskQueue) (index : Nat) (dispatched : Dispatched) (result : Execution) :
    Option TaskQueue :=
  if dispatched.stage = .running then
    some (if succeeded result then
        { queue.setStage index dispatched .completed with
          completed := queue.completed + 1
          budget := queue.budget.free }
      else
        { queue.setStage index dispatched .failed with
          failed := queue.failed + 1
          budget := queue.budget.free })
  else none

def step (queue : TaskQueue) : Label → Option TaskQueue
  | .send revision workload => queue.send revision workload
  | .count index => (queue.dispatches[index]?).bind (queue.count index)
  | .receive => queue.receive
  | .acquire => queue.acquire
  | .leave => queue.leave
  | .drain => queue.drain
  | .close => queue.close
  | .admission index => (queue.dispatches[index]?).bind (queue.admission index)
  | .finish index result =>
    (queue.dispatches[index]?).bind (fun dispatched => queue.finish index dispatched result)
  | .shutdown => some { queue with shutdown := true }
  | .runtimeGone =>
    if queue.worker.waitsForPermit ∨ queue.dispatches.any (fun dispatched => dispatched.stage.live)
    then none else some { queue with runtimeGone := true }
  | .runtime (.retain _) | .runtime (.release _) => none
  | .runtime label =>
    (Usai.Admission.step queue.runtime label).map (fun runtime => { queue with runtime := runtime })

end TaskQueue

end Usai.Tasks
