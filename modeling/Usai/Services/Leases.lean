import Mathlib.Algebra.Group.Nat.Defs
import Usai.FiniteMap
import Usai.Transition

/-! The tasks that supervise one `exclusive` service, over every process and
revision that declares it, and the rows of `usai_service_leases` they claim
(`workloads/services.rs`). One step is one statement at the database or one
await-free segment of a task. -/

namespace Usai.Services

/-- A row of `usai_service_leases` for the service. Times are the database's,
in milliseconds. -/
structure Lease where
  holder : String
  expiresAt : Nat
  deriving DecidableEq, Repr

structure Process where
  instanceName : String
  id : Nat
  deriving DecidableEq, Repr

def Process.holder (process : Process) : String :=
  process.instanceName ++ ":" ++ toString process.id

inductive Phase where
  | claiming
  | claimed
  | running (renewing : Bool)
  | releasing
  | ended
  deriving DecidableEq, Repr

structure Task where
  process : Process
  revision : Nat
  database : String
  leaseMs : Option Nat
  phase : Phase
  deriving DecidableEq, Repr

namespace Task

def holder (task : Task) : String := task.process.holder

def lease (task : Task) : Nat :=
  let leaseMs := max (task.leaseMs.getD 30000) 3000
  if leaseMs < 2 ^ 63 then leaseMs else 30000

def holds (task : Task) : Bool :=
  match task.phase with
  | .claimed | .running _ => true
  | .claiming | .releasing | .ended => false

def runs (task : Task) : Bool :=
  match task.phase with
  | .running _ => true
  | .claiming | .claimed | .releasing | .ended => false

end Task

/-- `late` are tasks that are gone or whose renewer was aborted, with a claim
that the database has not carried out yet. -/
structure Fleet where
  now : Nat
  leases : FiniteMap String Lease
  tasks : List Task
  late : List Task

def Fleet.new : Fleet := ⟨0, ∅, [], []⟩

inductive Outcome where
  | answered
  | failed (applied : Bool)
  deriving DecidableEq, Repr

inductive Label where
  | start (process : Process) (revision : Nat) (database : String) (leaseMs : Option Nat)
  | claim (index : Nat) (outcome : Outcome)
  | giveUp (index : Nat)
  | world (index : Nat) (admitted : Bool)
  | renew (index : Nat) (outcome : Outcome)
  | stop (index : Nat)
  /-- The world ends and the renewer is aborted, perhaps in the middle of a
  statement. -/
  | finish (index : Nat) (pending : Bool)
  | release (index : Nat) (applied restarts : Bool)
  | crash (index : Nat) (pending : Bool)
  | land (index : Nat)
  | tick (now : Nat)
  deriving DecidableEq, Repr

namespace Fleet

def grants (fleet : Fleet) (task : Task) : Bool :=
  match fleet.leases.lookup task.database with
  | none => true
  | some lease => lease.holder == task.holder || decide (lease.expiresAt < fleet.now)

def claimLease (fleet : Fleet) (task : Task) : Fleet :=
  if fleet.grants task then
    { fleet with
      leases := fleet.leases.insert task.database ⟨task.holder, fleet.now + task.lease⟩ }
  else fleet

def releaseLease (fleet : Fleet) (task : Task) : Fleet :=
  match fleet.leases.lookup task.database with
  | some lease =>
    if lease.holder = task.holder then { fleet with leases := fleet.leases.erase task.database }
    else fleet
  | none => fleet

def taskIn (fleet : Fleet) (index : Nat) (phase : Phase) : Option Task :=
  fleet.tasks[index]?.filter (fun task => task.phase = phase)

def move (fleet : Fleet) (index : Nat) (task : Task) (phase : Phase) : Fleet :=
  { fleet with tasks := fleet.tasks.set index { task with phase } }

def leave (fleet : Fleet) (task : Task) (pending : Bool) : Fleet :=
  { fleet with late := if pending then task :: fleet.late else fleet.late }

def step (fleet : Fleet) : Label → Option Fleet
  | .start process revision database leaseMs =>
    some { fleet with
      tasks := fleet.tasks ++ [⟨process, revision, database, leaseMs, .claiming⟩] }
  | .claim index outcome =>
    (fleet.taskIn index .claiming).map (fun task =>
      match outcome with
      | .answered =>
        if fleet.grants task then (fleet.claimLease task).move index task .claimed else fleet
      | .failed applied => if applied then fleet.claimLease task else fleet)
  | .giveUp index => (fleet.taskIn index .claiming).map (fun task => fleet.move index task .ended)
  -- a task that is not admitted returns without giving the lease up
  | .world index admitted =>
    (fleet.taskIn index .claimed).map (fun task =>
      fleet.move index task (if admitted then .running true else .ended))
  | .renew index outcome =>
    (fleet.taskIn index (.running true)).map (fun task =>
      match outcome with
      | .answered =>
        if fleet.grants task then fleet.claimLease task
        else fleet.move index task (.running false)
      | .failed applied =>
        (if applied then fleet.claimLease task else fleet).move index task (.running false))
  | .stop index =>
    (fleet.taskIn index (.running true)).map (fun task => fleet.move index task (.running false))
  | .finish index pending =>
    (fleet.tasks[index]?.filter Task.runs).map (fun task =>
      (fleet.move index task .releasing).leave task pending)
  | .release index applied restarts =>
    (fleet.taskIn index .releasing).map (fun task =>
      (if applied then fleet.releaseLease task else fleet).move index task
        (if restarts then .claiming else .ended))
  | .crash index pending =>
    (fleet.tasks[index]?).map (fun task => (fleet.move index task .ended).leave task pending)
  | .land index =>
    (fleet.late[index]?).map (fun task =>
      { fleet.claimLease task with late := fleet.late.eraseIdx index })
  | .tick now => some { fleet with now }

end Fleet

def Exclusive (fleet : Fleet) : Prop :=
  ∀ (i j : Nat) (a b : Task), fleet.tasks[i]? = some a → fleet.tasks[j]? = some b →
    a.runs = true → b.runs = true → i = j

/-- Each holder renews in time: the clock does not pass the end of a lease
while the task that holds it has not ended its world. -/
def Timely (fleet : Fleet) : Label → Prop
  | .tick now =>
    ∀ task ∈ fleet.tasks, task.holds = true → ∀ lease ∈ fleet.leases.lookup task.database,
      lease.holder = task.holder → now ≤ lease.expiresAt
  | _ => True

/-- Another task past its claim, which the row cannot tell from the claimant or
does not show it. -/
def Task.clashes (other task : Task) : Bool :=
  (other.holds && (other.holder == task.holder || other.database != task.database)) ||
    (decide (other.phase = .releasing) && other.holder == task.holder &&
      other.database == task.database)

/-- A claim that finds the row free, expired or its own finds no task of the
service past its claim that writes the same holder, or keeps its lease in
another database. -/
def Apart (fleet : Fleet) : Label → Prop
  | .claim index .answered =>
    ∀ task ∈ fleet.taskIn index .claiming, fleet.grants task = true →
      ∀ other ∈ fleet.tasks, other.clashes task = false
  | _ => True

instance (fleet : Fleet) (label : Label) : Decidable (Timely fleet label) := by
  unfold Timely
  split <;> infer_instance

instance (fleet : Fleet) (label : Label) : Decidable (Apart fleet label) := by
  unfold Apart
  split <;> infer_instance

end Usai.Services
