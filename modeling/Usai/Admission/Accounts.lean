import Usai.Admission.Budget
import Usai.Revisions.Revision

/-! Admission as `runtime.rs` does it: three nested budgets and the counters of
the revision, taken in order and given back by the guard of the admission. -/

namespace Usai.Admission

open Revisions (RevisionId RevisionState Definition Workload)

structure Account where
  definition : Definition
  state : RevisionState
  appBudget : Budget
  workloadBudgets : List (Option Budget)
  liveByWorkload : List Nat
  inFlight : Nat
  deriving DecidableEq, Repr

/-- The guard of one admitted unit of work. It always holds a runtime and an
application permit; `workloadPermit` says whether it holds a third. -/
structure InFlight where
  revision : RevisionId
  workloadIndex : Nat
  workloadPermit : Bool
  deriving DecidableEq, Repr

/-- The budgets and counters of a runtime, with the guards that are alive and
the revision of every child that is retained. -/
structure Accounts where
  appConcurrency : Nat
  worldBudget : Budget
  accounts : FiniteMap RevisionId Account
  nextRevision : Nat
  admissions : List InFlight
  children : List RevisionId

inductive AdmissionError where
  | notActive (id : RevisionId) (state : RevisionState) (reason : String)
  | unknownWorkload (id : String)
  | exhausted (error : BudgetExhausted)
  deriving DecidableEq, Repr

def workloadIndex (definition : Definition) (id : String) : Option Nat :=
  definition.workloads.findIdx? (fun workload => workload.id = id)

namespace Account

def new (definition : Definition) (appConcurrency : Nat) : Account where
  definition := definition
  state := .installed
  appBudget := Budget.new (definition.name ++ ".worlds") appConcurrency
  workloadBudgets := definition.workloads.map (fun workload =>
    workload.maxConcurrency.map (Budget.new (workload.id ++ ".worlds")))
  liveByWorkload := definition.workloads.map (fun _ => 0)
  inFlight := 0

def workloadBudget (account : Account) (index : Nat) : Option Budget :=
  (account.workloadBudgets[index]?).bind id

def setWorkloadBudget (account : Account) (index : Nat) (budget : Budget) : Account :=
  { account with workloadBudgets := account.workloadBudgets.set index (some budget) }

def countIn (account : Account) (index : Nat) : Account :=
  { account with
    inFlight := account.inFlight + 1
    liveByWorkload := account.liveByWorkload.modify index (fun live => live + 1) }

def countOut (account : Account) (index : Nat) : Account :=
  { account with
    inFlight := account.inFlight - 1
    liveByWorkload := account.liveByWorkload.modify index (fun live => live - 1) }

def giveBack (account : Account) (index : Nat) (workloadPermit : Bool) : Account :=
  let app := { account with appBudget := account.appBudget.free }
  let limited := match workloadPermit, account.workloadBudget index with
    | true, some budget => app.setWorkloadBudget index budget.free
    | _, _ => app
  limited.countOut index

def retainForChild (account : Account) : Account :=
  { account with inFlight := account.inFlight + 1 }

def releaseChild (account : Account) : Account :=
  { account with inFlight := account.inFlight - 1 }

end Account

namespace Accounts

def new (maxWorlds appConcurrency : Nat) : Accounts :=
  ⟨appConcurrency, Budget.new "runtime.worlds" maxWorlds, ∅, 1, [], []⟩

def update (runtime : Accounts) (id : RevisionId) (account : Account) : Accounts :=
  { runtime with accounts := runtime.accounts.insert id account }

def acquireWorkload (account : Account) (index : Nat) :
    Account × Except BudgetExhausted Bool :=
  match account.workloadBudget index with
  | some budget =>
    match budget.tryAcquire with
    | (next, .ok _) => (account.setWorkloadBudget index next, .ok true)
    | (next, .error error) => (account.setWorkloadBudget index next, .error error)
  | none => (account, .ok false)

/-- The budgets runtime, application, workload, in this order. An early return
drops the permits taken before it. -/
def acquire (runtime : Accounts) (id : RevisionId) (account : Account) (index : Nat) :
    Accounts × Except AdmissionError InFlight :=
  match runtime.worldBudget.tryAcquire with
  | (world, .error error) => ({ runtime with worldBudget := world }, .error (.exhausted error))
  | (world, .ok _) =>
    match account.appBudget.tryAcquire with
    | (app, .error error) =>
      ({ runtime with worldBudget := world.free }.update id { account with appBudget := app },
        .error (.exhausted error))
    | (app, .ok _) =>
      match acquireWorkload { account with appBudget := app } index with
      | (limited, .error error) =>
        ({ runtime with worldBudget := world.free }.update id
          { limited with appBudget := limited.appBudget.free }, .error (.exhausted error))
      | (limited, .ok permit) =>
        let admission : InFlight := ⟨id, index, permit⟩
        ({ runtime with
            worldBudget := world
            admissions := admission :: runtime.admissions }.update id (limited.countIn index),
          .ok admission)

/-- The common body of the three admissions: the state check, with the reason
of its refusal, then the lookup of the workload, then the budgets. -/
def admitWhen (accepts : RevisionState → Bool) (reason : String) (runtime : Accounts)
    (id : RevisionId) (account : Account) (workload : String) :
    Accounts × Except AdmissionError InFlight :=
  if accepts account.state then
    match workloadIndex account.definition workload with
    | some index => runtime.acquire id account index
    | none => (runtime, .error (.unknownWorkload workload))
  else (runtime, .error (.notActive id account.state reason))

def admitActive : Accounts → RevisionId → Account → String → Accounts × Except AdmissionError InFlight :=
  admitWhen (fun state => state = .active) "not active"

def admitInFlight :
    Accounts → RevisionId → Account → String → Accounts × Except AdmissionError InFlight :=
  admitWhen (fun state => state = .active ∨ state = .draining) "not active or draining"

def admitForVerification :
    Accounts → RevisionId → Account → String → Accounts × Except AdmissionError InFlight :=
  admitWhen (fun state => ¬ (state = .draining ∨ state = .retired))
    "a revision on its way out cannot be verified"

def dropAdmission (runtime : Accounts) (position : Nat) : Option Accounts := do
  let admission ← runtime.admissions[position]?
  let account ← runtime.accounts.lookup admission.revision
  some ({ runtime with
    worldBudget := runtime.worldBudget.free
    admissions := runtime.admissions.eraseIdx position }.update admission.revision
      (account.giveBack admission.workloadIndex admission.workloadPermit))

def retainForChild (runtime : Accounts) (id : RevisionId) : Option Accounts := do
  let account ← runtime.accounts.lookup id
  some ({ runtime with children := id :: runtime.children }.update id account.retainForChild)

def releaseChild (runtime : Accounts) (position : Nat) : Option Accounts := do
  let id ← runtime.children[position]?
  let account ← runtime.accounts.lookup id
  some ({ runtime with children := runtime.children.eraseIdx position }.update id
    account.releaseChild)

def install (runtime : Accounts) (definition : Definition) : Accounts :=
  { runtime with
    nextRevision := runtime.nextRevision + 1
    accounts := runtime.accounts.insert ⟨runtime.nextRevision⟩
      (Account.new definition runtime.appConcurrency) }

end Accounts

inductive Entry where
  | admitActive
  | inFlight
  | verification
  deriving DecidableEq, Repr

def Entry.run (runtime : Accounts) (id : RevisionId) (account : Account) (workload : String) :
    Entry → Accounts × Except AdmissionError InFlight
  | .admitActive => runtime.admitActive id account workload
  | .inFlight => runtime.admitInFlight id account workload
  | .verification => runtime.admitForVerification id account workload

inductive Label where
  | install (definition : Definition)
  | setState (id : RevisionId) (state : RevisionState)
  | enter (entry : Entry) (id : RevisionId) (workload : String)
  | drop (position : Nat)
  | retain (id : RevisionId)
  | release (position : Nat)
  deriving DecidableEq, Repr

/-- One call, or one drop. Callers hold the revision they name, so a label that
names none is not enabled. -/
def step (runtime : Accounts) : Label → Option Accounts
  | .install definition => some (runtime.install definition)
  | .setState id state =>
    (runtime.accounts.lookup id).map (fun account => runtime.update id { account with state := state })
  | .enter entry id workload =>
    (runtime.accounts.lookup id).map (fun account => (entry.run runtime id account workload).1)
  | .drop position => runtime.dropAdmission position
  | .retain id => runtime.retainForChild id
  | .release position => runtime.releaseChild position

end Usai.Admission
