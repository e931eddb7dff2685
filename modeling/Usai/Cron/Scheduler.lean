import Usai.Manifest.Declaration
import Usai.Transition

/-! Any number of the scheduler loops of `workloads/cron.rs`, of one process or of many,
that claim the ticks of their exclusive schedules in one table. A step is what a loop or an
invocation does between two awaits; a claim is as many steps as it has statements, so those
of other replicas come between them. Clock readings come with the labels, so a run may step
backwards at will. -/

namespace Usai.Cron

open Option
open Manifest (OverlapPolicy)

/-- A cron expression as the library reads it. Times are nanoseconds. -/
structure Schedule where
  occurs : Int → Prop
  findNextOccurrence : Int → Option Int
  later : ∀ now next, findNextOccurrence now = some next → occurs next ∧ now < next
  least : ∀ now next time, findNextOccurrence now = some next → occurs time → now < time →
    next ≤ time
  exhausted : ∀ now time, findNextOccurrence now = none → occurs time → time ≤ now

structure Job where
  schedule : Schedule
  overlap : OverlapPolicy
  exclusive : Bool

structure CronStats where
  ticks : Nat
  skipped : Nat
  taken : Nat
  deriving DecidableEq, Repr

def retention : Int := 7 * 24 * 3600 * 1000000000

/-- `usai_cron_ticks`: whether it has been created, its rows, and the latest time
that the clock of its server has shown. -/
structure Ticks where
  created : Bool
  rows : List (String × Int)
  latest : Int
  deriving DecidableEq, Repr

inductive Stage where
  | insert
  | create
  | again
  | prune
  | granted
  deriving DecidableEq, Repr

inductive Position where
  | top
  | waiting (next : Int)
  | due (next : Int)
  | claiming (next : Int) (stage : Stage)
  | stopped
  deriving DecidableEq, Repr

def Position.granted : Position → Option Int
  | .claiming next .prune | .claiming next .granted => some next
  | _ => none

def Position.claimed : Position → Option Int
  | .claiming next _ => some next
  | _ => none

/-- A scheduler loop with the invocations it has started: `live` are running,
`ended` have returned and not cleared the flag yet. `started` is history. -/
structure Loop where
  name : String
  job : Job
  position : Position
  lastFired : Option Int
  running : Bool
  live : Nat
  ended : Nat
  stats : CronStats
  started : List Int

/-- An answered statement may still be answered with the error that there is no
such table. One that fails may have been carried out. -/
inductive Answer where
  | answered
  | failed (recorded : Bool)
  deriving DecidableEq, Repr

inductive Act where
  | read (now : Int)
  | wake (now : Int)
  | fire (alive : Bool)
  | insert (now : Int) (answer : Answer)
  | create (now : Int) (carried : Bool)
  | again (now : Int) (answer : Answer)
  | prune (now : Int) (carried : Bool)
  | launch (alive : Bool)
  | ends
  | clears
  | stop
  deriving DecidableEq, Repr

def Ticks.at (ticks : Ticks) (now : Int) : Ticks := { ticks with latest := max ticks.latest now }

namespace Loop

def new (name : String) (job : Job) : Loop := ⟨name, job, .top, none, false, 0, 0, ⟨0, 0, 0⟩, []⟩

def launch (loop : Loop) (next : Int) (alive : Bool) : Loop :=
  if alive then
    { loop with
      position := .top
      running := true
      live := loop.live + 1
      started := next :: loop.started }
  else { loop with position := .stopped }

def fire (loop : Loop) (next : Int) (alive : Bool) : Loop :=
  if loop.lastFired = some next then { loop with position := .top }
  else
    let counted := { loop with
      lastFired := some next
      stats := { loop.stats with ticks := loop.stats.ticks + 1 } }
    if loop.job.overlap = .skip ∧ loop.running = true then
      { counted with
        position := .top
        stats := { counted.stats with skipped := counted.stats.skipped + 1 } }
    else if loop.job.exclusive then { counted with position := .claiming next .insert }
    else counted.launch next alive

def claimRow (loop : Loop) (next : Int) (ticks : Ticks) : Loop × Ticks :=
  if (loop.name, next) ∈ ticks.rows then
    ({ loop with
      position := .top
      stats := { loop.stats with taken := loop.stats.taken + 1 } }, ticks)
  else
    ({ loop with position := .claiming next .prune },
      { ticks with rows := (loop.name, next) :: ticks.rows })

def claimFails (loop : Loop) (next : Int) (recorded : Bool) (ticks : Ticks) : Loop × Ticks :=
  ({ loop with position := .claiming next .granted },
    if recorded && ticks.created then { ticks with rows := (loop.name, next) :: ticks.rows }
    else ticks)

def pruned (loop : Loop) (now : Int) (rows : List (String × Int)) : List (String × Int) :=
  rows.filter (fun row => !(row.1 = loop.name ∧ row.2 < now - retention))

def step (loop : Loop) (ticks : Ticks) : Act → Option (Loop × Ticks)
  | .read now =>
    match loop.position with
    | .top =>
      match loop.job.schedule.findNextOccurrence now with
      | some next => some ({ loop with position := .waiting next }, ticks)
      | none => some ({ loop with position := .stopped }, ticks)
    | _ => none
  | .wake now =>
    match loop.position with
    | .waiting next =>
      some (if next ≤ now then { loop with position := .due next } else loop, ticks)
    | _ => none
  | .fire alive =>
    match loop.position with
    | .due next => some (loop.fire next alive, ticks)
    | _ => none
  | .insert now answer =>
    match loop.position with
    | .claiming next .insert =>
      match answer with
      | .answered =>
        if ticks.created then some (loop.claimRow next (ticks.at now))
        else some ({ loop with position := .claiming next .create }, ticks.at now)
      | .failed recorded => some (loop.claimFails next recorded (ticks.at now))
    | _ => none
  -- what `CREATE TABLE IF NOT EXISTS` answers is not looked at
  | .create now carried =>
    match loop.position with
    | .claiming next .create =>
      some ({ loop with position := .claiming next .again },
        { ticks.at now with created := ticks.created || carried })
    | _ => none
  | .again now answer =>
    match loop.position with
    | .claiming next .again =>
      match answer with
      | .answered =>
        if ticks.created then some (loop.claimRow next (ticks.at now))
        else some (loop.claimFails next false (ticks.at now))
      | .failed recorded => some (loop.claimFails next recorded (ticks.at now))
    | _ => none
  | .prune now carried =>
    match loop.position with
    | .claiming next .prune =>
      some ({ loop with position := .claiming next .granted },
        { ticks.at now with
          rows := if carried then loop.pruned now ticks.rows else ticks.rows })
    | _ => none
  | .launch alive =>
    match loop.position with
    | .claiming next .granted => some (loop.launch next alive, ticks)
    | _ => none
  | .ends =>
    if loop.live = 0 then none
    else some ({ loop with live := loop.live - 1, ended := loop.ended + 1 }, ticks)
  | .clears =>
    if loop.ended = 0 then none
    else some ({ loop with running := false, ended := loop.ended - 1 }, ticks)
  | .stop =>
    match loop.position with
    | .waiting _ => some ({ loop with position := .stopped }, ticks)
    | _ => none

end Loop

structure Cluster where
  loops : List Loop
  ticks : Ticks

inductive ClusterLabel where
  | moves (index : Nat) (act : Act)
  | starts (name : String) (job : Job)

namespace Cluster

def new (ticks : Ticks) : Cluster := ⟨[], ticks⟩

def step (cluster : Cluster) : ClusterLabel → Option Cluster
  | .moves index act => do
      let loop ← cluster.loops[index]?
      let (after, ticks) ← loop.step cluster.ticks act
      some ⟨cluster.loops.set index after, ticks⟩
  | .starts name job => some { cluster with loops := cluster.loops ++ [.new name job] }

end Cluster

variable {result : Loop × Ticks} {cluster : Cluster} {act : Act} {label : ClusterLabel}

section

variable {loop after : Loop} {ticks later : Ticks}

inductive Moved (loop : Loop) (ticks : Ticks) : Act → Loop × Ticks → Prop where
  | read {now next : Int} (top : loop.position = .top)
      (found : loop.job.schedule.findNextOccurrence now = some next) :
      Moved loop ticks (.read now) ({ loop with position := .waiting next }, ticks)
  | exhausted {now : Int} (top : loop.position = .top) :
      Moved loop ticks (.read now) ({ loop with position := .stopped }, ticks)
  | early {now next : Int} (waits : loop.position = .waiting next) :
      Moved loop ticks (.wake now) (loop, ticks)
  | wake {now next : Int} (waits : loop.position = .waiting next) :
      Moved loop ticks (.wake now) ({ loop with position := .due next }, ticks)
  | fire {next : Int} {alive : Bool} (due : loop.position = .due next) :
      Moved loop ticks (.fire alive) (loop.fire next alive, ticks)
  | insert {now next : Int} (claims : loop.position = .claiming next .insert)
      (created : ticks.created = true) :
      Moved loop ticks (.insert now .answered) (loop.claimRow next (ticks.at now))
  | missing {now next : Int} (claims : loop.position = .claiming next .insert) :
      Moved loop ticks (.insert now .answered)
        ({ loop with position := .claiming next .create }, ticks.at now)
  | insertFails {now next : Int} {recorded : Bool}
      (claims : loop.position = .claiming next .insert) :
      Moved loop ticks (.insert now (.failed recorded))
        (loop.claimFails next recorded (ticks.at now))
  | create {now next : Int} {carried : Bool} (claims : loop.position = .claiming next .create) :
      Moved loop ticks (.create now carried) ({ loop with position := .claiming next .again },
        { ticks.at now with created := ticks.created || carried })
  | again {now next : Int} (claims : loop.position = .claiming next .again)
      (created : ticks.created = true) :
      Moved loop ticks (.again now .answered) (loop.claimRow next (ticks.at now))
  | stillMissing {now next : Int} (claims : loop.position = .claiming next .again)
      (uncreated : ticks.created = false) :
      Moved loop ticks (.again now .answered) (loop.claimFails next false (ticks.at now))
  | againFails {now next : Int} {recorded : Bool}
      (claims : loop.position = .claiming next .again) :
      Moved loop ticks (.again now (.failed recorded))
        (loop.claimFails next recorded (ticks.at now))
  | prune {now next : Int} {carried : Bool} (claims : loop.position = .claiming next .prune) :
      Moved loop ticks (.prune now carried) ({ loop with position := .claiming next .granted },
        { ticks.at now with rows := if carried then loop.pruned now ticks.rows else ticks.rows })
  | launch {next : Int} {alive : Bool} (granted : loop.position = .claiming next .granted) :
      Moved loop ticks (.launch alive) (loop.launch next alive, ticks)
  | ends (runs : loop.live ≠ 0) :
      Moved loop ticks .ends
        ({ loop with live := loop.live - 1, ended := loop.ended + 1 }, ticks)
  | clears (returned : loop.ended ≠ 0) :
      Moved loop ticks .clears ({ loop with running := false, ended := loop.ended - 1 }, ticks)
  | stop {next : Int} (waits : loop.position = .waiting next) :
      Moved loop ticks .stop ({ loop with position := .stopped }, ticks)

theorem moved_of_step
    (taken : loop.step ticks act = some result) : Moved loop ticks act result := by
  cases act <;> simp only [Loop.step] at taken
  case read =>
    split at taken
    · next top =>
      split at taken <;> cases taken
      · next found => exact .read top found
      · exact .exhausted top
    · cases taken
  case wake =>
    split at taken <;> cases taken
    next next waits =>
      split
      · exact .wake waits
      · exact .early waits
  case fire =>
    split at taken <;> cases taken
    next next due => exact .fire due
  case insert =>
    split at taken
    · next next claims =>
      split at taken
      · split at taken <;> cases taken
        · next created => exact .insert claims created
        · exact .missing claims
      · cases taken
        exact .insertFails claims
    · cases taken
  case create =>
    split at taken <;> cases taken
    next next claims => exact .create claims
  case again =>
    split at taken
    · next next claims =>
      split at taken
      · split at taken <;> cases taken
        · next created => exact .again claims created
        · next uncreated => exact .stillMissing claims (Bool.not_eq_true _ ▸ uncreated)
      · cases taken
        exact .againFails claims
    · cases taken
  case prune =>
    split at taken <;> cases taken
    next next claims => exact .prune claims
  case launch =>
    split at taken <;> cases taken
    next next granted => exact .launch granted
  case ends =>
    obtain ⟨runs, same⟩ := ite_none_left_eq_some.mp taken
    cases same
    exact .ends runs
  case clears =>
    obtain ⟨returned, same⟩ := ite_none_left_eq_some.mp taken
    cases same
    exact .clears returned
  case stop =>
    split at taken <;> cases taken
    next next waits => exact .stop waits

theorem launch_job (loop : Loop) (next : Int) (alive : Bool) :
    (loop.launch next alive).job = loop.job := by
  unfold Loop.launch
  split
  · rfl
  · rfl

theorem moved_job (moved : Moved loop ticks act result) :
    result.1.job = loop.job := by
  cases moved with
  | fire =>
    unfold Loop.fire
    split
    · rfl
    · split
      · rfl
      · split
        · rfl
        · exact launch_job ..
  | insert | again =>
    unfold Loop.claimRow
    split
    · rfl
    · rfl
  | launch => exact launch_job ..
  | _ => rfl

end

def everyMinute : Schedule where
  occurs time := time % 60000000000 = 0
  findNextOccurrence now := some ((now / 60000000000 + 1) * 60000000000)
  later := by
    intro now next found
    cases found
    omega
  least := by
    intro now next time found occurs after
    cases found
    omega
  exhausted := by
    intro now time none
    cases none

end Usai.Cron
