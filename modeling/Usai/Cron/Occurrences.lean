import Mathlib.Data.List.Nodup
import Usai.Cron.Scheduler
import Usai.Slots

/-! Whether a loop starts a scheduled time twice. It remembers the last time it fired and
no other. -/

namespace Usai.Cron

open List Option Slots Transition

def Position.awaited : Position → Option Int
  | .waiting next | .due next | .claiming next _ => some next
  | .top | .stopped => none

variable {loop after : Loop} {ticks : Ticks} {act : Act} {result : Loop × Ticks} {next : Int}

namespace Loop

/-- The clock has not been set back across an occurrence that precedes the last fired
one. -/
def Steady (loop : Loop) (now : Int) : Prop :=
  ∀ next ∈ loop.job.schedule.findNextOccurrence now, ∀ last ∈ loop.lastFired, last ≤ next

instance (loop : Loop) (now : Int) : Decidable (loop.Steady now) := by
  unfold Steady
  infer_instance

structure Scheduled (loop : Loop) : Prop where
  awaits : ∀ next, loop.position.awaited = some next → loop.job.schedule.occurs next
  occur : ∀ time ∈ loop.started, loop.job.schedule.occurs time
  busy : loop.running = true → loop.live + loop.ended ≠ 0

/-- What a loop keeps whose clock is steady: the fired times ascend, the started ones are
among them, and one that is claimed has not been started. -/
structure Ascending (loop : Loop) : Prop where
  ahead : ∀ next, loop.position.awaited = some next → ∀ last ∈ loop.lastFired, last ≤ next
  behind : ∀ time ∈ loop.started, ∃ last ∈ loop.lastFired, time ≤ last
  claims : ∀ next stage, loop.position = .claiming next stage →
    loop.lastFired = some next ∧ next ∉ loop.started
  distinct : loop.started.Nodup

theorem new_scheduled (name : String) (job : Job) : (new name job).Scheduled :=
  ⟨nofun, nofun, nofun⟩

theorem new_ascending (name : String) (job : Job) : (new name job).Ascending :=
  ⟨nofun, nofun, nofun, nodup_nil⟩

theorem Scheduled.launch (scheduled : loop.Scheduled) (occurs : loop.job.schedule.occurs next)
    (alive : Bool) : (loop.launch next alive).Scheduled := by
  unfold Loop.launch
  split
  · exact ⟨nofun, forall_mem_cons.mpr ⟨occurs, scheduled.occur⟩, fun _ => by simp⟩
  · exact ⟨nofun, scheduled.occur, scheduled.busy⟩

theorem Scheduled.fire (scheduled : loop.Scheduled) (occurs : loop.job.schedule.occurs next)
    (alive : Bool) : (loop.fire next alive).Scheduled := by
  have claims (time : Int) (awaited : some next = some time) : loop.job.schedule.occurs time := by
    cases awaited
    exact occurs
  unfold Loop.fire
  split
  · exact ⟨nofun, scheduled.occur, scheduled.busy⟩
  · split
    · exact ⟨nofun, scheduled.occur, scheduled.busy⟩
    · split
      · exact ⟨claims, scheduled.occur, scheduled.busy⟩
      · apply Scheduled.launch
        · exact ⟨scheduled.awaits, scheduled.occur, scheduled.busy⟩
        · exact occurs

theorem Scheduled.moved (scheduled : loop.Scheduled) (moved : Moved loop ticks act result) :
    result.1.Scheduled := by
  have occurs {position : Position} (here : loop.position = position) {next : Int}
      (awaited : position.awaited = some next) : loop.job.schedule.occurs next :=
    scheduled.awaits next (here ▸ awaited)
  have awaits {before position : Position} (here : loop.position = before)
      (same : position.awaited = before.awaited) : Scheduled { loop with position := position } :=
    ⟨fun _ awaited => occurs here (same ▸ awaited), scheduled.occur, scheduled.busy⟩
  cases moved with
  | read _ found =>
    refine ⟨?_, scheduled.occur, scheduled.busy⟩
    intro next awaited
    cases awaited
    exact (loop.job.schedule.later _ _ found).1
  | exhausted | stop => exact ⟨nofun, scheduled.occur, scheduled.busy⟩
  | early => exact scheduled
  | wake here | missing here | insertFails here | create here | stillMissing here | againFails here
  | prune here => exact awaits here rfl
  | fire here => exact scheduled.fire (occurs here rfl) _
  | insert here | again here =>
    unfold Loop.claimRow
    split
    · exact ⟨nofun, scheduled.occur, scheduled.busy⟩
    · exact awaits here rfl
  | launch here => exact scheduled.launch (occurs here rfl) _
  | ends => exact ⟨scheduled.awaits, scheduled.occur, fun _ => by simp⟩
  | clears => exact ⟨scheduled.awaits, scheduled.occur, nofun⟩

theorem Ascending.launch (fired : loop.lastFired = some next) (fresh : next ∉ loop.started)
    (behind : ∀ time ∈ loop.started, ∃ last ∈ loop.lastFired, time ≤ last)
    (distinct : loop.started.Nodup) (alive : Bool) : (loop.launch next alive).Ascending := by
  unfold Loop.launch
  split
  · refine ⟨nofun, ?_, nofun, nodup_cons.mpr ⟨fresh, distinct⟩⟩
    exact forall_mem_cons.mpr ⟨⟨next, fired, Int.le_refl _⟩, behind⟩
  · exact ⟨nofun, behind, nofun, distinct⟩

theorem Ascending.fire (ascending : loop.Ascending) (due : loop.position = .due next)
    (alive : Bool) : (loop.fire next alive).Ascending := by
  have ahead := ascending.ahead next (congrArg Position.awaited due)
  unfold Loop.fire
  split
  · exact ⟨nofun, ascending.behind, nofun, ascending.distinct⟩
  · next unfired =>
    -- the last fired time is at most `next` and is not `next`, and no started time is later
    have earlier : ∀ time ∈ loop.started, time < next := by
      intro time member
      obtain ⟨last, here, bound⟩ := ascending.behind time member
      have different : last ≠ next := by
        rintro rfl
        exact unfired here
      have most := ahead last here
      omega
    have behind : ∀ time ∈ loop.started, ∃ last ∈ some next, time ≤ last :=
      fun time member => ⟨next, rfl, Int.le_of_lt (earlier time member)⟩
    have fresh : next ∉ loop.started := fun member => Int.lt_irrefl next (earlier next member)
    split
    · exact ⟨nofun, behind, nofun, ascending.distinct⟩
    · split
      · refine ⟨?_, behind, ?_, ascending.distinct⟩
        · rintro _ ⟨rfl⟩ _ ⟨rfl⟩
          exact Int.le_refl _
        · rintro _ _ ⟨rfl⟩
          exact ⟨rfl, fresh⟩
      · apply Ascending.launch
        · rfl
        · exact fresh
        · exact behind
        · exact ascending.distinct

theorem Ascending.moved (ascending : loop.Ascending)
    (steady : ∀ now, act = .read now → loop.Steady now) (moved : Moved loop ticks act result) :
    result.1.Ascending := by
  have ahead {before position : Position} (here : loop.position = before)
      (same : position.awaited = before.awaited) : ∀ next, position.awaited = some next →
        ∀ last ∈ loop.lastFired, last ≤ next :=
    fun next awaited => ascending.ahead next (here ▸ same ▸ awaited)
  have claiming {next : Int} {stage other : Stage} (here : loop.position = .claiming next stage) :
      Ascending { loop with position := .claiming next other } := by
    refine ⟨ahead here rfl, ascending.behind, ?_, ascending.distinct⟩
    rintro _ _ ⟨rfl⟩
    exact ascending.claims next stage here
  cases moved with
  | read _ found =>
    refine ⟨?_, ascending.behind, nofun, ascending.distinct⟩
    rintro _ ⟨rfl⟩
    exact steady _ rfl _ found
  | exhausted | stop => exact ⟨nofun, ascending.behind, nofun, ascending.distinct⟩
  | early => exact ascending
  | wake here => exact ⟨ahead here rfl, ascending.behind, nofun, ascending.distinct⟩
  | missing here | insertFails here | create here | stillMissing here | againFails here
  | prune here => exact claiming here
  | fire here => exact ascending.fire here _
  | insert here | again here =>
    unfold Loop.claimRow
    split
    · exact ⟨nofun, ascending.behind, nofun, ascending.distinct⟩
    · exact claiming here
  | launch here =>
    obtain ⟨fired, fresh⟩ := ascending.claims _ _ here
    exact launch fired fresh ascending.behind ascending.distinct _
  | ends | clears =>
    exact ⟨ascending.ahead, ascending.behind, ascending.claims, ascending.distinct⟩

def solo (state : Loop × Ticks) (act : Act) : Option (Loop × Ticks) := state.1.step state.2 act

theorem run_scheduled {start final : Loop × Ticks} (scheduled : start.1.Scheduled)
    (reached : exec solo start acts = some final) : final.1.Scheduled := by
  have always : Along solo (fun state => state.1.Scheduled) start acts :=
    along_of_meets (fun _ _ _ scheduled _ taken => scheduled.moved (moved_of_step taken)) scheduled
      (meets_true start acts)
  have kept := along_reached always reached
  exact kept

theorem rests (busy : loop.running = true → loop.live + loop.ended ≠ 0) (ticks : Ticks) :
    ∃ acts live ended, exec solo (loop, ticks) acts =
      some ({ loop with running := false, live := live, ended := ended }, ticks) := by
  cases running : loop.running with
  | false =>
    refine ⟨[], loop.live, loop.ended, ?_⟩
    rw [exec_nil, ← running]
  | true =>
    by_cases ended : loop.ended = 0
    · have live : loop.live ≠ 0 := by
        have some := busy running
        omega
      exact ⟨[.ends, .clears], loop.live - 1, loop.ended,
        by simp [solo, Loop.step, live]⟩
    · exact ⟨[.clears], loop.live, loop.ended - 1, by simp [solo, Loop.step, ended]⟩

/-- A loop that waits for an occurrence can come to start it, unless it is the last one it
fired: its claim, if there is one to make, fails, and the running invocation ends. -/
theorem fires (scheduled : loop.Scheduled) (waits : loop.position = .waiting next)
    (fresh : loop.lastFired ≠ some next) (ticks : Ticks) :
    ∃ acts final, exec solo (loop, ticks) acts = some final ∧ final.1.job = loop.job ∧
      final.1.position = .top ∧ final.1.lastFired = some next ∧
      final.1.started = next :: loop.started := by
  obtain ⟨acts, live, ended, reached⟩ := rests scheduled.busy ticks
  let counted := { loop.stats with ticks := loop.stats.ticks + 1 }
  let final := { loop with
    position := .top
    lastFired := some next
    running := true
    live := live + 1
    ended := ended
    stats := counted
    started := next :: loop.started }
  cases exclusive : loop.job.exclusive with
  | false =>
    refine ⟨acts ++ [.wake next, .fire true], (final, ticks), ?_, rfl, rfl, rfl, rfl⟩
    rw [exec_append, reached]
    simp [solo, Loop.step, waits, Loop.fire, fresh, exclusive, Loop.launch, final, counted]
  | true =>
    refine ⟨acts ++ [.wake next, .fire true, .insert 0 (.failed false), .launch true],
      (final, ticks.at 0), ?_, rfl, rfl, rfl, rfl⟩
    rw [exec_append, reached]
    simp [solo, Loop.step, waits, Loop.fire, fresh, exclusive, Loop.launch, Loop.claimFails, final,
      counted]

theorem next_of_occurs {schedule : Schedule} {time : Int} (occurs : schedule.occurs time) :
    schedule.findNextOccurrence (time - 1) = some time := by
  cases found : schedule.findNextOccurrence (time - 1) with
  | none =>
    have bound := schedule.exhausted (time - 1) time found occurs
    omega
  | some next =>
    have after := (schedule.later (time - 1) next found).2
    have below := schedule.least (time - 1) next time found occurs (by omega)
    have same : next = time := by omega
    rw [same]

theorem set_back_repeats (scheduled : loop.Scheduled) {now last : Int}
    (top : loop.position = .top) (fired : loop.lastFired = some last) (ran : last ∈ loop.started)
    (back : ¬ loop.Steady now) (ticks : Ticks) :
    ∃ more final, exec solo (loop, ticks) (.read now :: more) = some final ∧
      ¬ final.1.started.Nodup := by
  simp only [Steady, not_forall] at back
  obtain ⟨next, found, _, same, early⟩ := back
  cases fired.symm.trans same
  have differs : last ≠ next := by
    rintro rfl
    exact early (Int.le_refl _)
  let waits : Loop := { loop with position := .waiting next }
  have reads : solo (loop, ticks) (.read now) = some (waits, ticks) := by
    rw [mem_def] at found
    simp only [solo, Loop.step, top, found, waits]
  have waiting : waits.Scheduled := scheduled.moved (moved_of_step reads)
  obtain ⟨first, middle, reached, job, again, moved, added⟩ :=
    fires waiting rfl (fun equal => differs (some.inj (fired.symm.trans equal))) ticks
  let returns : Loop := { middle.1 with position := .waiting last }
  have rereads : solo middle (.read (last - 1)) = some (returns, middle.2) := by
    have occurs : middle.1.job.schedule.occurs last := job ▸ scheduled.occur last ran
    simp only [solo, Loop.step, again, next_of_occurs occurs, returns]
  have returning : returns.Scheduled :=
    (run_scheduled waiting reached).moved (moved_of_step rereads)
  obtain ⟨second, final, ends, _, _, _, doubled⟩ :=
    fires returning rfl (fun equal => differs (some.inj (moved.symm.trans equal)).symm) middle.2
  refine ⟨first ++ .read (last - 1) :: second, final, ?_, ?_⟩
  · rw [exec_cons, reads, bind_some, exec_append, reached, bind_some, exec_cons, rereads]
    exact ends
  · rw [doubled, show returns.started = next :: loop.started from added]
    intro distinct
    exact (nodup_cons.mp distinct).1 (mem_cons_of_mem _ ran)

end Loop

namespace Cluster

variable {cluster : Cluster} {index : Nat}

def Steady (index : Nat) (cluster : Cluster) : ClusterLabel → Prop
  | .moves other (.read now) => other = index → ∀ loop ∈ cluster.loops[index]?, loop.Steady now
  | _ => True

instance (cluster : Cluster) (label : ClusterLabel) : Decidable (Steady index cluster label) := by
  unfold Steady
  split <;> infer_instance

theorem step_at {property : Loop → Prop} {label : ClusterLabel} {next : Cluster}
    (fresh : ∀ name job, property (.new name job))
    (moves : ∀ act loop result, label = .moves index act → cluster.loops[index]? = some loop →
      property loop → Moved loop cluster.ticks act result → property result.1)
    (kept : ∀ loop ∈ cluster.loops[index]?, property loop) (taken : cluster.step label = some next) :
    ∀ loop ∈ next.loops[index]?, property loop := by
  intro after here
  cases label with
  | starts name job =>
    cases taken
    rcases of_getElem?_append here with old | ⟨_, rfl⟩
    · exact kept after old
    · exact fresh name job
  | moves other act =>
    obtain ⟨loop, found, taken⟩ := bind_eq_some_iff.mp taken
    obtain ⟨⟨_, _⟩, stepped, same⟩ := bind_eq_some_iff.mp taken
    cases same
    rcases of_getElem?_set here with ⟨rfl, rfl⟩ | ⟨_, old⟩
    · exact moves act loop _ rfl found (kept loop found) (moved_of_step stepped)
    · exact kept after old

theorem exec_moves {loop after : Loop} {ticks : Ticks} {acts : List Act}
    (found : cluster.loops[index]? = some loop)
    (reached : exec Loop.solo (loop, cluster.ticks) acts = some (after, ticks)) :
    exec step cluster (acts.map (.moves index)) = some ⟨cluster.loops.set index after, ticks⟩ := by
  induction acts generalizing cluster loop with
  | nil =>
    cases reached
    obtain ⟨_, rfl⟩ := List.getElem?_eq_some_iff.mp found
    rw [map_nil, exec_nil, set_getElem_self]
  | cons act acts ih =>
    rw [exec_cons] at reached
    obtain ⟨middle, stepped, reached⟩ := bind_eq_some_iff.mp reached
    have inside := (List.getElem?_eq_some_iff.mp found).1
    have steps : cluster.step (.moves index act) =
        some ⟨cluster.loops.set index middle.1, middle.2⟩ := by
      have moves : loop.step cluster.ticks act = some middle := stepped
      simp only [step, found, moves, Option.bind_eq_bind, bind_some]
    rw [map_cons, exec_cons, steps, bind_some, ih (getElem?_set_self inside) reached, set_set]

end Cluster

/-- In every run in which the clock of a loop is never set back across an occurrence before
the last fired one, that loop starts no scheduled time twice. A reading that breaks the
condition, in any state a run can reach, can be continued until a scheduled time that was
started is started again. -/
theorem scheduled_times_distinct (ticks : Ticks) (index : Nat) (labels : List ClusterLabel)
    (steady : Meets Cluster.step (Cluster.Steady index) (.new ticks) labels) :
    Along Cluster.step (fun cluster => ∀ loop ∈ cluster.loops[index]?, loop.started.Nodup)
      (.new ticks) labels ∧
    ∀ earlier cluster loop last now, exec Cluster.step (.new ticks) earlier = some cluster →
      cluster.loops[index]? = some loop → loop.position = .top → loop.lastFired = some last →
      last ∈ loop.started → ¬ loop.Steady now →
      ∃ more final, exec Cluster.step cluster (.moves index (.read now) :: more) = some final ∧
        ∃ loop, final.loops[index]? = some loop ∧ ¬ loop.started.Nodup := by
  constructor
  · have ascends : Along Cluster.step (fun cluster => ∀ loop ∈ cluster.loops[index]?,
        loop.Ascending) (.new ticks) labels := by
      refine along_of_meets ?_ nofun steady
      intro cluster label next ascending steady taken
      refine Cluster.step_at Loop.new_ascending ?_ ascending taken
      rintro act loop result rfl found ascending moved
      refine ascending.moved ?_ moved
      rintro now rfl
      exact steady rfl loop found
    exact along_imp (fun _ ascending loop found => (ascending loop found).distinct) ascends
  · intro earlier cluster loop last now reached found top fired ran back
    have always : Along Cluster.step (fun cluster => ∀ loop ∈ cluster.loops[index]?,
        loop.Scheduled) (.new ticks) earlier :=
      along_of_meets (fun _ _ _ scheduled _ taken => Cluster.step_at Loop.new_scheduled
        (fun _ _ _ _ _ scheduled moved => scheduled.moved moved) scheduled taken) nofun
        (meets_true _ _)
    have scheduled := along_reached always reached loop found
    obtain ⟨more, final, run, twice⟩ :=
      Loop.set_back_repeats scheduled top fired ran back cluster.ticks
    have inside := (List.getElem?_eq_some_iff.mp found).1
    exact ⟨_, _, Cluster.exec_moves found run, final.1, getElem?_set_self inside, twice⟩

def minutely : Job := ⟨everyMinute, .skip, false⟩

def turn (now next : Int) : List ClusterLabel :=
  [.read (now * 1000000000), .wake (next * 1000000000), .fire true, .ends, .clears].map (.moves 0)

theorem scheduled_times_distinct_forward :
    Along Cluster.step (fun cluster => ∀ loop ∈ cluster.loops[0]?, loop.started.Nodup)
      (.new ⟨false, [], 0⟩) (.starts "report" minutely :: turn 590 600 ++ turn 600 660) :=
  (scheduled_times_distinct ⟨false, [], 0⟩ 0 _ (by decide)).1

/-- The clock is set back by ninety seconds after two ticks, and both are started again. -/
theorem set_back_starts_twice :
    (exec Cluster.step (.new ⟨false, [], 0⟩) (.starts "report" minutely ::
      turn 590 600 ++ turn 600 660 ++ turn 570 600 ++ turn 600 660)).map
        (fun cluster => cluster.loops.map Loop.started) =
      some [[660000000000, 600000000000, 660000000000, 600000000000]] := by
  decide

end Usai.Cron
