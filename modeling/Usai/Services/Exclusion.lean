import Usai.Services.Leases
import Usai.Slots

/-! At most one world of an exclusive service, over every interleaving of the
tasks that supervise it. -/

namespace Usai.Services

open FiniteMap Fleet List Option Slots Transition

namespace Fleet

variable {fleet : Fleet} {task : Task}

variable {index : Nat} {other : Task}

theorem taskIn_eq_some :
    fleet.taskIn index phase = some task ↔
      fleet.tasks[index]? = some task ∧ task.phase = phase := by
  simp [taskIn, filter_eq_some_iff]

@[simp] theorem claimLease_tasks : (fleet.claimLease task).tasks = fleet.tasks := by
  unfold claimLease
  split <;> rfl

@[simp] theorem claimLease_now : (fleet.claimLease task).now = fleet.now := by
  unfold claimLease
  split <;> rfl

@[simp] theorem releaseLease_tasks : (fleet.releaseLease task).tasks = fleet.tasks := by
  unfold releaseLease
  split
  · split <;> rfl
  · rfl

@[simp] theorem releaseLease_now : (fleet.releaseLease task).now = fleet.now := by
  unfold releaseLease
  split
  · split <;> rfl
  · rfl

theorem claimLease_lookup (database : String) :
    (fleet.claimLease task).leases.lookup database =
      if database = task.database ∧ fleet.grants task = true then
        some ⟨task.holder, fleet.now + task.lease⟩
      else fleet.leases.lookup database := by
  unfold claimLease
  by_cases granted : fleet.grants task = true
  · simp only [granted, and_true]
    exact lookup_insert_eq _ _ _ _
  · rw [if_neg granted, if_neg (fun both => granted both.2)]

theorem releaseLease_lookup (database : String) :
    (fleet.releaseLease task).leases.lookup database =
      if database = task.database then
        (fleet.leases.lookup database).filter (fun lease => lease.holder ≠ task.holder)
      else fleet.leases.lookup database := by
  unfold releaseLease
  by_cases same : database = task.database
  · subst database
    cases found : fleet.leases.lookup task.database with
    | none => simp [found]
    | some lease =>
      by_cases own : lease.holder = task.holder
      · simp [Option.filter, own]
      · simp [Option.filter, own, found]
  · rw [if_neg same]
    cases fleet.leases.lookup task.database with
    | none => rfl
    | some lease =>
      by_cases own : lease.holder = task.holder
      · simp only [if_pos own, lookup_erase_eq, if_neg same]
      · simp only [if_neg own]

theorem move_getElem? (after : (fleet.move index task phase).tasks[i]? = some other) :
    (i = index ∧ other = { task with phase }) ∨ (i ≠ index ∧ fleet.tasks[i]? = some other) :=
  of_getElem?_set after

theorem move_self (found : fleet.tasks[index]? = some task) (phase : Phase) :
    (fleet.move index task phase).tasks[index]? = some { task with phase } :=
  List.getElem?_set_self (List.getElem?_eq_some_iff.mp found).1

theorem move_ne (different : i ≠ index) (phase : Phase) :
    (fleet.move index task phase).tasks[i]? = fleet.tasks[i]? :=
  getElem?_set_ne (Ne.symm different)

def leasedTo (fleet : Fleet) (task : Task) : Prop :=
  ∃ lease, fleet.leases.lookup task.database = some lease ∧ lease.holder = task.holder ∧
    fleet.now ≤ lease.expiresAt

theorem leasedTo_claimLease (leased : fleet.leasedTo other) :
    (fleet.claimLease task).leasedTo other := by
  obtain ⟨lease, found, holder, current⟩ := leased
  simp only [leasedTo, claimLease_lookup, claimLease_now]
  split
  · rename_i taken
    refine ⟨_, rfl, ?_, Nat.le_add_right _ _⟩
    have granted := taken.2
    rw [grants, ← taken.1, found] at granted
    simp only [Bool.or_eq_true, beq_iff_eq, decide_eq_true_eq] at granted
    rcases granted with own | _
    · exact own.symm.trans holder
    · omega
  · exact ⟨lease, found, holder, current⟩

theorem leasedTo_releaseLease (leased : fleet.leasedTo other)
    (apart : ¬ (task.holder = other.holder ∧ task.database = other.database)) :
    (fleet.releaseLease task).leasedTo other := by
  obtain ⟨lease, found, holder, current⟩ := leased
  simp only [leasedTo, releaseLease_lookup, releaseLease_now]
  refine ⟨lease, ?_, holder, current⟩
  split
  · rename_i same
    rw [found]
    have different : lease.holder ≠ task.holder := by
      intro own
      exact apart ⟨own.symm.trans holder, same.symm⟩
    simp [different]
  · exact found

theorem grants_leasedTo (granted : fleet.grants task = true)
    (leased : fleet.leasedTo other) (same : other.database = task.database) :
    other.holder = task.holder := by
  obtain ⟨_, found, holder, _⟩ := leased
  rw [grants, ← same, found] at granted
  simp only [Bool.or_eq_true, beq_iff_eq, decide_eq_true_eq] at granted
  rcases granted with own | _
  · exact holder.symm.trans own
  · omega

end Fleet

/-- What carries exclusion: a task that holds is the one the row shows, it is
alone, and no task that is about to delete a row would delete its. -/
structure Guarded (fleet : Fleet) : Prop where
  leased : ∀ (i : Nat) (task : Task), fleet.tasks[i]? = some task → task.holds = true →
    fleet.leasedTo task
  sole : ∀ (i j : Nat) (a b : Task), fleet.tasks[i]? = some a → fleet.tasks[j]? = some b →
    a.holds = true → b.holds = true → i = j
  apart : ∀ (i j : Nat) (a b : Task), fleet.tasks[i]? = some a → fleet.tasks[j]? = some b →
    a.holds = true → b.phase = .releasing → ¬ (b.holder = a.holder ∧ b.database = a.database)

theorem new_guarded : Guarded new where
  leased := by intro i task found; cases found
  sole := by intro i j a b found; cases found
  apart := by intro i j a b found; cases found

variable {task : Task} {index : Nat}

namespace Guarded

variable {fleet : Fleet} {task : Task}

section

variable (guarded : Guarded fleet)
include guarded

theorem of_leased {next : Fleet} (tasks : next.tasks = fleet.tasks)
    (leased : ∀ task ∈ fleet.tasks, task.holds = true → fleet.leasedTo task → next.leasedTo task) :
    Guarded next where
  leased := by
    intro i task found holds
    rw [tasks] at found
    exact leased task (mem_of_getElem? found) holds (guarded.leased i task found holds)
  sole := by rw [tasks]; exact guarded.sole
  apart := by rw [tasks]; exact guarded.apart

theorem claimLease (task : Task) : Guarded (fleet.claimLease task) :=
  guarded.of_leased claimLease_tasks (fun _ _ _ leased => leasedTo_claimLease leased)

theorem releaseLease
    (found : fleet.tasks[index]? = some task) (releasing : task.phase = .releasing) :
    Guarded (fleet.releaseLease task) := by
  apply guarded.of_leased releaseLease_tasks
  intro other member holds leased
  obtain ⟨position, present⟩ := getElem?_of_mem member
  exact leasedTo_releaseLease leased
    (guarded.apart position index other task present found holds releasing)

theorem leave (pending : Bool) : Guarded (fleet.leave task pending) :=
  guarded.of_leased rfl (fun _ _ _ leased => leased)

theorem move (found : fleet.tasks[index]? = some task) (phase : Phase)
    (held : ({ task with phase } : Task).holds = true ∨ phase = .releasing → task.holds = true) :
    Guarded (fleet.move index task phase) := by
  constructor
  · intro i a after holds
    rcases move_getElem? after with ⟨_, rfl⟩ | ⟨_, before⟩
    · exact guarded.leased index task found (held (.inl holds))
    · exact guarded.leased i a before holds
  · intro i j a b first second holdsA holdsB
    rcases move_getElem? first with ⟨rfl, rfl⟩ | ⟨_, beforeA⟩
    · rcases move_getElem? second with ⟨rfl, _⟩ | ⟨_, beforeB⟩
      · rfl
      · exact guarded.sole i j task b found beforeB (held (.inl holdsA)) holdsB
    · rcases move_getElem? second with ⟨rfl, rfl⟩ | ⟨_, beforeB⟩
      · exact guarded.sole i j a task beforeA found holdsA (held (.inl holdsB))
      · exact guarded.sole i j a b beforeA beforeB holdsA holdsB
  · intro i j a b first second holdsA releases
    rcases move_getElem? first with ⟨rfl, rfl⟩ | ⟨otherI, beforeA⟩
    · rcases move_getElem? second with ⟨rfl, rfl⟩ | ⟨_, beforeB⟩
      · rw [Task.holds, show ({ task with phase } : Task).phase = .releasing from releases] at holdsA
        cases holdsA
      · exact guarded.apart i j task b found beforeB (held (.inl holdsA)) releases
    · rcases move_getElem? second with ⟨rfl, rfl⟩ | ⟨_, beforeB⟩
      · -- the task that starts to release held until now, so no other one does
        exact absurd (guarded.sole i j a task beforeA found holdsA (held (.inr releases))) otherI
      · exact guarded.apart i j a b beforeA beforeB holdsA releases

theorem start (claiming : task.phase = .claiming) :
    Guarded { fleet with tasks := fleet.tasks ++ [task] } := by
  have idle : task.holds = false ∧ task.phase ≠ .releasing := by
    simp [Task.holds, claiming]
  have back : ∀ (i : Nat) (a : Task), (fleet.tasks ++ [task])[i]? = some a →
      a.holds = true ∨ a.phase = .releasing → fleet.tasks[i]? = some a := by
    intro i a after active
    rcases of_getElem?_append after with earlier | ⟨_, rfl⟩
    · exact earlier
    · rcases active with holds | releases
      · rw [idle.1] at holds
        cases holds
      · exact absurd releases idle.2
  constructor
  · intro i a after holds
    exact guarded.leased i a (back i a after (.inl holds)) holds
  · intro i j a b first second holdsA holdsB
    exact guarded.sole i j a b (back i a first (.inl holdsA)) (back j b second (.inl holdsB))
      holdsA holdsB
  · intro i j a b first second holdsA releases
    exact guarded.apart i j a b (back i a first (.inl holdsA))
      (back j b second (.inr releases)) holdsA releases

/-- The claim that the row grants. Against the tasks it can tell apart the row
decides; of the others the condition says that there are none. -/
theorem claimed (index : Nat) (granted : fleet.grants task = true)
    (apart : ∀ other ∈ fleet.tasks, other.clashes task = false) :
    Guarded ((fleet.claimLease task).move index task .claimed) := by
  have nobody : ∀ (i : Nat) (a : Task), fleet.tasks[i]? = some a → a.holds = false := by
    intro i a before
    by_contra holds
    rw [Bool.not_eq_false] at holds
    have clear := apart a (mem_of_getElem? before)
    simp only [Task.clashes, holds, Bool.true_and, Bool.or_eq_false_iff, beq_eq_false_iff_ne,
      bne_eq_false_iff_eq] at clear
    exact clear.1.1 (grants_leasedTo granted (guarded.leased i a before holds) clear.1.2)
  have back : ∀ {i : Nat} {a : Task},
      ((fleet.claimLease task).move index task .claimed).tasks[i]? = some a →
      (i = index ∧ a = { task with phase := .claimed }) ∨ fleet.tasks[i]? = some a := by
    intro i a after
    rcases move_getElem? after with same | ⟨_, before⟩
    · exact .inl same
    · exact .inr (by rwa [claimLease_tasks] at before)
  constructor
  · intro i a after holds
    rcases back after with ⟨_, rfl⟩ | before
    · refine ⟨⟨task.holder, fleet.now + task.lease⟩, ?_, rfl, ?_⟩
      · have row : (fleet.claimLease task).leases.lookup task.database = _ :=
          claimLease_lookup task.database
        rw [if_pos ⟨rfl, granted⟩] at row
        exact row
      · have clock : ((fleet.claimLease task).move index task .claimed).now = fleet.now :=
          claimLease_now
        rw [clock]
        exact Nat.le_add_right _ _
    · rw [nobody i a before] at holds
      cases holds
  · intro i j a b first second holdsA holdsB
    rcases back first with ⟨rfl, _⟩ | beforeA
    · rcases back second with ⟨rfl, _⟩ | beforeB
      · rfl
      · rw [nobody j b beforeB] at holdsB
        cases holdsB
    · rw [nobody i a beforeA] at holdsA
      cases holdsA
  · intro i j a b first second holdsA releases
    rcases back first with ⟨rfl, rfl⟩ | beforeA
    · rcases back second with ⟨rfl, rfl⟩ | beforeB
      · cases releases
      · have clear := apart b (mem_of_getElem? beforeB)
        simp only [Task.clashes, releases, decide_true, Bool.true_and, Bool.or_eq_false_iff,
          Bool.and_eq_false_iff, beq_eq_false_iff_ne] at clear
        rintro ⟨holder, database⟩
        rcases clear.2 with other | other
        · exact other holder
        · exact other database
    · rw [nobody i a beforeA] at holdsA
      cases holdsA

end

end Guarded

theorem runs_holds (runs : task.runs = true) : task.holds = true := by
  unfold Task.runs at runs
  unfold Task.holds
  split at runs
  · rename_i phase
    rw [phase]
  all_goals cases runs

variable {fleet : Fleet} {i j : Nat} {a b : Task}

theorem Guarded.exclusive (guarded : Guarded fleet) : Exclusive fleet :=
  fun i j a b first second runsA runsB =>
    guarded.sole i j a b first second (runs_holds runsA) (runs_holds runsB)

theorem step_guarded (fleet : Fleet) (label : Label) (next : Fleet) (guarded : Guarded fleet)
    (meets : Timely fleet label ∧ Apart fleet label) (taken : fleet.step label = some next) :
    Guarded next := by
  cases label with
  | start =>
    cases taken
    exact guarded.start rfl
  | tick =>
    cases taken
    refine guarded.of_leased rfl ?_
    rintro task member holds ⟨lease, found, holder, _⟩
    exact ⟨lease, found, holder, meets.1 task member holds lease found holder⟩
  | claim index outcome =>
    obtain ⟨task, found, rfl⟩ := map_eq_some_iff.mp taken
    cases outcome with
    | answered =>
      by_cases granted : fleet.grants task = true
      · simp only [granted, if_true]
        exact guarded.claimed index granted (meets.2 task found granted)
      · simp only [granted]
        exact guarded
    | failed applied =>
      cases applied with
      | true => exact guarded.claimLease task
      | false => exact guarded
  | giveUp =>
    obtain ⟨task, found, rfl⟩ := map_eq_some_iff.mp taken
    apply guarded.move (taskIn_eq_some.mp found).1
    rintro (clash | clash) <;> cases clash
  | world =>
    obtain ⟨task, found, rfl⟩ := map_eq_some_iff.mp taken
    obtain ⟨present, claimed⟩ := taskIn_eq_some.mp found
    apply guarded.move present
    intro _
    rw [Task.holds, claimed]
  | renew index outcome =>
    obtain ⟨task, found, rfl⟩ := map_eq_some_iff.mp taken
    obtain ⟨present, running⟩ := taskIn_eq_some.mp found
    have holds : task.holds = true := by rw [Task.holds, running]
    have lost : ∀ {after : Fleet}, Guarded after → after.tasks = fleet.tasks →
        Guarded (after.move index task (.running false)) := by
      intro after kept tasks
      exact kept.move (tasks ▸ present) (.running false) (fun _ => holds)
    cases outcome with
    | answered =>
      by_cases granted : fleet.grants task = true
      · simp only [granted, if_true]
        exact guarded.claimLease task
      · simp only [granted]
        exact lost guarded rfl
    | failed applied =>
      cases applied with
      | true => exact lost (guarded.claimLease task) claimLease_tasks
      | false => exact lost guarded rfl
  | stop =>
    obtain ⟨task, found, rfl⟩ := map_eq_some_iff.mp taken
    obtain ⟨present, running⟩ := taskIn_eq_some.mp found
    apply guarded.move present
    intro _
    rw [Task.holds, running]
  | finish _ pending =>
    obtain ⟨task, found, rfl⟩ := map_eq_some_iff.mp taken
    rw [filter_eq_some_iff] at found
    exact (guarded.move found.1 .releasing (fun _ => runs_holds found.2)).leave pending
  | release index applied restarts =>
    obtain ⟨task, found, rfl⟩ := map_eq_some_iff.mp taken
    obtain ⟨present, releasing⟩ := taskIn_eq_some.mp found
    have freed : ∀ {after : Fleet}, Guarded after → after.tasks = fleet.tasks →
        Guarded (after.move index task (if restarts then .claiming else .ended)) := by
      intro after kept tasks
      apply kept.move (tasks ▸ present)
      cases restarts <;> (rintro (clash | clash) <;> cases clash)
    cases applied with
    | true => exact freed (guarded.releaseLease present releasing) releaseLease_tasks
    | false => exact freed guarded rfl
  | crash _ pending =>
    obtain ⟨task, present, rfl⟩ := map_eq_some_iff.mp taken
    refine (guarded.move present .ended ?_).leave pending
    rintro (clash | clash) <;> cases clash
  | land =>
    obtain ⟨task, _, rfl⟩ := map_eq_some_iff.mp taken
    exact (guarded.claimLease task).of_leased rfl (fun _ _ _ leased => leased)

theorem world_step (found : fleet.tasks[index]? = some task) (claimed : task.phase = .claimed) :
    fleet.step (.world index true) = some (fleet.move index task (.running true)) := by
  simp only [step, taskIn_eq_some.mpr ⟨found, claimed⟩, map_some, if_true]

section

variable (first : fleet.tasks[i]? = some a) (second : fleet.tasks[j]? = some b)
include first second

theorem not_exclusive (runsA : a.runs = true) (runsB : b.runs = true)
    (different : i ≠ j) : ¬ Exclusive fleet :=
  fun exclusive => different (exclusive i j a b first second runsA runsB)

theorem both_run (claimed : a.phase = .claimed) (holds : b.holds = true) (different : i ≠ j) :
    ∃ rest final, (∀ now, Label.tick now ∉ rest) ∧
      exec step fleet rest = some final ∧ ¬ Exclusive final := by
  have started := world_step first claimed
  have here := move_self first (.running true)
  have there : (fleet.move i a (.running true)).tasks[j]? = some b := by
    rw [move_ne (Ne.symm different), second]
  unfold Task.holds at holds
  split at holds
  · rename_i waits
    refine ⟨[.world i true, .world j true],
      (fleet.move i a (.running true)).move j b (.running true), by simp, ?_, ?_⟩
    · simp only [exec_cons, started, world_step there waits, bind_some,
        exec_nil]
    · exact not_exclusive ((move_ne different _).trans here) (move_self there _) rfl rfl
        different
  · rename_i runs
    refine ⟨[.world i true], fleet.move i a (.running true), by simp, ?_, ?_⟩
    · simp only [exec_cons, started, bind_some, exec_nil]
    · exact not_exclusive here there rfl (by rw [Task.runs, runs]) different
  all_goals cases holds

omit first second in
theorem newcomer_runs (first : fleet.tasks[i]? = some a) (runs : a.runs = true)
    (absent : fleet.leases.lookup database = none) :
    ∃ rest final, (∀ now, Label.tick now ∉ rest) ∧
      exec step fleet rest = some final ∧ ¬ Exclusive final := by
  let newcomer : Task := ⟨⟨"", 0⟩, 0, database, none, .claiming⟩
  let joined : Fleet := { fleet with tasks := fleet.tasks ++ [newcomer] }
  let last := fleet.tasks.length
  have inside : i < last := (List.getElem?_eq_some_iff.mp first).1
  have waits : joined.taskIn last .claiming = some newcomer := by
    apply taskIn_eq_some.mpr
    exact ⟨by simp [joined, last], rfl⟩
  have granted : joined.grants newcomer = true := by
    simp only [grants, joined, newcomer, absent]
  have taken : joined.step (.claim last .answered) =
      some ((joined.claimLease newcomer).move last newcomer .claimed) := by
    simp only [step, waits, map_some, granted, if_true]
  have entered : ((joined.claimLease newcomer).move last newcomer .claimed).tasks[last]? =
      some { newcomer with phase := .claimed } := by
    apply move_self
    rw [claimLease_tasks]
    exact (taskIn_eq_some.mp waits).1
  have kept : ((joined.claimLease newcomer).move last newcomer .claimed).tasks[i]? = some a := by
    rw [move_ne (Nat.ne_of_lt inside), claimLease_tasks]
    exact (getElem?_append_left inside).trans first
  refine ⟨[.start ⟨"", 0⟩ 0 database none, .claim last .answered, .world last true],
    ((joined.claimLease newcomer).move last newcomer .claimed).move last
      { newcomer with phase := .claimed } (.running true), by simp, ?_, ?_⟩
  · have joins : fleet.step (.start ⟨"", 0⟩ 0 database none) = some joined := rfl
    simp only [exec_cons, joins, bind_some, taken, world_step entered rfl,
      exec_nil]
  · exact not_exclusive ((move_ne (Nat.ne_of_lt inside) _).trans kept)
      (move_self entered _) runs rfl (Nat.ne_of_lt inside)

theorem released_under (claimed : a.phase = .claimed) (releases : b.phase = .releasing)
    (database : b.database = a.database)
    (row : ∃ lease, fleet.leases.lookup a.database = some lease ∧ lease.holder = b.holder)
    (different : i ≠ j) :
    ∃ rest final, (∀ now, Label.tick now ∉ rest) ∧
      exec step fleet rest = some final ∧ ¬ Exclusive final := by
  obtain ⟨lease, found, holder⟩ := row
  have started := world_step first claimed
  have there : (fleet.move i a (.running true)).tasks[j]? = some b := by
    rw [move_ne (Ne.symm different), second]
  have released : (fleet.move i a (.running true)).step (.release j true false) =
      some (((fleet.move i a (.running true)).releaseLease b).move j b .ended) := by
    simp only [step, taskIn_eq_some.mpr ⟨there, releases⟩, map_some, if_true,
      Bool.false_eq_true, if_false]
  have running : (((fleet.move i a (.running true)).releaseLease b).move j b .ended).tasks[i]? =
      some { a with phase := .running true } := by
    rw [move_ne different, releaseLease_tasks]
    exact move_self first _
  have absent : (((fleet.move i a (.running true)).releaseLease b).move j b .ended).leases.lookup
      a.database = none := by
    have gone : ((fleet.move i a (.running true)).releaseLease b).leases.lookup a.database = _ :=
      releaseLease_lookup a.database
    rw [if_pos database.symm,
      show (fleet.move i a (.running true)).leases.lookup a.database = some lease from found] at gone
    exact gone.trans (by simp [holder])
  obtain ⟨rest, final, still, reached, broken⟩ := newcomer_runs running rfl absent
  refine ⟨.world i true :: .release j true false :: rest, final, by simpa using still, ?_, broken⟩
  simp only [exec_cons, started, released, bind_some, reached]

end

theorem clash_breaks {next : Fleet} (taken : fleet.step label = some next)
    (clashing : ¬ Apart fleet label) :
    ∃ rest final, (∀ now, Label.tick now ∉ rest) ∧
      exec step next rest = some final ∧ ¬ Exclusive final := by
  cases label with
  | claim index outcome =>
    cases outcome with
    | failed => exact absurd trivial clashing
    | answered =>
      simp only [Apart, not_forall] at clashing
      obtain ⟨task, found, granted, other, member, clash⟩ := clashing
      rw [Bool.not_eq_false] at clash
      obtain ⟨present, claiming⟩ := taskIn_eq_some.mp found
      obtain ⟨position, there⟩ := getElem?_of_mem member
      have result : next = (fleet.claimLease task).move index task .claimed := by
        have found' : fleet.taskIn index .claiming = some task := found
        simp only [step, found', map_some, granted, if_true,
          some.injEq] at taken
        exact taken.symm
      subst result
      have different : index ≠ position := by
        rintro rfl
        rw [present, some.injEq] at there
        subst other
        simp [Task.clashes, Task.holds, claiming] at clash
      have entered : ((fleet.claimLease task).move index task .claimed).tasks[index]? =
          some { task with phase := .claimed } := by
        apply move_self
        rw [claimLease_tasks, present]
      have beside : ((fleet.claimLease task).move index task .claimed).tasks[position]? =
          some other := by
        rw [move_ne (Ne.symm different), claimLease_tasks, there]
      simp only [Task.clashes, Bool.or_eq_true, Bool.and_eq_true, decide_eq_true_eq,
        beq_iff_eq] at clash
      rcases clash with ⟨holds, _⟩ | ⟨⟨releases, holder⟩, database⟩
      · exact both_run entered beside rfl holds different
      · refine released_under entered beside rfl releases database
          ⟨⟨task.holder, fleet.now + task.lease⟩, ?_, holder.symm⟩ different
        have row : (fleet.claimLease task).leases.lookup task.database = _ :=
          claimLease_lookup task.database
        rw [if_pos ⟨rfl, granted⟩] at row
        exact row
  | _ => exact absurd trivial clashing

/-- While every holder renews in time: in every run in which no claim is
granted beside a task it clashes with, at most one world of the service runs;
and a claim that is granted beside one can be followed by a second world,
before the clock moves. -/
theorem exclusive_services (labels : List Label) :
    (Transition.Meets Fleet.step (fun fleet label => Timely fleet label ∧ Apart fleet label)
        Fleet.new labels → Transition.Along Fleet.step Exclusive Fleet.new labels) ∧
    ∀ fleet label next, Transition.exec Fleet.step Fleet.new labels = some fleet →
      fleet.step label = some next → ¬ Apart fleet label →
        ∃ rest final, (∀ now, Label.tick now ∉ rest) ∧
          Transition.exec Fleet.step next rest = some final ∧ ¬ Exclusive final := by
  constructor
  · intro meets
    exact along_imp (fun _ guarded => guarded.exclusive)
      (along_of_meets step_guarded new_guarded meets)
  · intro fleet label next _ taken clashing
    exact clash_breaks taken clashing

def twoProcesses : List Label :=
  [.start ⟨"a", 1⟩ 1 "db" none, .start ⟨"b", 1⟩ 1 "db" none,
   .claim 0 .answered, .claim 1 .answered, .world 0 true, .tick 20000, .renew 0 .answered,
   .tick 40000, .claim 1 .answered, .finish 0 false, .release 0 true false,
   .claim 1 .answered, .world 1 true]

def swapInOneProcess : List Label :=
  [.start ⟨"a", 1⟩ 1 "db" none, .claim 0 .answered, .world 0 true,
   .start ⟨"a", 1⟩ 2 "db" none]

theorem exclusive_services_takeover :
    Transition.Along Fleet.step Exclusive Fleet.new twoProcesses ∧
    ∃ fleet next, Transition.exec Fleet.step Fleet.new swapInOneProcess = some fleet ∧
      fleet.step (.claim 1 .answered) = some next ∧
      ∃ rest final, (∀ now, Label.tick now ∉ rest) ∧
        Transition.exec Fleet.step next rest = some final ∧ ¬ Exclusive final := by
  constructor
  · exact (exclusive_services twoProcesses).1 (by decide)
  · have clash : ∃ fleet next, exec step new swapInOneProcess = some fleet ∧
        fleet.step (.claim 1 .answered) = some next ∧ ¬ Apart fleet (.claim 1 .answered) := by
      refine ⟨_, _, rfl, rfl, ?_⟩
      decide
    obtain ⟨fleet, next, reached, taken, clashing⟩ := clash
    exact ⟨fleet, next, reached, taken,
      (exclusive_services swapInOneProcess).2 fleet _ next reached taken clashing⟩

/-- The second revision's claim finds the row its own, and both worlds run; the
first one's release then deletes the row, and a world of another process runs
beside the second. -/
theorem two_worlds_in_one_process :
    (∃ fleet, Transition.exec Fleet.step Fleet.new
        (swapInOneProcess ++ [.claim 1 .answered, .world 1 true]) = some fleet ∧
      fleet.tasks.map Task.phase = [.running true, .running true] ∧ ¬ Exclusive fleet) ∧
    ∃ fleet, Transition.exec Fleet.step Fleet.new
        (swapInOneProcess ++ [.claim 1 .answered, .world 1 true, .stop 0, .finish 0 false,
          .release 0 true false, .start ⟨"b", 1⟩ 1 "db" none, .claim 2 .answered,
          .world 2 true]) = some fleet ∧
      fleet.tasks.map Task.phase = [.ended, .running true, .running true] ∧
      ¬ Exclusive fleet := by
  constructor
  · refine ⟨_, rfl, rfl, ?_⟩
    exact not_exclusive (i := 0) (j := 1) rfl rfl rfl rfl (by decide)
  · refine ⟨_, rfl, rfl, ?_⟩
    exact not_exclusive (i := 1) (j := 2) rfl rfl rfl rfl (by decide)

end Usai.Services
