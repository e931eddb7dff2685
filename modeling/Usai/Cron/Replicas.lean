import Usai.Cron.Scheduler
import Usai.Slots
import Usai.Tally

/-! The overlap of the invocations of one loop, and the ticks of an exclusive schedule
among all replicas. -/

namespace Usai.Cron

open List Option Slots Tally Transition

variable {result : Loop × Ticks} {cluster : Cluster} {act : Act} {label : ClusterLabel}

section

/-- With overlap `skip`: an invocation that has not cleared the flag finds it set,
and none is there while a claim is made. -/
structure Loop.Lone (loop : Loop) : Prop where
  single : loop.live + loop.ended ≤ 1
  flagged : loop.live + loop.ended ≠ 0 → loop.running = true
  unstarted : ∀ next stage, loop.position = .claiming next stage → loop.live + loop.ended = 0

theorem new_lone (name : String) (job : Job) : (Loop.new name job).Lone := by
  refine ⟨Nat.zero_le 1, ?_, ?_⟩
  · intro busy
    exact absurd rfl busy
  · intro next stage claiming
    cases claiming

variable {loop after : Loop} {ticks later : Ticks}

theorem Loop.Lone.moved (lone : loop.Lone) (lives : after.live = loop.live)
    (ended : after.ended = loop.ended) (running : after.running = loop.running)
    (claims : ∀ next stage, after.position = .claiming next stage → loop.live + loop.ended = 0) :
    after.Lone := by
  refine ⟨?_, ?_, ?_⟩
  · rw [lives, ended]
    exact lone.single
  · rw [lives, ended, running]
    exact lone.flagged
  · rw [lives, ended]
    exact claims

theorem Loop.Lone.launch (lone : loop.Lone) (idle : loop.live + loop.ended = 0) (next : Int)
    (alive : Bool) : (loop.launch next alive).Lone := by
  unfold Loop.launch
  split
  · refine ⟨?_, fun _ => rfl, nofun⟩
    change loop.live + 1 + loop.ended ≤ 1
    omega
  · exact lone.moved rfl rfl rfl nofun

theorem Loop.Lone.fire (lone : loop.Lone) (skips : loop.job.overlap = .skip) (next : Int)
    (alive : Bool) : (loop.fire next alive).Lone := by
  unfold Loop.fire
  split
  · exact lone.moved rfl rfl rfl nofun
  · split
    · exact lone.moved rfl rfl rfl nofun
    · next unflagged =>
      have idle : loop.live + loop.ended = 0 := by
        by_contra busy
        exact unflagged ⟨skips, lone.flagged busy⟩
      split
      · exact lone.moved rfl rfl rfl (fun _ _ _ => idle)
      · apply Loop.Lone.launch
        · exact lone.moved rfl rfl rfl (fun _ _ _ => idle)
        · exact idle

theorem Loop.Lone.claimRow (lone : loop.Lone) (idle : loop.live + loop.ended = 0) (next : Int)
    (ticks : Ticks) : (loop.claimRow next ticks).1.Lone := by
  unfold Loop.claimRow
  split
  · exact lone.moved rfl rfl rfl nofun
  · exact lone.moved rfl rfl rfl (fun _ _ _ => idle)

theorem Loop.Lone.step (lone : loop.Lone)
    (skips : loop.job.overlap = .skip) (moved : Moved loop ticks act result) : result.1.Lone := by
  cases moved with
  | read | exhausted | wake | stop => exact lone.moved rfl rfl rfl nofun
  | early => exact lone
  | fire => exact lone.fire skips _ _
  | insert claims | again claims => exact lone.claimRow (lone.unstarted _ _ claims) _ _
  | missing claims | create claims | prune claims | insertFails claims | againFails claims
  | stillMissing claims => exact lone.moved rfl rfl rfl (fun _ _ _ => lone.unstarted _ _ claims)
  | launch granted => exact lone.launch (lone.unstarted _ _ granted) _ _
  | ends =>
    have single := lone.single
    refine ⟨?_, ?_, ?_⟩
    · change loop.live - 1 + (loop.ended + 1) ≤ 1
      omega
    · intro _
      exact lone.flagged (by omega)
    · intro next stage claims
      have idle := lone.unstarted next stage claims
      omega
  | clears =>
    have single := lone.single
    have none : loop.live + (loop.ended - 1) = 0 := by omega
    refine ⟨?_, ?_, fun _ _ _ => none⟩
    · change loop.live + (loop.ended - 1) ≤ 1
      omega
    · intro busy
      exact absurd none busy

end

section

def Loop.share (name : String) (time : Int) (loop : Loop) : Int :=
  if loop.job.exclusive = true ∧ loop.name = name then
    loop.started.count time + if loop.position.granted = some time then 1 else 0
  else 0

def Cluster.total (cluster : Cluster) (name : String) (time : Int) : Int :=
  (cluster.loops.map (Loop.share name time)).sum

/-- The condition on the statements of a claim: it is answered, the second time
without the error that there is no such table, and issued less than seven days
after the scheduled time. -/
def Act.Answered (loop : Loop) (ticks : Ticks) : Act → Prop
  | .insert now answer => answer = .answered ∧
      ∀ next ∈ loop.position.claimed, (ticks.at now).latest < next + retention
  | .again now answer => answer = .answered ∧ ticks.created = true ∧
      ∀ next ∈ loop.position.claimed, (ticks.at now).latest < next + retention
  | _ => True

instance (loop : Loop) (ticks : Ticks) (act : Act) : Decidable (act.Answered loop ticks) := by
  unfold Act.Answered
  split <;> infer_instance

def Cluster.Answered (cluster : Cluster) : ClusterLabel → Prop
  | .moves index act => ∀ loop ∈ cluster.loops[index]?, act.Answered loop cluster.ticks
  | .starts _ _ => True

instance (cluster : Cluster) (label : ClusterLabel) : Decidable (cluster.Answered label) := by
  unfold Cluster.Answered
  split <;> infer_instance

variable {loop after : Loop} {ticks later : Ticks}

/-- What a step does to the claims: it makes none, and forgets only rows that are
older than seven days, or it is granted the tick that no row was there for. -/
structure Spares (loop : Loop) (ticks : Ticks) (result : Loop × Ticks) : Prop where
  shares : ∀ name time, result.1.share name time ≤ loop.share name time
  rows : ∀ row ∈ ticks.rows, row ∈ result.2.rows ∨ row.2 + retention < result.2.latest
  later : ticks.latest ≤ result.2.latest

structure Grants (loop : Loop) (ticks : Ticks) (next : Int) (result : Loop × Ticks) : Prop where
  shares : ∀ name time, result.1.share name time ≤
    loop.share name time + if (loop.name, next) = (name, time) then 1 else 0
  fresh : (loop.name, next) ∉ ticks.rows
  rows : result.2.rows = (loop.name, next) :: ticks.rows
  later : ticks.latest ≤ result.2.latest
  soon : result.2.latest < next + retention

theorem share_le (same : after.name = loop.name)
    (job : after.job = loop.job) (started : after.started = loop.started)
    (granted : after.position.granted = some time → loop.position.granted = some time) :
    after.share name time ≤ loop.share name time := by
  unfold Loop.share
  rw [same, job, started]
  split
  · split
    · next holds =>
      exact Int.le_of_eq (by rw [if_pos (granted holds)])
    · split <;> omega
  · exact Int.le_refl 0

theorem share_nonneg (name : String) (time : Int) (loop : Loop) : 0 ≤ loop.share name time := by
  unfold Loop.share
  split
  · split <;> omega
  · exact Int.le_refl 0

theorem share_shared (name : String) (time : Int) (shared : loop.job.exclusive = false) :
    loop.share name time = 0 := by
  refine if_neg ?_
  intro both
  cases shared.symm.trans both.1

theorem fire_share (name : String) (time next : Int) (alive : Bool) :
    (loop.fire next alive).share name time ≤ loop.share name time := by
  unfold Loop.fire
  split
  · exact share_le rfl rfl rfl nofun
  · split
    · exact share_le rfl rfl rfl nofun
    · split
      · exact share_le rfl rfl rfl nofun
      · next shared =>
        have shared : loop.job.exclusive = false := Bool.not_eq_true _ ▸ shared
        rw [share_shared name time shared]
        refine Int.le_of_eq (share_shared name time ?_)
        rw [launch_job]
        exact shared

theorem launch_share (name : String) (time : Int) {next : Int} (alive : Bool)
    (granted : loop.position = .claiming next .granted) :
    (loop.launch next alive).share name time ≤ loop.share name time := by
  unfold Loop.launch
  split
  · simp only [Loop.share, granted, Position.granted, count_cons, some.injEq,
      beq_iff_eq]
    split
    · split <;> simp
    · exact Int.le_refl 0
  · exact share_le rfl rfl rfl nofun

theorem latest_at (ticks : Ticks) (now : Int) : ticks.latest ≤ (ticks.at now).latest :=
  Int.le_max_left _ _

theorem claimRow_grants {next now : Int} (soon : (ticks.at now).latest < next + retention) :
    Spares loop ticks (loop.claimRow next (ticks.at now)) ∨
      Grants loop ticks next (loop.claimRow next (ticks.at now)) := by
  unfold Loop.claimRow
  split
  · left
    refine ⟨?_, fun row member => .inl member, latest_at ticks now⟩
    intro name time
    exact share_le rfl rfl rfl nofun
  · next fresh =>
    right
    refine ⟨?_, fresh, rfl, latest_at ticks now, soon⟩
    intro name time
    have held : (Position.claiming next .prune).granted = some next := rfl
    simp only [Loop.share, held, some.injEq, Prod.mk.injEq]
    by_cases named : loop.job.exclusive = true ∧ loop.name = name
    · by_cases same : next = time
      · have both : loop.name = name ∧ next = time := ⟨named.2, same⟩
        split <;> omega
      · split <;> split <;> omega
    · rw [if_neg named, if_neg named]
      split <;> omega

theorem spares_of_moved (ungranted : position.granted = none)
    (ticks : Ticks) (now : Int) : Spares loop ticks ({ loop with position := position }, ticks.at now) := by
  refine ⟨?_, fun row member => .inl member, latest_at ticks now⟩
  intro name time
  refine share_le rfl rfl rfl ?_
  intro granted
  cases ungranted.symm.trans granted

theorem moved_claims (moved : Moved loop ticks act result) (answered : act.Answered loop ticks) :
    Spares loop ticks result ∨ ∃ next, Grants loop ticks next result := by
  have kept (row : String × Int) (member : row ∈ ticks.rows) :
      row ∈ ticks.rows ∨ row.2 + retention < ticks.latest := .inl member
  have still : ticks.latest ≤ ticks.latest := Int.le_refl _
  cases moved with
  | read | exhausted | wake | stop =>
    exact .inl ⟨fun _ _ => share_le rfl rfl rfl nofun, kept, still⟩
  | early | ends | clears => exact .inl ⟨fun _ _ => share_le rfl rfl rfl id, kept, still⟩
  | fire => exact .inl ⟨fun name time => fire_share name time _ _, kept, still⟩
  | launch granted => exact .inl ⟨fun name time => launch_share name time _ granted, kept, still⟩
  | insert claims =>
    exact (claimRow_grants (answered.2 _ (claims ▸ rfl))).imp_right (fun granted => ⟨_, granted⟩)
  | again claims =>
    exact (claimRow_grants (answered.2.2 _ (claims ▸ rfl))).imp_right (fun granted => ⟨_, granted⟩)
  | missing => exact .inl (spares_of_moved rfl _ _)
  | create =>
    left
    refine ⟨?_, fun row member => .inl member, latest_at ticks _⟩
    intro name time
    exact share_le rfl rfl rfl nofun
  | insertFails => cases answered.1
  | againFails => cases answered.1
  | stillMissing _ uncreated => cases uncreated.symm.trans answered.2.1
  | prune claims =>
    left
    refine ⟨?_, ?_, latest_at ticks _⟩
    · intro name time
      refine share_le rfl rfl rfl ?_
      rw [claims]
      exact id
    · intro row member
      dsimp only
      split
      · next now _ _ _ =>
        by_cases old : row.1 = loop.name ∧ row.2 < now - retention
        · have shown : now ≤ (ticks.at now).latest := Int.le_max_right _ _
          exact .inr (by omega)
        · exact .inl (mem_filter.mpr ⟨member, by simp [old]⟩)
      · exact .inl member

/-- Every tick that is run, or about to be, has its row, until it is seven days
old; and no tick twice. -/
def Cluster.Claimed (cluster : Cluster) : Prop :=
  ∀ name time, cluster.total name time ≤ 1 ∧ (0 < cluster.total name time →
    (name, time) ∈ cluster.ticks.rows ∨ time + retention < cluster.ticks.latest)

theorem new_claimed (ticks : Ticks) : (Cluster.new ticks).Claimed := by
  intro name time
  have none : (Cluster.new ticks).total name time = 0 := rfl
  rw [none]
  exact ⟨by decide, fun held => absurd held (Int.lt_irrefl 0)⟩

theorem step_claimed {next : Cluster} (claimed : cluster.Claimed)
    (answered : cluster.Answered label) (taken : cluster.step label = some next) :
    next.Claimed := by
  cases label with
  | starts name job =>
    cases taken
    intro other time
    have same : Cluster.total { cluster with loops := cluster.loops ++ [.new name job] } other time =
        cluster.total other time := by
      have none : (Loop.new name job).share other time = 0 := by
        unfold Loop.share
        split <;> rfl
      rw [Cluster.total, sum_map_append_one, none, Int.add_zero]
      rfl
    rw [same]
    exact claimed other time
  | moves index _ =>
    obtain ⟨loop, found, taken⟩ := bind_eq_some_iff.mp taken
    obtain ⟨⟨after, ticks⟩, stepped, same⟩ := bind_eq_some_iff.mp taken
    cases same
    have moved := moved_claims (moved_of_step stepped) (answered loop found)
    intro name time
    obtain ⟨_, row⟩ := claimed name time
    have before : 0 ≤ cluster.total name time :=
      sum_map_nonneg (fun loop _ => share_nonneg name time loop)
    have change : Cluster.total ⟨cluster.loops.set index after, ticks⟩ name time =
        cluster.total name time - loop.share name time + after.share name time :=
      sum_map_set after (Loop.share name time) found
    rcases moved with spares | ⟨next, grants⟩
    · have shares : after.share name time ≤ loop.share name time := spares.shares name time
      refine ⟨by omega, ?_⟩
      intro held
      rcases row (by omega) with present | old
      · exact spares.rows _ present
      · exact .inr (Int.lt_of_lt_of_le old spares.later)
    · have shares : after.share name time ≤ loop.share name time +
          if (loop.name, next) = (name, time) then 1 else 0 := grants.shares name time
      have rows := grants.rows
      by_cases same : (loop.name, next) = (name, time)
      · -- the row was not there, and is not so old that it was pruned
        have none : cluster.total name time = 0 := by
          by_contra some
          rcases row (by omega) with present | old
          · exact grants.fresh (same ▸ present)
          · have soon := grants.soon
            have later := grants.later
            cases same
            omega
        refine ⟨by omega, fun _ => .inl ?_⟩
        rw [rows, same]
        exact mem_cons_self
      · rw [if_neg same] at shares
        refine ⟨by omega, ?_⟩
        intro held
        rcases row (by omega) with present | old
        · rw [rows]
          exact .inl (mem_cons_of_mem _ present)
        · exact .inr (Int.lt_of_lt_of_le old grants.later)

end

namespace Cluster

def Alone (cluster : Cluster) : Prop :=
  ∀ loop ∈ cluster.loops, loop.job.overlap = .skip → loop.live ≤ 1

def Once (cluster : Cluster) : Prop :=
  ∀ name time, (cluster.loops.map (fun loop =>
    if loop.job.exclusive = true ∧ loop.name = name then (loop.started.count time : Int)
    else 0)).sum ≤ 1

theorem once_of_claimed (claimed : cluster.Claimed) : cluster.Once := by
  intro name time
  have run (loop : Loop) : (if loop.job.exclusive = true ∧ loop.name = name then
      (loop.started.count time : Int) else 0) ≤ loop.share name time := by
    unfold Loop.share
    split
    · split <;> omega
    · exact Int.le_refl 0
  exact (sum_le_sum (fun loop _ => run loop)).trans (claimed name time).1

theorem step_lone {next : Cluster}
    (lone : ∀ loop ∈ cluster.loops, loop.job.overlap = .skip → loop.Lone)
    (taken : cluster.step label = some next) :
    ∀ loop ∈ next.loops, loop.job.overlap = .skip → loop.Lone := by
  cases label with
  | starts name job =>
    cases taken
    exact forall_append lone (fun _ => new_lone name job)
  | moves =>
    obtain ⟨loop, found, taken⟩ := bind_eq_some_iff.mp taken
    obtain ⟨⟨_, _⟩, stepped, same⟩ := bind_eq_some_iff.mp taken
    cases same
    have moved := moved_of_step stepped
    refine forall_set lone ?_
    intro skips
    have before : loop.job.overlap = .skip := moved_job moved ▸ skips
    exact (lone loop (mem_of_getElem? found) before).step before moved

end Cluster

/-- A loop with overlap `skip` never has two invocations running, whatever its
ticks and however long they take; and if every claim is answered and issued in
time, no tick of an exclusive schedule is run twice, by any number of replicas,
whether or not the table was there. -/
theorem schedules_run_alone (ticks : Ticks) (labels : List ClusterLabel) :
    Along Cluster.step Cluster.Alone (.new ticks) labels ∧
    (Meets Cluster.step Cluster.Answered (.new ticks) labels →
      Along Cluster.step Cluster.Once (.new ticks) labels) := by
  constructor
  · have lone : Along Cluster.step (fun cluster => ∀ loop ∈ cluster.loops,
        loop.job.overlap = .skip → loop.Lone) (.new ticks) labels :=
      along_of_meets (fun _ _ _ lone _ taken => Cluster.step_lone lone taken)
        (by intro loop member; cases member) (meets_true _ _)
    refine along_imp ?_ lone
    intro cluster lone loop member skips
    have single := (lone loop member skips).single
    omega
  · intro answered
    have claimed : Along Cluster.step Cluster.Claimed (.new ticks) labels :=
      along_of_meets (fun _ _ _ claimed answered taken => step_claimed claimed answered taken)
        (new_claimed ticks) answered
    exact along_imp (fun _ => Cluster.once_of_claimed) claimed

def nightly : Job := ⟨everyMinute, .skip, true⟩

def twoReplicas : List ClusterLabel :=
  [.starts "report" nightly, .starts "report" nightly] ++
  ([0, 1].flatMap (fun index => [Act.read 590000000000, .wake 600000000000, .fire true,
    .insert 600000000000 .answered].map (ClusterLabel.moves index))) ++
  [.moves 0 (.create 600000000000 true), .moves 1 (.create 600000000000 false),
    .moves 1 (.again 600000000000 .answered), .moves 0 (.again 600000000000 .answered),
    .moves 1 (.prune 600000000000 true), .moves 1 (.launch true), .moves 1 .ends, .moves 1 .clears]

theorem schedules_run_alone_first_claims :
    Meets Cluster.step Cluster.Answered (.new ⟨false, [], 0⟩) twoReplicas ∧
    Along Cluster.step Cluster.Once (.new ⟨false, [], 0⟩) twoReplicas ∧
    (exec Cluster.step (.new ⟨false, [], 0⟩) twoReplicas).map
      (fun cluster => cluster.loops.map Loop.started) = some [[], [600000000000]] :=
  ⟨by decide, (schedules_run_alone ⟨false, [], 0⟩ twoReplicas).2 (by decide), by decide⟩

end Usai.Cron
