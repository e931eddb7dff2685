import Usai.Slots
import Usai.Tally
import Usai.Tasks.Queue

/-! What the counters of the task queue say of its dispatches. Each counter is
the total of the shares of the dispatches in it, in every run; whether a
dispatch has exactly one share is a question of the stages it passes. -/

namespace Usai.Admission.Accounts

open Revisions (RevisionId)

variable {runtime next : Accounts}

theorem retainForChild_children {id : RevisionId}
    (retained : runtime.retainForChild id = some next) : next.children = id :: runtime.children := by
  obtain ⟨_, _, same⟩ := Option.bind_eq_some_iff.mp retained
  cases same
  rfl

theorem releaseChild_children (released : runtime.releaseChild position = some next) :
    ∃ id, runtime.children[position]? = some id ∧
      next.children = runtime.children.eraseIdx position := by
  obtain ⟨id, found, rest⟩ := Option.bind_eq_some_iff.mp released
  obtain ⟨_, _, same⟩ := Option.bind_eq_some_iff.mp rest
  cases same
  exact ⟨id, found, rfl⟩

theorem releaseChild_count {id : RevisionId}
    (released : runtime.releaseChild (runtime.children.idxOf id) = some next) (other : RevisionId) :
    runtime.children.count other = next.children.count other + (decide (id = other)).toNat := by
  obtain ⟨_, found, same⟩ := releaseChild_children released
  obtain ⟨_, here⟩ := getElem?_eq_some_iff.mp found
  subst here
  rw [same, ← (Tally.eraseIdx_perm found).count_eq other, List.count_cons]
  by_cases equal : id = other <;> simp [equal]

theorem admitWhen_children (accepts : Usai.Revisions.RevisionState → Bool) (reason : String)
    (runtime : Accounts) (id : RevisionId) (account : Account) (workload : String) :
    (admitWhen accepts reason runtime id account workload).1.children = runtime.children := by
  unfold admitWhen
  split
  · split
    · unfold acquire
      split
      · rfl
      · split
        · rfl
        · split <;> rfl
    · rfl
  · rfl

theorem dropAdmission_children
    (dropped : runtime.dropAdmission position = some next) : next.children = runtime.children := by
  obtain ⟨_, _, rest⟩ := Option.bind_eq_some_iff.mp dropped
  obtain ⟨_, _, same⟩ := Option.bind_eq_some_iff.mp rest
  cases same
  rfl

end Usai.Admission.Accounts

namespace Usai.Tasks

open List Option Slots Tally Transition
open Admission (Accounts Account)
open Revisions (RevisionId)

inductive Gauge where
  | queued
  | running
  | completed
  | failed
  | lost
  deriving DecidableEq, Repr

def Stage.received : Stage → Bool
  | .waiting | .lost => false
  | .held | .dropped | .spawned | .running | .completed | .failed => true

def Stage.retains : Stage → Bool
  | .waiting | .held | .dropped | .spawned | .lost => true
  | .running | .completed | .failed => false

namespace Dispatched

def share (dispatched : Dispatched) : Gauge → Int
  | .queued => dispatched.accepted.toNat - dispatched.stage.received.toNat
  | .running => dispatched.stage.live.toNat
  | .completed => (decide (dispatched.stage = .completed)).toNat
  | .failed => (decide (dispatched.stage = .failed)).toNat
  | .lost => (decide (dispatched.stage = .lost)).toNat

def Once (dispatched : Dispatched) : Prop :=
  ∃ gauge, dispatched.share gauge = 1 ∧ ∀ other, other ≠ gauge → dispatched.share other = 0

def childShare (id : RevisionId) (dispatched : Dispatched) : Int :=
  (decide (dispatched.revision = id ∧ dispatched.stage.retains = true)).toNat

end Dispatched

namespace TaskQueue

def value (queue : TaskQueue) : Gauge → Int
  | .queued => queue.queued
  | .running => queue.budget.max - queue.budget.available
  | .completed => queue.completed
  | .failed => queue.failed
  | .lost => queue.lost

def total (queue : TaskQueue) (share : Dispatched → Int) : Int := (queue.dispatches.map share).sum

structure Tallied (queue : TaskQueue) : Prop where
  value : ∀ gauge, queue.value gauge = queue.total (fun dispatched => dispatched.share gauge)
  children : ∀ id, (queue.runtime.children.count id : Int) = queue.total (Dispatched.childShare id)
  channel : ∀ index dispatched, queue.dispatches[index]? = some dispatched →
    (index ∈ queue.channel ↔ dispatched.stage = .waiting)
  distinct : queue.channel.Nodup
  inside : ∀ index ∈ queue.channel, index < queue.dispatches.length
  held : ∀ index, queue.worker = .acquiring index →
    ∃ dispatched, queue.dispatches[index]? = some dispatched ∧ dispatched.stage = .held

variable {queue next : TaskQueue} {index : Nat} {dispatched : Dispatched}

theorem start_tallied (maxWorlds appConcurrency capacity concurrency : Nat) :
    Tallied (start maxWorlds appConcurrency capacity concurrency) where
  value := by
    intro gauge
    cases gauge with
    | running => exact Int.sub_self _
    | queued | completed | failed | lost => rfl
  children := fun _ => rfl
  channel := by intro index dispatched found; cases found
  distinct := nodup_nil
  inside := by intro index member; cases member
  held := by intro index acquiring; cases acquiring

structure Replaced (queue next : TaskQueue) (index : Nat) (dispatched after : Dispatched) :
    Prop where
  found : queue.dispatches[index]? = some dispatched
  dispatches : next.dispatches = queue.dispatches.set index after
  value : ∀ gauge, next.value gauge =
    queue.value gauge - dispatched.share gauge + after.share gauge
  children : ∀ id, (next.runtime.children.count id : Int) =
    queue.runtime.children.count id - dispatched.childShare id + after.childShare id

variable {after : Dispatched} {result : Execution}

attribute [local simp] value setStage Dispatched.share Stage.received Stage.live
  Dispatched.childShare Stage.retains Usai.Admission.Budget.acquired Usai.Admission.Budget.free

theorem kept_children (before : dispatched.stage.retains = true)
    (after : stage.retains = true) (id : RevisionId) :
    (queue.runtime.children.count id : Int) = queue.runtime.children.count id -
      dispatched.childShare id + ({ dispatched with stage := stage } : Dispatched).childShare id := by
  simp only [Dispatched.childShare, before, after]
  omega

theorem receive_cases (taken : queue.receive = some next) :
    ∃ index rest dispatched, queue.channel = index :: rest ∧
      queue.dispatches[index]? = some dispatched ∧
      ((queue.runtimeGone = true ∧
          next = { queue.setStage index dispatched .dropped with
            channel := rest, queued := queue.queued - 1, worker := .draining }) ∨
        (queue.budget.available = 0 ∧
          next = { queue.setStage index dispatched .held with
            channel := rest, queued := queue.queued - 1, worker := .acquiring index }) ∨
        (queue.budget.available ≠ 0 ∧
          next = { queue.spawn index dispatched with
            channel := rest, queued := queue.queued - 1 })) := by
  unfold receive at taken
  split at taken
  · next index rest receiving head =>
    obtain ⟨dispatched, found, same⟩ := bind_eq_some_iff.mp taken
    refine ⟨index, rest, dispatched, head, found, ?_⟩
    split at same
    · next gone => exact .inl ⟨gone, (some.inj same).symm⟩
    · split at same
      · next full => exact .inr (.inl ⟨full, (some.inj same).symm⟩)
      · next free => exact .inr (.inr ⟨free, (some.inj same).symm⟩)
  · cases taken

theorem admission_cases (taken : queue.admission index dispatched = some next) :
    dispatched.stage = .spawned ∧ ∃ released : Accounts,
      (∀ id, queue.runtime.children.count id =
        released.children.count id + (decide (dispatched.revision = id)).toNat) ∧
      (next = { queue.setStage index dispatched .running with runtime := released } ∨
        next = { queue.setStage index dispatched .failed with
          runtime := released
          failed := queue.failed + 1
          budget := queue.budget.free }) := by
  obtain ⟨spawned, rest⟩ := ite_none_right_eq_some.mp taken
  obtain ⟨_, _, asks⟩ := bind_eq_some_iff.mp rest
  obtain ⟨released, releases, same⟩ := bind_eq_some_iff.mp asks
  refine ⟨spawned, released, ?_, ?_⟩
  · intro id
    rw [← Accounts.releaseChild_count releases id]
    exact congrArg (List.count id) (Accounts.admitWhen_children _ _ _ _ _ _).symm
  · split at same
    · exact .inl (some.inj same).symm
    · exact .inr (some.inj same).symm

theorem finish_cases (taken : queue.finish index dispatched result = some next) :
    dispatched.stage = .running ∧
      (next = { queue.setStage index dispatched .completed with
          completed := queue.completed + 1
          budget := queue.budget.free } ∨
        next = { queue.setStage index dispatched .failed with
          failed := queue.failed + 1
          budget := queue.budget.free }) := by
  obtain ⟨running, same⟩ := ite_none_right_eq_some.mp taken
  refine ⟨running, ?_⟩
  split at same
  · exact .inl (some.inj same).symm
  · exact .inr (some.inj same).symm

theorem runtime_cases (taken : queue.step (.runtime label) = some next) :
    ∃ runtime, runtime.children = queue.runtime.children ∧ next = { queue with runtime := runtime } := by
  cases label with
  | install definition =>
    cases taken
    exact ⟨queue.runtime.install definition, rfl, rfl⟩
  | setState id state =>
    obtain ⟨runtime, steps, rfl⟩ := map_eq_some_iff.mp taken
    obtain ⟨account, _, rfl⟩ := map_eq_some_iff.mp steps
    exact ⟨queue.runtime.update id { account with state := state }, rfl, rfl⟩
  | enter entry _ _ =>
    obtain ⟨runtime, steps, rfl⟩ := map_eq_some_iff.mp taken
    obtain ⟨_, _, rfl⟩ := map_eq_some_iff.mp steps
    refine ⟨_, ?_, rfl⟩
    cases entry <;> exact Accounts.admitWhen_children _ _ _ _ _ _
  | drop =>
    obtain ⟨_, steps, rfl⟩ := map_eq_some_iff.mp taken
    exact ⟨_, Accounts.dropAdmission_children steps, rfl⟩
  | retain | release => cases taken

variable (tallied : Tallied queue)
include tallied

theorem Tallied.moved (replaced : Replaced queue next index dispatched after)
    (channel : ∀ other, other ∈ next.channel ↔
      other ∈ queue.channel ∧ (other = index → after.stage = .waiting))
    (waits : after.stage = .waiting → dispatched.stage = .waiting)
    (distinct : next.channel.Nodup)
    (held : ∀ position, next.worker = .acquiring position →
      (position = index ∧ after.stage = .held) ∨
        (position ≠ index ∧ queue.worker = .acquiring position)) : Tallied next where
  value := by
    intro gauge
    rw [replaced.value, tallied.value, total, total, replaced.dispatches,
      sum_map_set after (fun dispatched => dispatched.share gauge) replaced.found]
  children := by
    intro id
    rw [replaced.children, tallied.children, total, total, replaced.dispatches,
      sum_map_set after (Dispatched.childShare id) replaced.found]
  channel := by
    intro other entry there
    rw [replaced.dispatches] at there
    rw [channel]
    rcases of_getElem?_set there with ⟨rfl, rfl⟩ | ⟨different, before⟩
    · constructor
      · rintro ⟨_, stays⟩
        exact stays rfl
      · intro waiting
        exact ⟨(tallied.channel other dispatched replaced.found).mpr (waits waiting),
          fun _ => waiting⟩
    · rw [tallied.channel other entry before]
      exact ⟨fun both => both.1, fun waiting => ⟨waiting, fun same => absurd same different⟩⟩
  distinct := distinct
  inside := by
    intro other member
    rw [replaced.dispatches, length_set]
    exact tallied.inside other ((channel other).mp member).1
  held := by
    intro position acquiring
    rw [replaced.dispatches]
    rcases held position acquiring with ⟨rfl, stage⟩ | ⟨away, earlier⟩
    · have inside := (List.getElem?_eq_some_iff.mp replaced.found).1
      exact ⟨after, getElem?_set_self inside, stage⟩
    · rw [getElem?_set_ne (Ne.symm away)]
      exact tallied.held position earlier

theorem Tallied.advanced
    (replaced : Replaced queue next index dispatched after)
    (channel : next.channel = queue.channel)
    (waits : after.stage = .waiting ↔ dispatched.stage = .waiting)
    (worker : ∀ position, next.worker = .acquiring position → queue.worker = .acquiring position)
    (held : next.worker = .acquiring index → after.stage = .held) : Tallied next := by
  refine tallied.moved replaced ?_ waits.mp (channel ▸ tallied.distinct) ?_
  · intro other
    rw [channel]
    constructor
    · intro member
      refine ⟨member, ?_⟩
      rintro rfl
      exact waits.mpr ((tallied.channel other dispatched replaced.found).mp member)
    · exact fun both => both.1
  · intro position acquiring
    by_cases here : position = index
    · subst here
      exact .inl ⟨rfl, held acquiring⟩
    · exact .inr ⟨here, worker position acquiring⟩

theorem Tallied.popped
    (head : queue.channel = index :: rest) (replaced : Replaced queue next index dispatched after)
    (channel : next.channel = rest) (gone : after.stage ≠ .waiting)
    (held : ∀ position, next.worker = .acquiring position →
      position = index ∧ after.stage = .held) : Tallied next := by
  have distinct := tallied.distinct
  rw [head, nodup_cons] at distinct
  refine tallied.moved replaced ?_ (fun waiting => absurd waiting gone) (channel ▸ distinct.2)
    (fun position acquiring => .inl (held position acquiring))
  intro other
  rw [channel, head, mem_cons]
  constructor
  · intro member
    refine ⟨.inr member, ?_⟩
    rintro rfl
    exact absurd member distinct.1
  · rintro ⟨rfl | member, stays⟩
    · exact absurd (stays rfl) gone
    · exact member

theorem Tallied.same (dispatches : next.dispatches = queue.dispatches)
    (value : ∀ gauge, next.value gauge = queue.value gauge)
    (children : next.runtime.children = queue.runtime.children)
    (channel : next.channel = queue.channel)
    (worker : ∀ index, next.worker = .acquiring index → queue.worker = .acquiring index) :
    Tallied next where
  value := by
    intro gauge
    rw [value, tallied.value, total, total, dispatches]
  children := by
    intro id
    rw [children, tallied.children, total, total, dispatches]
  channel := by
    rw [dispatches, channel]
    exact tallied.channel
  distinct := channel ▸ tallied.distinct
  inside := by
    rw [dispatches, channel]
    exact tallied.inside
  held := by
    intro index acquiring
    rw [dispatches]
    exact tallied.held index (worker index acquiring)

theorem send_tallied {revision : RevisionId}
    (taken : queue.send revision workload = some next) : Tallied next := by
  obtain ⟨_, retains, rest⟩ := bind_eq_some_iff.mp taken
  have children := Accounts.retainForChild_children retains
  split at rest
  · obtain ⟨_, releases, same⟩ := bind_eq_some_iff.mp rest
    cases same
    obtain ⟨_, _, erased⟩ := Accounts.releaseChild_children releases
    rw [children] at erased
    exact tallied.same rfl (fun gauge => by cases gauge <;> rfl) erased rfl (fun _ same => same)
  · cases rest
    constructor
    case value =>
      intro gauge
      have before := tallied.value gauge
      rw [total] at before
      rw [total, sum_map_append_one, ← before]
      cases gauge <;> exact (Int.add_zero _).symm
    case children =>
      intro id
      have before := tallied.children id
      rw [total] at before
      rw [total, sum_map_append_one, ← before, children, count_cons]
      by_cases same : revision = id <;> simp [same]
    case channel =>
      intro index dispatched found
      rw [mem_append, mem_singleton]
      rcases of_getElem?_append found with before | ⟨rfl, rfl⟩
      · have inside := (List.getElem?_eq_some_iff.mp before).1
        rw [tallied.channel index dispatched before]
        exact or_iff_left (Nat.ne_of_lt inside)
      · exact iff_of_true (.inr rfl) rfl
    case distinct =>
      refine nodup_append.mpr ⟨tallied.distinct, nodup_singleton _, ?_⟩
      intro index member other last
      rw [mem_singleton.mp last]
      exact Nat.ne_of_lt (tallied.inside index member)
    case inside =>
      intro index member
      rw [length_append, length_singleton]
      rcases mem_append.mp member with before | last
      · exact Nat.lt_succ_of_lt (tallied.inside index before)
      · rw [mem_singleton.mp last]
        exact Nat.lt_succ_self _
    case held =>
      intro index acquiring
      obtain ⟨dispatched, found, stage⟩ := tallied.held index acquiring
      refine ⟨dispatched, ?_, stage⟩
      rw [List.getElem?_append_left (List.getElem?_eq_some_iff.mp found).1]
      exact found

theorem receive_tallied (taken : queue.receive = some next) :
    Tallied next := by
  obtain ⟨index, _, dispatched, head, found, outcome⟩ := receive_cases taken
  have waiting : dispatched.stage = .waiting :=
    (tallied.channel index dispatched found).mp (by rw [head]; exact mem_cons_self)
  have retains : dispatched.stage.retains = true := by rw [waiting]; rfl
  rcases outcome with ⟨_, rfl⟩ | ⟨_, rfl⟩ | ⟨_, rfl⟩
  · refine tallied.popped head ⟨found, rfl, ?_, kept_children retains rfl⟩ rfl (by nofun) (by nofun)
    intro gauge
    cases gauge <;> simp [waiting]
  · refine tallied.popped head ⟨found, rfl, ?_, kept_children retains rfl⟩ rfl (by nofun) ?_
    · intro gauge
      cases gauge <;> simp [waiting]
    · intro position acquiring
      cases acquiring
      exact ⟨rfl, rfl⟩
  · refine tallied.popped head ⟨found, rfl, ?_, kept_children retains rfl⟩ rfl (by nofun) (by nofun)
    intro gauge
    cases gauge <;> simp [spawn, waiting]
    omega

theorem acquire_tallied (taken : queue.acquire = some next) :
    Tallied next := by
  unfold acquire at taken
  split at taken
  · next index acquiring =>
    obtain ⟨dispatched, found, rest⟩ := bind_eq_some_iff.mp taken
    obtain ⟨_, same⟩ := ite_none_left_eq_some.mp rest
    cases same
    obtain ⟨held, there, stage⟩ := tallied.held index acquiring
    cases found.symm.trans there
    have retains : dispatched.stage.retains = true := by rw [stage]; rfl
    refine tallied.advanced ⟨found, rfl, ?_, kept_children retains rfl⟩ rfl ?_ (by nofun)
      (by nofun)
    · intro gauge
      cases gauge <;> simp [spawn, stage]
      omega
    · rw [stage]
      exact iff_of_false (by nofun) (by nofun)
  · cases taken

theorem drain_tallied (taken : queue.drain = some next) :
    Tallied next := by
  unfold drain at taken
  split at taken
  · next index rest draining head =>
    obtain ⟨dispatched, found, same⟩ := bind_eq_some_iff.mp taken
    cases same
    have waiting : dispatched.stage = .waiting :=
      (tallied.channel index dispatched found).mp (by rw [head]; exact mem_cons_self)
    have retains : dispatched.stage.retains = true := by rw [waiting]; rfl
    refine tallied.popped head ⟨found, rfl, ?_, kept_children retains rfl⟩ rfl (by nofun) ?_
    · intro gauge
      cases gauge <;> simp [waiting]
    · intro position acquiring
      cases draining.symm.trans acquiring
  · cases taken
    exact tallied.same rfl (fun gauge => by cases gauge <;> rfl) rfl rfl (by nofun)
  · cases taken

theorem Tallied.task
    (replaced : Replaced queue next index dispatched after) (live : dispatched.stage.live = true)
    (channel : next.channel = queue.channel) (worker : next.worker = queue.worker)
    (left : after.stage ≠ .waiting) : Tallied next := by
  refine tallied.advanced replaced channel ?_ (fun _ acquiring => worker ▸ acquiring) ?_
  · refine iff_of_false left ?_
    intro waiting
    rw [waiting] at live
    cases live
  · intro acquiring
    rw [worker] at acquiring
    obtain ⟨held, there, stage⟩ := tallied.held index acquiring
    cases replaced.found.symm.trans there
    rw [stage] at live
    cases live

section

variable (found : queue.dispatches[index]? = some dispatched)
include found

theorem count_tallied (taken : queue.count index dispatched = some next) : Tallied next := by
  obtain ⟨fresh, same⟩ := ite_none_left_eq_some.mp taken
  cases same
  refine tallied.advanced ⟨found, rfl, ?_, ?_⟩ rfl Iff.rfl (fun _ same => same) ?_
  · intro gauge
    cases gauge <;> simp only [value, Dispatched.share, fresh, Bool.toNat_true, Bool.toNat_false] <;>
      omega
  · simp only [Dispatched.childShare]
    omega
  · intro acquiring
    obtain ⟨held, there, stage⟩ := tallied.held index acquiring
    cases found.symm.trans there
    exact stage

theorem admission_tallied
    (taken : queue.admission index dispatched = some next) : Tallied next := by
  obtain ⟨spawned, _, count, rfl | rfl⟩ := admission_cases taken
  · refine tallied.task ⟨found, rfl, ?_, ?_⟩ (by rw [spawned]; rfl) rfl rfl (by nofun)
    · intro gauge
      cases gauge <;> simp [spawned]
    · intro id
      simp [spawned, count id]
  · refine tallied.task ⟨found, rfl, ?_, ?_⟩ (by rw [spawned]; rfl) rfl rfl (by nofun)
    · intro gauge
      cases gauge <;> simp [spawned]
      omega
    · intro id
      simp [spawned, count id]

theorem finish_tallied
    (taken : queue.finish index dispatched result = some next) : Tallied next := by
  obtain ⟨running, ended⟩ := finish_cases taken
  rcases ended with rfl | rfl
  all_goals
    refine tallied.task ⟨found, rfl, ?_, ?_⟩ (by rw [running]; rfl) rfl rfl (by nofun)
    · intro gauge
      cases gauge <;> simp [running]
      omega
    · simp [running]

end

theorem step_tallied (taken : queue.step label = some next) : Tallied next := by
  cases label with
  | send => exact send_tallied tallied taken
  | count =>
    obtain ⟨dispatched, found, counts⟩ := bind_eq_some_iff.mp taken
    exact count_tallied tallied found counts
  | receive => exact receive_tallied tallied taken
  | acquire => exact acquire_tallied tallied taken
  | leave | close =>
    obtain ⟨_, rfl⟩ := ite_some_none_eq_some.mp taken
    exact tallied.same rfl (fun gauge => by cases gauge <;> rfl) rfl rfl (by nofun)
  | drain => exact drain_tallied tallied taken
  | admission =>
    obtain ⟨dispatched, found, admits⟩ := bind_eq_some_iff.mp taken
    exact admission_tallied tallied found admits
  | finish =>
    obtain ⟨_, found, finishes⟩ := bind_eq_some_iff.mp taken
    exact finish_tallied tallied found finishes
  | shutdown =>
    cases taken
    exact tallied.same rfl (fun gauge => by cases gauge <;> rfl) rfl rfl (fun _ same => same)
  | runtimeGone =>
    obtain ⟨_, same⟩ := ite_none_left_eq_some.mp taken
    cases same
    exact tallied.same rfl (fun gauge => by cases gauge <;> rfl) rfl rfl (fun _ same => same)
  | runtime =>
    obtain ⟨_, children, rfl⟩ := runtime_cases taken
    exact tallied.same rfl (fun gauge => by cases gauge <;> rfl) children rfl (fun _ same => same)

end TaskQueue

end Usai.Tasks
