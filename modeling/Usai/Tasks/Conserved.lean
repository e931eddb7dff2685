import Usai.Tasks.Accounting

/-! When the counters of the task queue account for every dispatch. They do as
long as the worker takes a dispatch only after it was counted and with a permit
at hand, and leaves an empty channel behind. -/

namespace Usai.Tasks

open List Option Slots Tally Transition
open Revisions (RevisionId)

namespace TaskQueue

/-- The worker receives a dispatch when `queued` has counted one, the runtime is
there and a permit is free; it leaves when nothing waits; and nothing is sent
while it drains or closes the channel. -/
def Prompt (queue : TaskQueue) : Label → Prop
  | .receive => 1 ≤ queue.queued ∧ queue.runtimeGone = false ∧ queue.budget.available ≠ 0
  | .leave => queue.channel = []
  | .send _ _ => queue.worker ≠ .draining ∧ queue.worker ≠ .closing
  | _ => True

instance (queue : TaskQueue) (label : Label) : Decidable (Prompt queue label) := by
  unfold Prompt
  split <;> infer_instance

def Regular : Stage → Prop
  | .held | .dropped | .lost => False
  | .waiting | .spawned | .running | .completed | .failed => True

structure Calm (queue : TaskQueue) : Prop where
  queued : 0 ≤ queue.queued
  regular : ∀ dispatched ∈ queue.dispatches, Regular dispatched.stage
  worker : ∀ index, queue.worker ≠ .acquiring index
  emptied : queue.worker ≠ .receiving → queue.channel = []

variable {queue next : TaskQueue} {index : Nat} {dispatched : Dispatched}

theorem start_calm (maxWorlds appConcurrency capacity concurrency : Nat) :
    Calm (start maxWorlds appConcurrency capacity concurrency) where
  queued := Int.le_refl 0
  regular := by intro dispatched member; cases member
  worker := by nofun
  emptied := fun away => absurd rfl away

theorem Calm.moved (calm : Calm queue) {after : Dispatched}
    (dispatches : next.dispatches = queue.dispatches.set index after)
    (regular : Regular after.stage) (queued : 0 ≤ next.queued)
    (worker : next.worker = queue.worker) (channel : next.channel = queue.channel) : Calm next where
  queued := queued
  regular := by
    rw [dispatches]
    exact forall_set calm.regular regular
  worker := by
    rw [worker]
    exact calm.worker
  emptied := by
    rw [worker, channel]
    exact calm.emptied

theorem send_calm (calm : Calm queue) {revision : RevisionId} {workload : String}
    (prompt : Prompt queue (.send revision workload))
    (taken : queue.send revision workload = some next) : Calm next := by
  obtain ⟨_, _, rest⟩ := bind_eq_some_iff.mp taken
  split at rest
  · obtain ⟨_, _, same⟩ := bind_eq_some_iff.mp rest
    cases same
    exact ⟨calm.queued, calm.regular, calm.worker, calm.emptied⟩
  · next sends =>
    cases rest
    refine ⟨calm.queued, forall_append calm.regular trivial, calm.worker, ?_⟩
    intro away
    rw [not_or] at sends
    cases worker : queue.worker with
    | receiving => exact absurd worker away
    | acquiring index => exact absurd worker (calm.worker index)
    | draining => exact absurd worker prompt.1
    | closing => exact absurd worker prompt.2
    | stopped => exact absurd worker sends.1

theorem receive_calm (calm : Calm queue) (prompt : Prompt queue .receive)
    (taken : queue.receive = some next) : Calm next := by
  obtain ⟨_, alive, free⟩ := prompt
  obtain ⟨_, _, _, _, _, ⟨gone, _⟩ | ⟨full, _⟩ | ⟨_, rfl⟩⟩ := receive_cases taken
  · rw [alive] at gone
    cases gone
  · exact absurd full free
  · constructor
    case queued =>
      have after : 0 ≤ queue.queued - 1 := by omega
      exact after
    case regular => exact forall_set calm.regular trivial
    case worker => nofun
    case emptied => exact fun away => absurd rfl away

theorem drain_calm (calm : Calm queue) (taken : queue.drain = some next) : Calm next := by
  unfold drain at taken
  split at taken
  · next index rest draining head =>
    have empty := calm.emptied (by rw [draining]; nofun)
    rw [head] at empty
    cases empty
  · next draining empty =>
    cases taken
    exact ⟨calm.queued, calm.regular, by nofun, fun _ => empty⟩
  · cases taken

theorem step_calm {label : Label} (calm : Calm queue) (prompt : Prompt queue label)
    (taken : queue.step label = some next) : Calm next := by
  cases label with
  | send => exact send_calm calm prompt taken
  | count =>
    obtain ⟨dispatched, found, counts⟩ := bind_eq_some_iff.mp taken
    obtain ⟨_, same⟩ := ite_none_left_eq_some.mp counts
    cases same
    have regular := calm.regular dispatched (mem_of_getElem? found)
    refine calm.moved rfl regular ?_ rfl rfl
    exact Int.add_nonneg calm.queued (by decide)
  | receive => exact receive_calm calm prompt taken
  | acquire =>
    replace taken : queue.acquire = some next := taken
    unfold acquire at taken
    split at taken
    · next index acquiring => exact absurd acquiring (calm.worker index)
    · cases taken
  | leave =>
    obtain ⟨_, rfl⟩ := ite_some_none_eq_some.mp taken
    exact ⟨calm.queued, calm.regular, by nofun, fun _ => prompt⟩
  | drain => exact drain_calm calm taken
  | close =>
    obtain ⟨closing, rfl⟩ := ite_some_none_eq_some.mp taken
    have empty := calm.emptied (by rw [closing]; nofun)
    exact ⟨calm.queued, calm.regular, by nofun, fun _ => empty⟩
  | admission =>
    obtain ⟨dispatched, found, admits⟩ := bind_eq_some_iff.mp taken
    obtain ⟨_, _, _, rfl | rfl⟩ := admission_cases admits <;>
      exact calm.moved rfl trivial calm.queued rfl rfl
  | finish =>
    obtain ⟨_, _, finishes⟩ := bind_eq_some_iff.mp taken
    obtain ⟨_, rfl | rfl⟩ := finish_cases finishes <;>
      exact calm.moved rfl trivial calm.queued rfl rfl
  | shutdown =>
    cases taken
    exact ⟨calm.queued, calm.regular, calm.worker, calm.emptied⟩
  | runtimeGone =>
    obtain ⟨_, same⟩ := ite_none_left_eq_some.mp taken
    cases same
    exact ⟨calm.queued, calm.regular, calm.worker, calm.emptied⟩
  | runtime =>
    obtain ⟨_, _, rfl⟩ := runtime_cases taken
    exact ⟨calm.queued, calm.regular, calm.worker, calm.emptied⟩

def Stopped (queue : TaskQueue) : Prop :=
  queue.worker = .stopped ∧ ∀ dispatched ∈ queue.dispatches,
    dispatched.accepted = true ∧ dispatched.stage.live = false

/-- The counters are made up of the dispatches, and every dispatch that was
accepted is in one of them; the gauges are not negative; and nothing is left
when the task runtime has stopped. -/
structure Accounted (queue : TaskQueue) : Prop where
  value : ∀ gauge, queue.value gauge = queue.total (fun dispatched => dispatched.share gauge)
  once : ∀ dispatched ∈ queue.dispatches, dispatched.accepted = true → dispatched.Once
  queued : 0 ≤ queue.value .queued
  running : 0 ≤ queue.value .running
  stopped : queue.Stopped →
    queue.value .queued = 0 ∧ queue.value .running = 0 ∧ queue.runtime.children = []

theorem once_of_share (gauge : Gauge)
    (share : ∀ other, dispatched.share other = if other = gauge then 1 else 0) : dispatched.Once := by
  refine ⟨gauge, ?_, ?_⟩
  · rw [share, if_pos rfl]
  · intro other different
    rw [share, if_neg different]

theorem once_of_regular (accepted : dispatched.accepted = true) (regular : Regular dispatched.stage) :
    dispatched.Once := by
  obtain ⟨_, _, stage, _⟩ := dispatched
  subst accepted
  cases stage with
  | waiting => exact once_of_share .queued (fun other => by cases other <;> rfl)
  | spawned | running => exact once_of_share .running (fun other => by cases other <;> rfl)
  | completed => exact once_of_share .completed (fun other => by cases other <;> rfl)
  | failed => exact once_of_share .failed (fun other => by cases other <;> rfl)
  | held | dropped | lost => exact absurd regular id

theorem ended (tallied : Tallied queue) (calm : Calm queue) (stopped : queue.Stopped)
    (member : dispatched ∈ queue.dispatches) :
    dispatched.accepted = true ∧ (dispatched.stage = .completed ∨ dispatched.stage = .failed) := by
  obtain ⟨worker, finished⟩ := stopped
  obtain ⟨accepted, live⟩ := finished dispatched member
  refine ⟨accepted, ?_⟩
  have regular := calm.regular dispatched member
  cases stage : dispatched.stage with
  | completed => exact .inl rfl
  | failed => exact .inr rfl
  | waiting =>
    obtain ⟨position, found⟩ := mem_iff_getElem?.mp member
    have waits := (tallied.channel position dispatched found).mpr stage
    rw [calm.emptied (by rw [worker]; nofun)] at waits
    cases waits
  | spawned | running =>
    rw [stage] at live
    cases live
  | held | dropped | lost =>
    rw [stage] at regular
    exact absurd regular id

theorem accounted_of_calm (tallied : Tallied queue) (calm : Calm queue) : Accounted queue where
  value := tallied.value
  once := fun dispatched member accepted =>
    once_of_regular accepted (calm.regular dispatched member)
  queued := calm.queued
  running := by
    rw [tallied.value]
    refine sum_map_nonneg ?_
    intro dispatched _
    exact Int.natCast_nonneg _
  stopped := by
    intro stopped
    refine ⟨?_, ?_, ?_⟩
    · rw [tallied.value]
      refine sum_map_zero ?_
      intro dispatched member
      obtain ⟨accepted, stage | stage⟩ := ended tallied calm stopped member <;>
        simp [Dispatched.share, accepted, stage, Stage.received]
    · rw [tallied.value]
      refine sum_map_zero ?_
      intro dispatched member
      obtain ⟨_, stage | stage⟩ := ended tallied calm stopped member <;>
        simp [Dispatched.share, stage, Stage.live]
    · refine eq_nil_iff_forall_not_mem.mpr ?_
      intro id
      rw [← count_eq_zero]
      have none : queue.total (Dispatched.childShare id) = 0 := by
        refine sum_map_zero ?_
        intro dispatched member
        obtain ⟨_, stage | stage⟩ := ended tallied calm stopped member <;>
          simp [Dispatched.childShare, stage, Stage.retains]
      have count := tallied.children id
      rw [none] at count
      exact_mod_cast count

def SameLimits (queue next : TaskQueue) : Prop :=
  next.budget.max = queue.budget.max ∧ next.capacity = queue.capacity ∧
    (queue.channel.length ≤ queue.capacity → next.channel.length ≤ next.capacity)

theorem send_limits {revision : RevisionId} {workload : String}
    (taken : queue.send revision workload = some next) : SameLimits queue next := by
  obtain ⟨_, _, rest⟩ := bind_eq_some_iff.mp taken
  split at rest
  · obtain ⟨_, _, same⟩ := bind_eq_some_iff.mp rest
    cases same
    exact ⟨rfl, rfl, id⟩
  · next room =>
    cases rest
    refine ⟨rfl, rfl, fun _ => ?_⟩
    change (queue.channel ++ [queue.dispatches.length]).length ≤ queue.capacity
    rw [length_append, length_singleton]
    omega

theorem shorter (channel : queue.channel = index :: rest)
    (bound : queue.channel.length ≤ queue.capacity) : rest.length ≤ queue.capacity := by
  rw [channel, length_cons] at bound
  omega

theorem receive_limits (taken : queue.receive = some next) : SameLimits queue next := by
  obtain ⟨_, _, _, channel, _, ⟨_, rfl⟩ | ⟨_, rfl⟩ | ⟨_, rfl⟩⟩ := receive_cases taken <;>
    exact ⟨rfl, rfl, shorter channel⟩

theorem acquire_limits (taken : queue.acquire = some next) : SameLimits queue next := by
  unfold acquire at taken
  split at taken
  · obtain ⟨_, _, rest⟩ := bind_eq_some_iff.mp taken
    obtain ⟨_, same⟩ := ite_none_left_eq_some.mp rest
    cases same
    exact ⟨rfl, rfl, id⟩
  · cases taken

theorem drain_limits (taken : queue.drain = some next) : SameLimits queue next := by
  unfold drain at taken
  split at taken
  · next channel =>
    obtain ⟨_, _, same⟩ := bind_eq_some_iff.mp taken
    cases same
    exact ⟨rfl, rfl, shorter channel⟩
  · cases taken
    exact ⟨rfl, rfl, id⟩
  · cases taken

theorem step_limits {label : Label} (taken : queue.step label = some next) :
    SameLimits queue next := by
  cases label with
  | send => exact send_limits taken
  | receive => exact receive_limits taken
  | acquire => exact acquire_limits taken
  | drain => exact drain_limits taken
  | count =>
    obtain ⟨_, _, counts⟩ := bind_eq_some_iff.mp taken
    obtain ⟨_, same⟩ := ite_none_left_eq_some.mp counts
    cases same
    exact ⟨rfl, rfl, id⟩
  | leave | close =>
    obtain ⟨_, rfl⟩ := ite_some_none_eq_some.mp taken
    exact ⟨rfl, rfl, id⟩
  | admission =>
    obtain ⟨_, _, admits⟩ := bind_eq_some_iff.mp taken
    obtain ⟨_, _, _, rfl | rfl⟩ := admission_cases admits <;> exact ⟨rfl, rfl, id⟩
  | finish =>
    obtain ⟨_, _, finishes⟩ := bind_eq_some_iff.mp taken
    obtain ⟨_, rfl | rfl⟩ := finish_cases finishes <;> exact ⟨rfl, rfl, id⟩
  | shutdown =>
    cases taken
    exact ⟨rfl, rfl, id⟩
  | runtimeGone =>
    obtain ⟨_, same⟩ := ite_none_left_eq_some.mp taken
    cases same
    exact ⟨rfl, rfl, id⟩
  | runtime =>
    obtain ⟨_, _, rfl⟩ := runtime_cases taken
    exact ⟨rfl, rfl, id⟩

/-- However slow the worker is: the counters are made up of the dispatches, no more than
`concurrency` of them are live, and the channel keeps its bound. -/
theorem dispatches_bounded (maxWorlds appConcurrency capacity concurrency : Nat)
    (labels : List Label) :
    Along step (fun queue => Tallied queue ∧ queue.total (·.share .running) ≤ concurrency ∧
      queue.channel.length ≤ capacity) (start maxWorlds appConcurrency capacity concurrency)
      labels := by
  have kept : Along step (fun queue => Tallied queue ∧ queue.budget.max = concurrency ∧
      queue.capacity = capacity ∧ queue.channel.length ≤ queue.capacity)
      (start maxWorlds appConcurrency capacity concurrency) labels := by
    refine along_of_meets ?_ ⟨start_tallied _ _ _ _, rfl, rfl, Nat.zero_le _⟩ (meets_true _ _)
    rintro queue label next ⟨tallied, max, room, bound⟩ _ taken
    obtain ⟨same, wide, within⟩ := step_limits taken
    exact ⟨step_tallied tallied taken, same.trans max, wide.trans room, within bound⟩
  refine along_imp ?_ kept
  rintro queue ⟨tallied, max, room, bound⟩
  refine ⟨tallied, ?_, room ▸ bound⟩
  rw [← tallied.value, value]
  omega

/-- In every run in which the worker takes dispatches promptly and leaves none
behind, the counters account for every dispatch in every state. -/
theorem dispatches_accounted (maxWorlds appConcurrency capacity concurrency : Nat)
    (labels : List Label)
    (prompt : Meets step Prompt (start maxWorlds appConcurrency capacity concurrency) labels) :
    Along step Accounted (start maxWorlds appConcurrency capacity concurrency) labels := by
  have kept : Along step (fun queue => Tallied queue ∧ Calm queue)
      (start maxWorlds appConcurrency capacity concurrency) labels := by
    refine along_of_meets ?_ ⟨start_tallied _ _ _ _, start_calm _ _ _ _⟩ prompt
    intro queue label next invariant allowed taken
    exact ⟨step_tallied invariant.1 taken, step_calm invariant.2 allowed taken⟩
  exact along_imp (fun _ invariant => accounted_of_calm invariant.1 invariant.2) kept

def mailer : List Label :=
  [.runtime (.install ⟨"shop", [⟨"task:mail", .task, none⟩], true⟩), .runtime (.setState ⟨1⟩ .active)]

def oneMail : List Label :=
  mailer ++ [.send ⟨1⟩ "task:mail", .count 0, .receive, .admission 0,
    .finish 0 (.ok (.completed, some (.ok ()))), .shutdown, .leave, .drain, .close]

theorem dispatches_accounted_one_mail :
    Meets step Prompt (start 4 4 8 1) oneMail ∧ Along step Accounted (start 4 4 8 1) oneMail := by
  have prompt : Meets step Prompt (start 4 4 8 1) oneMail := by decide +kernel
  exact ⟨prompt, dispatches_accounted 4 4 8 1 oneMail prompt⟩

def summary (queue : TaskQueue) : List Int × Nat × Nat :=
  ([Gauge.queued, .running, .completed, .failed, .lost].map queue.value,
    queue.dispatches.countP (fun dispatched => dispatched.accepted),
    queue.runtime.children.length)

/-- With one permit, the second of two dispatches is counted nowhere while the
worker waits for it. A dispatch that is received before its sender counts takes
`queued` below zero. A dispatch that is in the channel at shutdown is counted
as lost, stays in `queued` and keeps its revision retained. -/
theorem dispatches_miscounted :
    (exec step (start 4 4 8 1) (mailer ++ [.send ⟨1⟩ "task:mail", .count 0, .send ⟨1⟩ "task:mail",
      .count 1, .receive, .admission 0, .receive])).map summary = some ([0, 1, 0, 0, 0], 2, 1) ∧
    (exec step (start 4 4 8 1) (mailer ++ [.send ⟨1⟩ "task:mail", .receive])).map summary =
      some ([-1, 1, 0, 0, 0], 0, 1) ∧
    (exec step (start 4 4 8 1) (mailer ++ [.send ⟨1⟩ "task:mail", .count 0, .shutdown, .leave, .drain,
      .drain, .close])).map summary = some ([1, 0, 0, 0, 1], 1, 1) := by
  decide +kernel

end TaskQueue

end Usai.Tasks
