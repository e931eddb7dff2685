import Usai.Custody
import Usai.Tally
import Usai.Execution.Driver

/-! Who holds the guard of an operation: every operation a world started has a
record and one holder, or was released once. One lemma for each thing the host
and the ledger can do. -/

namespace Usai.Execution

open List Option Ownership Tally

/-- A ledger change that leaves this world's records in place, cancelled or
not, and brings none back. -/
structure Spares (id : WorldId) (before after : Ledger) : Prop where
  traces : Ledger.Traces before after
  keeps : ∀ op record, before.byOp.lookup op = some record → record.world = id →
    ∃ kept, after.byOp.lookup op = some kept ∧ kept.world = id
  indexed : before.Indexed → after.Indexed
  live : after.gauges.liveWorlds = before.gauges.liveWorlds

theorem spares_refl (id : WorldId) (ledger : Ledger) : Spares id ledger ledger where
  traces := Ledger.traces_refl ledger
  keeps := fun _ record found owner => ⟨record, found, owner⟩
  indexed := fun indexed => indexed
  live := rfl

theorem cancelAll_spares (id : WorldId) (ledger : Ledger) (ops : List OpId) :
    Spares id ledger { ledger with byOp := Ledger.cancelAll ledger.byOp ops } where
  traces := Ledger.cancelAll_traces ledger ops
  keeps := by
    intro op record found owner
    rw [Ledger.cancelAll_lookup, found]
    split
    · exact ⟨record.cancel, rfl, owner⟩
    · exact ⟨record, rfl, owner⟩
  indexed := fun indexed => Ledger.cancelAll_indexed indexed ops
  live := rfl

theorem cancelOp_spares (id : WorldId) (ledger : Ledger) (op : OpId) (world : WorldId) :
    Spares id ledger (ledger.cancelOp op world).1 := by
  unfold Ledger.cancelOp
  split
  · split
    · exact cancelAll_spares id ledger [op]
    · exact spares_refl id ledger
  · exact spares_refl id ledger

variable {ledger : Ledger}

theorem start_spares (id : WorldId) (indexed : ledger.Indexed) (world : WorldId)
    (kind : String) : Spares id ledger (ledger.start world kind).1 where
  traces := Ledger.start_traces ledger world kind
  keeps := by
    intro op record found owner
    rw [Ledger.start_lookup]
    split
    · next same =>
      rw [same, Ledger.next_unrecorded indexed] at found
      cases found
    · exact ⟨record, found, owner⟩
  indexed := fun indexed => Ledger.start_indexed indexed world kind
  live := rfl

theorem release_live (ledger : Ledger) (op : OpId) :
    (ledger.release op).1.gauges.liveWorlds = ledger.gauges.liveWorlds := by
  unfold Ledger.release
  split <;> rfl

theorem release_spares {id : WorldId}
    (other : (ledger.byOp.lookup op).all (fun record => decide (record.world ≠ id)) = true) :
    Spares id ledger (ledger.release op).1 where
  traces := Ledger.release_traces ledger op
  keeps := by
    intro kept record found owner
    rw [Ledger.release_lookup]
    split
    · next same =>
      rw [← same, found] at other
      simp [owner] at other
    · exact ⟨record, found, owner⟩
  indexed := fun indexed => Ledger.release_indexed indexed op
  live := release_live ledger op

theorem foreign_spares {id : WorldId} (indexed : ledger.Indexed)
    (foreign : Foreign id ledger operation = true) :
    Spares id ledger (operation.apply ledger).1 := by
  cases operation with
  | start world kind => exact start_spares id indexed world kind
  | cancelOp op world => exact cancelOp_spares id ledger op world
  | cancelWorld world => exact cancelAll_spares id ledger (ledger.opsOf world)
  | release | releaseGuard => exact release_spares foreign
  | dropGuard guard =>
    simp only [Operation.apply, answerRelease]
    rcases dropGuard_cases guard ledger with unchanged | released
    · rw [unchanged]
      exact spares_refl id ledger
    · rw [released]
      exact release_spares foreign

def Gauge.live (live : Nat) : Gauge → Nat
  | .created => live + 1
  | .retired => live - 1
  | .delivered | .droppedLate | .rejectedStale | .detachedWork | .unwindOverrun => live

/-- The host's books for one world, with the operations in `extra` held outside
the host and `live` worlds on the gauge. -/
structure Host.Kept (host : Host) (id : WorldId) (extra : List OpId) (live : Nat) : Prop where
  custody : Conserved host.started (extra ++ host.held) host.released
  issued : ∀ op ∈ host.started, op.val ≤ host.ledger.nextOp
  recorded : ∀ op ∈ extra ++ host.held,
    ∃ record, host.ledger.byOp.lookup op = some record ∧ record.world = id
  absent : ∀ op ∈ host.released, host.ledger.byOp.lookup op = none
  indexed : host.ledger.Indexed
  counted : host.ledger.gauges.liveWorlds = live

namespace Host

variable {host : Host} {id : WorldId} {extra : List OpId} {live : Nat}

theorem new_kept (id : WorldId) (indexed : ledger.Indexed) :
    (Host.new ledger).Kept id [] ledger.gauges.liveWorlds where
  custody := Conserved.empty
  issued := by intro op member; cases member
  recorded := by intro op member; cases member
  absent := by intro op member; cases member
  indexed := indexed
  counted := rfl

section

variable (kept : host.Kept id extra live)
include kept

theorem Kept.spared
    (spares : Spares id host.ledger ledger) : Kept { host with ledger := ledger } id extra live where
  custody := kept.custody
  issued := fun op member => le_trans (kept.issued op member) spares.traces.1
  recorded := by
    intro op member
    obtain ⟨record, found, owner⟩ := kept.recorded op member
    exact spares.keeps op record found owner
  absent := by
    intro op member
    have started := kept.custody.mem_issued.mpr (.inr member)
    cases found : ledger.byOp.lookup op with
    | none => rfl
    | some record =>
      obtain ⟨_, present, _⟩ := spares.traces.2 op record found (kept.issued op started)
      rw [kept.absent op member] at present
      cases present
  indexed := spares.indexed kept.indexed
  counted := spares.live.trans kept.counted

theorem Kept.gauged (gauge : Gauge) :
    (host.gauge gauge).Kept id extra (gauge.live live) := by
  have same : (gauge.change host.ledger.gauges).liveOps = host.ledger.gauges.liveOps := by
    cases gauge <;> rfl
  have moved : (gauge.change host.ledger.gauges).liveWorlds =
      gauge.live host.ledger.gauges.liveWorlds := by
    cases gauge <;> rfl
  exact { kept with
    indexed := { kept.indexed with counted := same.trans kept.indexed.counted }
    counted := moved.trans (congrArg gauge.live kept.counted) }

theorem Kept.cancelledOp (world : WorldId) (op : OpId) :
    (host.cancelOp world op).Kept id extra live :=
  kept.spared (cancelOp_spares id host.ledger op world)

theorem Kept.cancelledWorld (world : WorldId) :
    (host.cancelWorld world).Kept id extra live :=
  kept.spared (cancelAll_spares id host.ledger (host.ledger.opsOf world))

theorem Kept.moved {tasks : List HostTask} {queue : List Completion} {elsewhere : List OpId}
    (moves : (extra ++ host.held).Perm
      (elsewhere ++ (tasks.map HostTask.op ++ queue.map Completion.op))) :
    Kept { host with tasks := tasks, queue := queue } id elsewhere live :=
  { kept with
    custody := kept.custody.move moves
    recorded := fun op member => kept.recorded op (moves.mem_iff.mpr member) }

theorem Kept.closed : host.close.Kept id extra live := { kept with }

theorem Kept.start (kind : String) :
    (host.start id kind).Kept id extra live := by
  have spared := kept.spared (start_spares id kept.indexed id kind)
  have fresh : (⟨host.ledger.nextOp + 1⟩ : OpId) ∉ host.started := by
    intro member
    have bound := kept.issued _ member
    simp only at bound
    omega
  have moves : ((⟨host.ledger.nextOp + 1⟩ : OpId) :: (extra ++ host.held)).Perm
      (extra ++ (host.start id kind).held) := by
    simp only [Host.start, Host.spawnOperation, Host.held, Ledger.start, map_append,
      map_cons, map_nil, append_assoc, singleton_append]
    rw [← append_assoc, ← append_assoc]
    exact perm_middle.symm
  constructor
  · exact (kept.custody.issue fresh).move moves
  · intro op member
    rcases mem_cons.mp member with rfl | old
    · exact le_rfl
    · exact spared.issued op old
  · intro op member
    rcases mem_cons.mp (moves.mem_iff.mpr member) with rfl | old
    · exact ⟨_, (Ledger.start_lookup _ _ _ _).trans (if_pos rfl), rfl⟩
    · exact spared.recorded op old
  · exact spared.absent
  · exact spared.indexed
  · exact spared.counted

end

variable {op : OpId} {index : Nat} {next : Host}

theorem Kept.released (kept : host.Kept id (op :: extra) live) :
    Kept { host with ledger := (host.ledger.release op).1, released := op :: host.released }
      id extra live := by
  have apart : ∀ other ∈ extra ++ host.held, other ≠ op := by
    intro other member same
    have distinct := (nodup_append.mp kept.custody.parts_nodup).1
    rw [cons_append, nodup_cons] at distinct
    exact distinct.1 (same ▸ member)
  constructor
  · exact Conserved.spend kept.custody
  · intro other member
    exact le_trans (kept.issued other member) (Ledger.release_traces host.ledger op).1
  · intro other member
    obtain ⟨record, found, owner⟩ := kept.recorded other (mem_cons_of_mem op member)
    exact ⟨record, by rw [Ledger.release_lookup, if_neg (apart other member), found], owner⟩
  · intro other member
    rw [Ledger.release_lookup]
    rcases mem_cons.mp member with rfl | old
    · exact if_pos rfl
    · rw [kept.absent other old, ite_self]
  · exact Ledger.release_indexed kept.indexed op
  · exact (release_live host.ledger op).trans kept.counted

theorem Kept.dropped (kept : host.Kept id (op :: extra) live) {guard : OpGuard}
    (owns : guard = OpGuard.new op) : (host.dropGuard guard).Kept id extra live := by
  subst owns
  exact kept.released

theorem releaseGuard_eq_dropGuard (host : Host) {guard : OpGuard}
    (owns : guard = OpGuard.new op) : host.releaseGuard guard = host.dropGuard guard := by
  subst owns
  rfl

theorem held_eraseIdx (found : host.tasks[index]? = some task) :
    host.held.Perm
      (task.op :: ((host.tasks.eraseIdx index).map HostTask.op ++ host.queue.map Completion.op)) :=
  (((eraseIdx_perm found).map HostTask.op).append_right _).symm

inductive TaskStep (host : Host) : Host → Prop where
  | discard (index : Nat) (task : HostTask) (found : host.tasks[index]? = some task) :
      TaskStep host ({ host with tasks := host.tasks.eraseIdx index }.dropGuard task.guard)
  | advance (index : Nat) (task : HostTask) (found : host.tasks[index]? = some task)
      (phase : TaskPhase) :
      TaskStep host { host with tasks := host.tasks.set index { task with phase := phase } }
  | push (index : Nat) (task : HostTask) (found : host.tasks[index]? = some task)
      (outcome : OpOutcome) :
      TaskStep host { host with
        tasks := host.tasks.eraseIdx index
        queue := host.queue ++ [task.complete outcome] }

theorem discard_taskStep (discards : host.discard index = some next) :
    TaskStep host next := by
  obtain ⟨task, found, same⟩ := bind_eq_some_iff.mp discards
  cases same
  exact .discard index task found

theorem finish_taskStep
    (finishes : host.finish index outcome = some next) : TaskStep host next := by
  obtain ⟨task, found, rest⟩ := bind_eq_some_iff.mp finishes
  obtain ⟨_, rfl⟩ := ite_some_none_eq_some.mp rest
  exact .advance index task found (.sending outcome)

theorem reserve_taskStep (reserves : host.reserve index = some next) :
    TaskStep host next := by
  obtain ⟨task, found, rest⟩ := bind_eq_some_iff.mp reserves
  cases phase : task.phase with
  | sending outcome =>
    simp only [phase] at rest
    obtain ⟨_, rfl⟩ := ite_some_none_eq_some.mp rest
    exact .advance index task found (.permitted outcome)
  | running | permitted =>
    simp only [phase] at rest
    cases rest

theorem push_taskStep (pushes : host.push index = some next) :
    TaskStep host next := by
  obtain ⟨task, found, rest⟩ := bind_eq_some_iff.mp pushes
  cases phase : task.phase with
  | permitted outcome =>
    simp only [phase] at rest
    cases rest
    exact .push index task found outcome
  | running | sending =>
    simp only [phase] at rest
    cases rest

theorem refuse_taskStep (refuses : host.refuse index = some next) :
    TaskStep host next := by
  obtain ⟨task, _, rest⟩ := bind_eq_some_iff.mp refuses
  cases phase : task.phase with
  | sending =>
    simp only [phase] at rest
    obtain ⟨_, discards⟩ := ite_none_right_eq_some.mp rest
    exact discard_taskStep discards
  | running | permitted =>
    simp only [phase] at rest
    cases rest

theorem Kept.tasked (kept : host.Kept id extra live) (step : TaskStep host next) :
    next.Kept id extra live := by
  cases step with
  | discard index task found =>
    have taken : Kept { host with tasks := host.tasks.eraseIdx index } id (task.op :: extra) live :=
      kept.moved (((held_eraseIdx found).append_left extra).trans perm_middle)
    exact taken.dropped task.owns
  | advance index task found phase =>
    have same : (host.tasks.set index { task with phase := phase }).map HostTask.op =
        host.tasks.map HostTask.op := map_set_same HostTask.op found rfl
    refine kept.moved ?_
    rw [same]
    exact .refl _
  | push _ _ found _ =>
    refine kept.moved (((held_eraseIdx found).trans ?_).append_left extra)
    rw [map_append, ← append_assoc]
    exact (perm_append_singleton _ _).symm

theorem Kept.taken (kept : host.Kept id extra live)
    (receives : host.recv = some (completion, next)) : next.Kept id (completion.op :: extra) live := by
  unfold Host.recv at receives
  cases queue : host.queue with
  | nil =>
    rw [queue] at receives
    cases receives
  | cons =>
    rw [queue] at receives
    cases receives
    refine kept.moved ?_
    rw [Host.held, queue, map_cons]
    exact (perm_middle.append_left extra).trans perm_middle

theorem Kept.droppedAll (completions : List Completion)
    (kept : host.Kept id (completions.map Completion.op ++ extra) live) :
    (completions.foldl (fun host completion => host.dropGuard completion.guard) host).Kept
      id extra live := by
  induction completions generalizing host with
  | nil => exact kept
  | cons head _ ih => exact ih (kept.dropped head.owns)

theorem Kept.drained (kept : host.Kept id extra live) : host.drain.Kept id extra live := by
  refine Kept.droppedAll host.queue (kept.moved ?_)
  rw [map_nil, append_nil, Host.held, ← append_assoc, append_assoc _ extra]
  exact perm_append_comm

theorem dropGuard_released (host : Host) (guard : OpGuard) :
    host.released ⊆ (host.dropGuard guard).released := by
  unfold Host.dropGuard
  split
  · exact List.Subset.refl _
  · exact subset_cons_self _ _

theorem taskStep_released (step : TaskStep host next) :
    host.released ⊆ next.released := by
  cases step with
  | discard index task _ =>
    exact dropGuard_released { host with tasks := host.tasks.eraseIdx index } task.guard
  | advance | push => exact List.Subset.refl _

theorem dropAll_frame (completions : List Completion) (host : Host) :
    let dropped := completions.foldl (fun host completion => host.dropGuard completion.guard) host
    dropped.tasks = host.tasks ∧ dropped.queue = host.queue ∧ host.released ⊆ dropped.released := by
  induction completions generalizing host with
  | nil => exact ⟨rfl, rfl, List.Subset.refl _⟩
  | cons head _ ih =>
    obtain ⟨tasks, queue, released⟩ := ih (host.dropGuard head.guard)
    exact ⟨tasks, queue, List.Subset.trans (dropGuard_released host head.guard) released⟩

theorem drain_queue (host : Host) : host.drain.queue = [] :=
  (dropAll_frame host.queue { host with queue := [] }).2.1

theorem drain_released (host : Host) : host.released ⊆ host.drain.released :=
  (dropAll_frame host.queue { host with queue := [] }).2.2

theorem reap_tasks (host : Host) : host.reap.tasks = host.tasks := by
  unfold Host.reap
  split
  · exact (dropAll_frame host.queue { host with queue := [] }).1
  · rfl

theorem reap_released (host : Host) : host.released ⊆ host.reap.released := by
  unfold Host.reap
  split
  · exact drain_released host
  · exact List.Subset.refl _

theorem Kept.reaped (kept : host.Kept id extra live) : host.reap.Kept id extra live := by
  unfold Host.reap
  split
  · exact kept.drained
  · exact kept

end Host

end Usai.Execution
