import Usai.Postgres.Holder
import Usai.Slots

/-! What one step of the manager can do to the table of transactions and to the
calls, and how the two fit together in every run. -/

namespace Usai.Postgres

open FiniteMap List Manager Option

namespace Manager

variable (setting : Setting) (manager : Manager)

def began (world : Nat) (session : Session) : Manager :=
  { manager with
    nextTransaction := manager.nextTransaction + 1
    holders := manager.holders.insert manager.nextTransaction
      ⟨world, session, false, [⟨some world, .begin⟩], .selecting false, none, true⟩ }

def entered (call : TxCall) : Manager := { manager with calls := manager.calls ++ [call] }

def handed (index lease : Nat) (holder : Holder) : Manager :=
  (manager.setHolder lease { holder with queue := some index }).setStage index .handed

end Manager

inductive Change (setting : Setting) (manager : Manager) : TxLabel → Manager → Prop where
  | begin (inside : started.block = true) :
      Change setting manager (.begin world session answer noticed) (manager.began world started)
  | refuse :
      Change setting manager (.begin world session answer noticed) manager
  | enter (route : operation.route = .command lease command) :
      Change setting manager (.enter world operation)
        (manager.entered ⟨world, lease, command, .looking⟩)
  | skip (route : ∀ lease command, operation.route ≠ .command lease command) :
      Change setting manager (.enter world operation) manager
  | find (here : manager.calls[index]? = some call) (looking : call.stage = .looking)
      (found : manager.holders.lookup call.lease = some holder) (listed : holder.listed = true) :
      Change setting manager (.look index) (manager.setStage index .sending)
  | miss (here : manager.calls[index]? = some call) (looking : call.stage = .looking) :
      Change setting manager (.look index)
        (manager.setStage index (.answered (.error transactionClosed)))
  | late (here : manager.calls[index]? = some call) (sending : call.stage = .sending)
      (found : manager.holders.lookup call.lease = some holder) (ended : holder.Ended) :
      Change setting manager (.send index)
        (manager.setStage index (.answered (.error transactionClosed)))
  | hand (here : manager.calls[index]? = some call) (sending : call.stage = .sending)
      (found : manager.holders.lookup call.lease = some holder) (unended : ¬ holder.Ended)
      (empty : holder.queue = none) :
      Change setting manager (.send index) (manager.handed index call.lease holder)
  | cancel :
      Change setting manager (.cancel world) { manager with cancelled := world :: manager.cancelled }
  | hold {holder next : Holder}
      (found : manager.holders.lookup lease = some holder)
      (move : Move setting holder (holder.owner ∈ manager.cancelled) (manager.queued holder) event
        next replies) :
      Change setting manager (.holder lease event) ((manager.setHolder lease next).reply replies)
  | delist (found : manager.holders.lookup lease = some holder) (ended : holder.Ended) :
      Change setting manager (.delist lease) (manager.setHolder lease { holder with listed := false })

variable {index : Nat}

section

variable {setting : Setting} {manager next : Manager} {session : Session}

theorem change_begin
    (step : manager.step setting (.begin world session answer noticed) = some next) :
    Change setting manager (.begin world session answer noticed) next := by
  obtain ⟨_, step⟩ := ite_none_left_eq_some.mp step
  split at step <;> cases step
  · rename_i accepted
    refine .begin ?_
    have answered := judged_ok accepted
    cases result : answer.result with
    | error => rw [result] at answered; cases answered
    | ok => simp [Session.receive, result, Request.succeed]
  · exact .refuse

theorem change_look (step : manager.step setting (.look index) = some next) :
    Change setting manager (.look index) next := by
  simp only [Manager.step] at step
  split at step
  · rename_i here
    split at step <;> cases step
    · rename_i listed
      obtain ⟨_, found, listed⟩ := (any_eq_true _ _).mp listed
      exact .find here rfl found listed
    · exact .miss here rfl
  · cases step

theorem change_send (step : manager.step setting (.send index) = some next) :
    Change setting manager (.send index) next := by
  simp only [Manager.step] at step
  split at step
  · rename_i here
    split at step
    · cases step
    · rename_i holder found
      split at step <;> cases step
      · rename_i ending ended
        exact .late here rfl found ⟨ending, ended⟩
      · rename_i empty unended
        exact .hand here rfl found (fun ⟨ending, ended⟩ => unended ending ended) empty
  · cases step

theorem change_of_step (step : manager.step setting label = some next) :
    Change setting manager label next := by
  cases label with
  | begin => exact change_begin step
  | enter =>
    simp only [Manager.step] at step
    split at step <;> cases step
    · rename_i route
      exact .enter route
    · rename_i other
      exact .skip other
  | look => exact change_look step
  | send => exact change_send step
  | cancel =>
    cases step
    exact .cancel
  | holder =>
    simp only [Manager.step] at step
    split at step
    · cases step
    · rename_i holder found
      split at step <;> cases step
      rename_i moved
      exact .hold found (move_of_step moved)
  | delist =>
    simp only [Manager.step] at step
    split at step
    · rename_i holder found
      split at step <;> cases step
      rename_i ending ended
      exact .delist found ⟨ending, ended⟩
    · cases step

end

section

variable (manager : Manager)

@[simp] theorem setStage_holders (index : Nat) (stage : Stage) :
    (manager.setStage index stage).holders = manager.holders := rfl

theorem calls_setStage (index other : Nat) (stage : Stage) :
    (manager.setStage index stage).calls[other]? =
      if index = other then (manager.calls[other]?).map (fun call => { call with stage })
      else manager.calls[other]? := by
  simp only [setStage, getElem?_modify]
  split <;> simp

section

variable (replies : List (Nat × Reply))

@[simp] theorem reply_holders :
    (manager.reply replies).holders = manager.holders := by
  induction replies generalizing manager with
  | nil => rfl
  | cons _ _ ih => exact ih _

@[simp] theorem reply_cancelled :
    (manager.reply replies).cancelled = manager.cancelled := by
  induction replies generalizing manager with
  | nil => rfl
  | cons _ _ ih => exact ih _

@[simp] theorem reply_nextTransaction :
    (manager.reply replies).nextTransaction = manager.nextTransaction := by
  induction replies generalizing manager with
  | nil => rfl
  | cons _ _ ih => exact ih _

theorem length_reply :
    (manager.reply replies).calls.length = manager.calls.length := by
  induction replies generalizing manager with
  | nil => rfl
  | cons _ _ ih => exact (ih _).trans (length_modify _ _ _)

end

variable {index : Nat}

theorem calls_reply (replies : List (Nat × Reply))
    (after : (manager.reply replies).calls[index]? = some call) :
    ∃ before, manager.calls[index]? = some before ∧
      ((index ∉ replies.map Prod.fst ∧ call = before) ∨
        ∃ reply, (index, reply) ∈ replies ∧ call = { before with stage := .answered reply }) := by
  induction replies generalizing manager with
  | nil => exact ⟨call, after, .inl ⟨by simp, rfl⟩⟩
  | cons answer _ ih =>
    obtain ⟨middle, here, rest⟩ := ih _ after
    rw [calls_setStage] at here
    split at here
    · rename_i same
      obtain ⟨before, found, rfl⟩ := map_eq_some_iff.mp here
      refine ⟨before, found, .inr ?_⟩
      rcases rest with ⟨_, rfl⟩ | ⟨reply, member, rfl⟩
      · exact ⟨answer.2, by simp [← same], rfl⟩
      · exact ⟨reply, mem_cons_of_mem _ member, rfl⟩
    · rename_i other
      refine ⟨middle, here, ?_⟩
      rcases rest with ⟨absent, rfl⟩ | ⟨reply, member, rfl⟩
      · exact .inl ⟨by simp [absent, Ne.symm other], rfl⟩
      · exact .inr ⟨reply, mem_cons_of_mem _ member, rfl⟩

theorem calls_reply_last (front : List (Nat × Reply)) (reply : Reply)
    (inside : index < manager.calls.length) :
    ∃ call, (manager.reply (front ++ [(index, reply)])).calls[index]? = some call ∧
      call.stage = .answered reply := by
  obtain ⟨before, here⟩ : ∃ before, (manager.reply front).calls[index]? = some before :=
    ⟨_, getElem?_eq_getElem (by rw [length_reply]; exact inside)⟩
  have last : manager.reply (front ++ [(index, reply)]) =
      (manager.reply front).setStage index (.answered reply) := by
    simp only [Manager.reply, foldl_append, foldl_cons, foldl_nil]
  refine ⟨{ before with stage := .answered reply }, ?_, rfl⟩
  rw [last, calls_setStage, if_pos rfl, here]
  rfl

end

section

variable {setting : Setting} {manager next : Manager} {label : TxLabel}

inductive Advances (manager next : Manager) (label : TxLabel) (index : Nat) (before : TxCall) :
    TxCall → Prop where
  | same : Advances manager next label index before before
  | find (asked : label = .look index) (looking : before.stage = .looking)
      (found : manager.holders.lookup before.lease = some holder) (listed : holder.listed = true) :
      Advances manager next label index before { before with stage := .sending }
  | close (waiting : before.stage = .looking ∨ before.stage = .sending) :
      Advances manager next label index before
        { before with stage := .answered (.error transactionClosed) }
  | hand (found : manager.holders.lookup before.lease = some holder)
      (unended : ¬ holder.Ended)
      (queued : next.holders.lookup before.lease = some { holder with queue := some index }) :
      Advances manager next label index before { before with stage := .handed }
  | answer (reply : Reply)
      (found : manager.holders.lookup lease = some holder) (unended : ¬ holder.Ended)
      (awaited : index ∈ holder.awaited) :
      Advances manager next label index before { before with stage := .answered reply }

inductive Evolves (setting : Setting) (manager next : Manager) (lease : Nat) (before : Holder) :
    Holder → Prop where
  | same : Evolves setting manager next lease before before
  | queue {index : Nat} (here : manager.calls[index]? = some call)
      (named : call.lease = lease) (sending : call.stage = .sending) (unended : ¬ before.Ended)
      (empty : before.queue = none) :
      Evolves setting manager next lease before { before with queue := some index }
  | move {after : Holder}
      (move : Move setting before (before.owner ∈ manager.cancelled) (manager.queued before) event
        after replies)
      (answered : ∀ index ∈ replies.map Prod.fst, ∀ call, next.calls[index]? = some call →
        ∃ reply, call.stage = .answered reply) :
      Evolves setting manager next lease before after
  | delist (ended : before.Ended) :
      Evolves setting manager next lease before { before with listed := false }

theorem lookup_setHolder (manager : Manager) (lease other : Nat) (holder : Holder) :
    (manager.setHolder lease holder).holders.lookup other =
      if other = lease then some holder else manager.holders.lookup other :=
  lookup_insert_eq manager.holders lease other holder

variable {index : Nat} {before after : TxCall}

theorem advances_staged (here : manager.calls[index]? = some known)
    (advances : Advances manager next label index known { known with stage })
    (after : (manager.setStage index stage).calls[other]? = some call) :
    ∃ before, manager.calls[other]? = some before ∧ Advances manager next label other before call := by
  rw [calls_setStage] at after
  split at after
  · rename_i same
    subst same
    rw [here] at after
    obtain rfl := some.inj after
    exact ⟨known, here, advances⟩
  · exact ⟨call, after, .same⟩

section

variable (change : Change setting manager label next)
include change

theorem Change.call {call : TxCall} (after : next.calls[index]? = some call) :
    (∃ before, manager.calls[index]? = some before ∧ Advances manager next label index before call) ∨
      (manager.calls[index]? = none ∧ call.stage = .looking ∧ ∃ world operation,
        label = .enter world operation ∧ operation.route = .command call.lease call.command) := by
  cases change with
  | enter route =>
    rcases Slots.of_getElem?_append after with before | ⟨rfl, rfl⟩
    · exact .inl ⟨call, before, .same⟩
    · exact .inr ⟨getElem?_eq_none (Nat.le_refl _), rfl, _, _, rfl, route⟩
  | find here looking found listed =>
    exact .inl (advances_staged here (.find rfl looking found listed) after)
  | miss here looking => exact .inl (advances_staged here (.close (.inl looking)) after)
  | late here sending _ _ => exact .inl (advances_staged here (.close (.inr sending)) after)
  | hand here _ found unended _ =>
    refine .inl (advances_staged here (.hand found unended ?_) after)
    simp only [handed, setStage_holders, lookup_setHolder, if_pos]
  | hold found move =>
    obtain ⟨before, known, ⟨_, rfl⟩ | ⟨reply, member, rfl⟩⟩ := calls_reply _ _ after
    · exact .inl ⟨call, known, .same⟩
    · exact .inl ⟨before, known,
        .answer reply found move.handles.unended (move.handles.asked _ member)⟩
  | begin | refuse | skip | cancel | delist => exact .inl ⟨call, after, .same⟩

theorem Change.evolves {before : Holder}
    (fresh : manager.holders.lookup manager.nextTransaction = none)
    (found : manager.holders.lookup lease = some before) :
    ∃ after, next.holders.lookup lease = some after ∧
      Evolves setting manager next lease before after := by
  cases change with
  | begin => exact ⟨before, lookup_insert_absent fresh found, .same⟩
  | hand here sending known unended empty =>
    simp only [handed, setStage_holders, lookup_setHolder]
    split
    · rename_i same
      rw [← same, found] at known
      cases known
      exact ⟨_, rfl, .queue here same.symm sending unended empty⟩
    · exact ⟨before, found, .same⟩
  | hold known move =>
    simp only [reply_holders, lookup_setHolder]
    split
    · rename_i same
      rw [← same, found] at known
      cases known
      refine ⟨_, rfl, .move move ?_⟩
      intro index member call after
      obtain ⟨_, _, ⟨absent, _⟩ | ⟨reply, _, rfl⟩⟩ := calls_reply _ _ after
      · exact absurd member absent
      · exact ⟨reply, rfl⟩
    · exact ⟨before, found, .same⟩
  | delist known ended =>
    simp only [lookup_setHolder]
    split
    · rename_i same
      rw [← same, found] at known
      cases known
      exact ⟨_, rfl, .delist ended⟩
    · exact ⟨before, found, .same⟩
  | refuse | enter | skip | find | miss | late | cancel => exact ⟨before, found, .same⟩

theorem Change.begun
    (absent : manager.holders.lookup lease = none) (found : next.holders.lookup lease = some holder) :
    lease = manager.nextTransaction ∧ next.nextTransaction = lease + 1 ∧
      ∃ world started, started.block = true ∧
        holder = ⟨world, started, false, [⟨some world, .begin⟩], .selecting false, none, true⟩ := by
  have impossible {other : Nat} {old new : Holder}
      (known : manager.holders.lookup other = some old)
      (after : (manager.setHolder other new).holders.lookup lease = some holder) : False := by
    rw [lookup_setHolder] at after
    split at after
    · rename_i same
      rw [← same, absent] at known
      cases known
    · rw [absent] at after
      cases after
  cases change with
  | begin inside =>
    simp only [began, lookup_insert_eq] at found
    split at found
    · rename_i same
      cases found
      exact ⟨same, by simp [began, same], _, _, inside, rfl⟩
    · rw [absent] at found
      cases found
  | hand _ _ known _ _ | delist known _ =>
    exact (impossible known found).elim
  | hold known _ =>
    rw [reply_holders] at found
    exact (impossible known found).elim
  | refuse | enter | skip | find | miss | late | cancel =>
    exact absurd (absent.symm.trans found) (by simp)

theorem Change.length :
    manager.calls.length ≤ next.calls.length := by
  cases change with
  | enter => simp [entered]
  | hold => simp [length_reply, setHolder]
  | begin | refuse | skip | find | miss | late | hand | cancel | delist =>
    simp [began, handed, setStage, setHolder]

theorem Change.advances (here : manager.calls[index]? = some before) :
    ∃ after, next.calls[index]? = some after ∧ Advances manager next label index before after := by
  have inside : index < next.calls.length :=
    Nat.lt_of_lt_of_le (List.getElem?_eq_some_iff.mp here).1 change.length
  obtain ⟨after, found⟩ : ∃ after, next.calls[index]? = some after :=
    ⟨_, getElem?_eq_getElem inside⟩
  rcases change.call found with ⟨_, same, advances⟩ | ⟨absent, _⟩
  · obtain rfl := some.inj (here.symm.trans same)
    exact ⟨after, found, advances⟩
  · rw [absent] at here
    cases here

theorem Change.nextTransaction_le :
    manager.nextTransaction ≤ next.nextTransaction := by
  cases change with
  | begin => exact Nat.le_succ _
  | hold =>
    rw [reply_nextTransaction]
    exact Nat.le_refl _
  | refuse | enter | skip | find | miss | late | hand | cancel | delist => exact Nat.le_refl _

end

section

variable (advances : Advances manager next label index before after)
include advances

theorem Advances.lease : after.lease = before.lease := by
  cases advances <;> rfl

theorem Advances.command : after.command = before.command := by
  cases advances <;> rfl

theorem Advances.world : after.world = before.world := by
  cases advances <;> rfl

end

theorem Change.holders (change : Change setting manager label next)
    (fresh : manager.holders.lookup manager.nextTransaction = none)
    {property : Nat → Holder → Prop}
    (begun : ∀ lease world started, started.block = true →
      property lease ⟨world, started, false, [⟨some world, .begin⟩], .selecting false, none, true⟩)
    (evolved : ∀ lease before after, manager.holders.lookup lease = some before →
      Evolves setting manager next lease before after → property lease after) :
    ∀ lease holder, next.holders.lookup lease = some holder → property lease holder := by
  intro lease holder found
  cases known : manager.holders.lookup lease with
  | none =>
    obtain ⟨_, _, world, started, inside, rfl⟩ := change.begun known found
    exact begun lease world started inside
  | some before =>
    obtain ⟨_, here, evolves⟩ := change.evolves fresh known
    obtain rfl := some.inj (found.symm.trans here)
    exact evolved lease before holder known evolves

end

section

/-- How calls and transactions fit together: a transaction has the commands of
its own calls, and every command that was handed over is with a transaction. -/
structure Coherent (manager : Manager) : Prop where
  fresh : ∀ lease holder, manager.holders.lookup lease = some holder → lease < manager.nextTransaction
  awaited : ∀ lease holder, manager.holders.lookup lease = some holder →
    ∀ index ∈ holder.awaited, ∃ call, manager.calls[index]? = some call ∧ call.lease = lease
  drained : ∀ lease holder, manager.holders.lookup lease = some holder →
    holder.Ended → holder.queue = none
  handed : ∀ (index : Nat) (call : TxCall), manager.calls[index]? = some call →
    call.stage = .handed → ∃ holder, manager.holders.lookup call.lease = some holder ∧ index ∈ holder.awaited
  sending : ∀ (index : Nat) (call : TxCall), manager.calls[index]? = some call →
    call.stage = .sending → ∃ holder, manager.holders.lookup call.lease = some holder

theorem coherent_new : Coherent new := by
  constructor <;> intros <;> simp_all [new, AList.lookup_empty]

variable {setting : Setting} {manager next : Manager} {label : TxLabel}

theorem Coherent.unused (coherent : Coherent manager) :
    manager.holders.lookup manager.nextTransaction = none := by
  cases found : manager.holders.lookup manager.nextTransaction with
  | none => rfl
  | some holder => exact absurd (coherent.fresh _ holder found) (Nat.lt_irrefl _)

variable {lease : Nat} {before after : Holder}

section

variable (evolves : Evolves setting manager next lease before after)
include evolves

theorem Evolves.awaited (member : index ∈ after.awaited) :
    index ∈ before.awaited ∨
      ∃ call, manager.calls[index]? = some call ∧ call.lease = lease ∧ call.stage = .sending := by
  cases evolves with
  | same => exact .inl member
  | queue here named sending _ _ =>
    rcases mem_awaited.mp member with waiting | serves
    · obtain rfl := some.inj waiting
      exact .inr ⟨_, here, named, sending⟩
    · exact .inl (mem_awaited.mpr (.inr serves))
  | move move _ => exact .inl (move.handles.fewer index member)
  | delist => exact .inl member

theorem Evolves.owner : after.owner = before.owner := by
  cases evolves with
  | move move _ => exact move.handles.owner
  | same | queue | delist => rfl

theorem Evolves.drained
    (drained : before.Ended → before.queue = none) (ended : after.Ended) : after.queue = none := by
  cases evolves with
  | same | delist ended => exact drained ended
  | queue _ _ _ unended _ => exact absurd ended unended
  | move move _ => exact move.handles.drained ended

theorem Evolves.keeps (member : index ∈ before.awaited) (here : next.calls[index]? = some call)
    (handed : call.stage = .handed) : index ∈ after.awaited := by
  cases evolves with
  | same => exact member
  | queue _ _ _ _ empty =>
    rcases mem_awaited.mp member with waiting | serves
    · rw [empty] at waiting
      cases waiting
    · exact mem_awaited.mpr (.inr serves)
  | move move answered =>
    rcases move.handles.kept index member with still | replied
    · exact still
    · obtain ⟨_, stage⟩ := answered index replied call here
      rw [handed] at stage
      cases stage
  | delist => exact member

end

theorem coherent_step (coherent : Coherent manager)
    (step : manager.step setting label = some next) : Coherent next := by
  have change := change_of_step step
  have unused := coherent.unused
  refine ⟨?_, ?_, ?_, ?_, ?_⟩
  · intro lease holder found
    cases known : manager.holders.lookup lease with
    | none =>
      obtain ⟨_, _, _⟩ := change.begun known found
      omega
    | some before =>
      exact Nat.lt_of_lt_of_le (coherent.fresh lease before known) change.nextTransaction_le
  · refine change.holders unused (by simp [mem_awaited, Phase.serves]) ?_
    intro lease before after found evolves index member
    have known : ∃ call, manager.calls[index]? = some call ∧ call.lease = lease := by
      rcases evolves.awaited member with old | ⟨call, here, named, _⟩
      · exact coherent.awaited lease before found index old
      · exact ⟨call, here, named⟩
    obtain ⟨call, here, named⟩ := known
    obtain ⟨call', there, advances⟩ := change.advances here
    exact ⟨call', there, advances.lease.trans named⟩
  · refine change.holders unused (by simp) ?_
    intro lease before after found evolves
    exact evolves.drained (coherent.drained lease before found)
  · intro index call here stage
    rcases change.call here with ⟨before, known, advances⟩ | ⟨_, looking, _⟩
    · cases advances with
      | same =>
        obtain ⟨holder, found, member⟩ := coherent.handed index call known stage
        obtain ⟨after, there, evolves⟩ := change.evolves unused found
        exact ⟨after, there, evolves.keeps member here stage⟩
      | hand _ _ queued => exact ⟨_, queued, mem_awaited.mpr (.inl rfl)⟩
      | find | close | answer => cases stage
    · rw [stage] at looking
      cases looking
  · intro index call here stage
    rcases change.call here with ⟨_, known, advances⟩ | ⟨_, looking, _⟩
    · have found : ∃ holder, manager.holders.lookup call.lease = some holder := by
        cases advances with
        | same => exact coherent.sending index call known stage
        | find _ _ found _ => exact ⟨_, found⟩
        | hand | close | answer => cases stage
      obtain ⟨_, found⟩ := found
      obtain ⟨after, there, _⟩ := change.evolves unused found
      exact ⟨after, there⟩
    · rw [stage] at looking
      cases looking

end

end Usai.Postgres
