import Usai.Admission.Accounting
import Usai.Queue.Attempts

/-! The attempts of a message and the worlds that ran for it. The claim counts
the attempt before admission is asked for, and a refusal ends it like a failed
world, so the two agree only as long as every claimed message gets its world. -/

namespace Usai.Admission

open Revisions (RevisionId RevisionState)

def Accounts.Roomy (runtime : Accounts) (id : RevisionId) (workload : String) : Prop :=
  ∃ account ∈ runtime.accounts.lookup id,
    (account.state = .active ∨ account.state = .draining) ∧
    ∃ index ∈ workloadIndex account.definition workload,
      runtime.worldBudget.available ≠ 0 ∧ account.appBudget.available ≠ 0 ∧
        ∀ budget ∈ account.workloadBudget index, budget.available ≠ 0

instance (runtime : Accounts) (id : RevisionId) (workload : String) :
    Decidable (runtime.Roomy id workload) := by
  unfold Accounts.Roomy
  infer_instance

theorem Accounts.admitInFlight_roomy {runtime : Accounts} {id : RevisionId} {workload : String}
    (roomy : runtime.Roomy id workload) {account : Account}
    (found : runtime.accounts.lookup id = some account) :
    ∃ next admission, runtime.admitInFlight id account workload = (next, .ok admission) := by
  obtain ⟨_, same, state, index, inside, world, app, limited⟩ := roomy
  cases found.symm.trans same
  unfold admitInFlight admitWhen
  rw [if_pos (decide_eq_true state), show workloadIndex account.definition workload = some index from
    inside]
  unfold Accounts.acquire
  rcases acquireWorkload_cases { account with appBudget := account.appBudget.acquired } index with
    ⟨budget, present, exhausted, _⟩ | ⟨_, success⟩
  · exact absurd exhausted (limited budget present)
  · simp only [Budget.tryAcquire, if_neg world, if_neg app, success]
    exact ⟨_, _, rfl⟩

end Usai.Admission

namespace Usai.Queue

open Function List Transition

namespace Delivery

variable {delivery next : Delivery} {index : Nat} {consumer : Consumer} {event : Event}
  {claimed : Claimed}

def Waits (delivery : Delivery) (index : Nat) (consumer : Consumer) (claimed : Claimed) : Prop :=
  delivery.store.consumers[index]? = some consumer ∧ consumer.phase = .handling claimed ∧
    delivery.worlds index = false

/-- Every consumer that asks for admission finds room, no execution fails before
its world, and no consumer stops between its claim and its world. -/
def Admitted (delivery : Delivery) : Event → Prop
  | .admission index => ∀ owner ∈ delivery.owners[index]?,
      delivery.runtime.Roomy owner.revision owner.workload
  | .broken _ _ => False
  | .table (.stop index) => ∀ consumer ∈ delivery.store.consumers[index]?,
      ∀ claimed ∈ consumer.phase.claimed, consumer.phase = .handling claimed →
        delivery.worlds index = true
  | _ => True

instance (delivery : Delivery) (event : Event) : Decidable (Admitted delivery event) := by
  unfold Admitted
  split <;> infer_instance

theorem step_started_le (taken : delivery.step event = some next) (id : Nat) :
    delivery.started id ≤ next.started id := by
  rcases (step_moves taken).2.1 with ⟨same, _⟩ | ⟨_, _, claimed, _, _, _, started, _, _⟩
  · rw [same]
  · rw [started]
    by_cases here : id = claimed.id
    · subst here
      rw [update_self]
      exact Nat.le_succ _
    · rw [update_of_ne here]

theorem step_waits (waits : Waits delivery index consumer claimed)
    (admitted : Admitted delivery event) (taken : delivery.step event = some next) :
    Waits next index consumer claimed ∨
      next.started claimed.id = delivery.started claimed.id + 1 ∨
      (consumer.workload.issues claimed.payload).isEmpty = false := by
  obtain ⟨found, phase, idle⟩ := waits
  rcases (step_moves taken).2.1 with ⟨_, worlds⟩ | ⟨other, _, _, rfl, there, handling, started,
    running, same⟩
  · have still := worlds index idle
    cases (step_moves taken).1 with
    | none _ same => exact .inl ⟨by rw [same]; exact found, phase, still⟩
    | spawned _ _ _ longer =>
      refine .inl ⟨?_, phase, still⟩
      rw [longer, List.getElem?_append_left (List.getElem?_eq_some_iff.mp found).1]
      exact found
    | one position _ _ _ there advance moved =>
      by_cases here : position = index
      · subst here
        cases found.symm.trans there
        cases advance with
        | claimed _ _ free =>
          rw [phase] at free
          cases free
        | rejected _ handling invalid =>
          cases phase.symm.trans handling
          exact .inr (.inr invalid)
        | marked _ _ marking =>
          rw [phase] at marking
          cases marking
        | stopped =>
          have running := admitted consumer found claimed (by rw [phase]; rfl) phase
          rw [idle] at running
          cases running
        | refused _ owned lookup refusal _ =>
          obtain ⟨_, _, success⟩ :=
            Usai.Admission.Accounts.admitInFlight_roomy (admitted _ owned) lookup
          rw [success] at refusal
          cases refusal
        | broken => exact absurd admitted id
        | finished _ _ _ running =>
          rw [idle] at running
          cases running
      · refine .inl ⟨?_, phase, still⟩
        rw [moved, getElem?_set_ne here]
        exact found
  · by_cases here : other = index
    · subst here
      cases found.symm.trans there
      cases phase.symm.trans handling
      refine .inr (.inl ?_)
      rw [started, update_self]
    · refine .inl ⟨by rw [same]; exact found, phase, ?_⟩
      rw [running, update_of_ne (Ne.symm here)]
      exact idle

def Worked (delivery : Delivery) (id : Nat) (row : Row) : Prop :=
  row.attempts ≤ delivery.started id ∨
    row.attempts ≤ delivery.started id + 1 ∧
      ∃ index consumer claimed, Waits delivery index consumer claimed ∧ claimed.id = id

def Attended (delivery : Delivery) : Prop :=
  ∀ table ∈ delivery.tables, ∀ id row, table id = some row →
    ¬ Violates delivery.store.workloads row → Worked delivery id row

theorem new_attended (runtime : Usai.Admission.Accounts) : Attended (new runtime) := by
  intro table member id row found
  rw [mem_singleton.mp member] at found
  cases found

theorem Waits.holder (waits : Waits delivery index consumer claimed) :
    delivery.store.Holder index consumer claimed := ⟨waits.1, by rw [waits.2.1]; rfl⟩

theorem assumed_sweep (assumed : Assumed delivery event)
    (sweeper : event.sweeper = some workload) :
    ∀ consumer ∈ delivery.store.consumers, ∀ claimed ∈ consumer.phase.claimed,
      ∀ row ∈ delivery.store.rows claimed.id, row.lost workload delivery.store.clock = false := by
  unfold Event.sweeper at sweeper
  split at sweeper <;> cases sweeper
  · exact assumed
  · exact assumed

variable {id : Nat} {row : Row}

theorem Worked.of_unheld (worked : Worked delivery id row)
    (unheld : ∀ index consumer claimed, Waits delivery index consumer claimed → claimed.id ≠ id) :
    row.attempts ≤ delivery.started id := by
  rcases worked with bound | ⟨_, index, consumer, claimed, waits, same⟩
  · exact bound
  · exact absurd same (unheld index consumer claimed waits)

theorem Worked.kept (worked : Worked delivery id row)
    (tended : Tended delivery) (member : table ∈ delivery.tables) (found : table id = some row)
    (admitted : Admitted delivery event) (taken : delivery.step event = some next)
    (accepted : ¬ Violates delivery.store.workloads row) : Worked next id row := by
  have more := step_started_le taken id
  rcases worked with bound | ⟨bound, index, consumer, claimed, waits, rfl⟩
  · exact .inl (Nat.le_trans bound more)
  · rcases step_waits waits admitted taken with still | _ | invalid
    · refine .inr ⟨?_, index, consumer, claimed, still, rfl⟩
      omega
    · refine .inl ?_
      omega
    · obtain ⟨_, there, held⟩ := (tended.sound table member).held index consumer claimed waits.holder
      cases found.symm.trans there
      rw [← held.payload] at invalid
      have workload : consumer.workload ∈ delivery.store.workloads :=
        mem_map_of_mem (mem_of_getElem? waits.1)
      exact absurd ⟨consumer.workload, workload, held.topic.symm, invalid⟩ accepted

theorem claim_waits (tended : Tended delivery)
    (found : delivery.store.consumers[index]? = some consumer)
    (assumed : Assumed delivery (.table (.claim index id answered)))
    (taken : delivery.step (.table (.claim index id answered)) = some next) :
    ∃ taking claimed, Waits next index taking claimed ∧ claimed.id = id := by
  have answers : answered = true := assumed
  subst answers
  obtain ⟨_, _, steps, rfl⟩ := table_cases taken
  obtain ⟨_, there, claims⟩ := Option.bind_eq_some_iff.mp steps
  cases found.symm.trans there
  obtain ⟨_, _, idle, _, rfl⟩ := Store.claim_cases claims
  have free : delivery.worlds index = false := by
    refine tended.no_world found ?_
    intro claimed handling
    rw [idle] at handling
    cases handling
  have inside := (List.getElem?_eq_some_iff.mp found).1
  exact ⟨_, _, ⟨getElem?_set_self inside, rfl, free⟩, rfl⟩

theorem Written.worked (written : Written delivery event id row)
    (tended : Tended delivery) (attended : Attended delivery) (assumed : Assumed delivery event)
    (admitted : Admitted delivery event) (taken : delivery.step event = some next)
    (accepted : ¬ Violates delivery.store.workloads row) : Worked next id row := by
  have current : ∀ id row, delivery.store.rows id = some row →
      ¬ Violates delivery.store.workloads row → Worked delivery id row :=
    attended _ mem_cons_self
  cases written with
  | published => exact .inl (Nat.zero_le _)
  | @claimed index id consumer row answered found present claimable =>
    simp only [Row.claimable, decide_eq_true_eq] at claimable
    have settled : row.state ≠ .processing := by
      rw [claimable.2.1]
      decide
    have bound : row.attempts ≤ delivery.started id := by
      refine (current id row present accepted).of_unheld ?_
      intro other rival claimed waits
      exact tended.unheld present settled waits.holder
    have more := step_started_le taken id
    obtain ⟨taking, claimed, waits, same⟩ := claim_waits tended found assumed taken
    exact .inr ⟨by simp only [Row.claim]; omega, index, taking, claimed, waits, same⟩
  | @rejected index consumer claimed row detail found phase invalid present =>
    have holds : delivery.store.Holder index consumer claimed := ⟨found, by rw [phase]; rfl⟩
    obtain ⟨kept, there, held⟩ := tended.current.held index consumer claimed holds
    cases present.symm.trans there
    rw [← held.payload] at invalid
    have workload : consumer.workload ∈ delivery.store.workloads :=
      mem_map_of_mem (mem_of_getElem? found)
    exact absurd ⟨consumer.workload, workload, held.topic.symm, invalid⟩ accepted
  | @marked index consumer claimed row mark again answered found phase present =>
    have same : (mark.apply delivery.store.clock row).attempts = row.attempts ∧
        (Violates delivery.store.workloads (mark.apply delivery.store.clock row) ↔
          Violates delivery.store.workloads row) := by
      cases mark <;> exact ⟨rfl, Iff.rfl⟩
    have bound : row.attempts ≤ delivery.started claimed.id := by
      refine (current _ row present (fun violates => accepted (same.2.mpr violates))).of_unheld ?_
      intro other rival contested waits shared
      have holds : delivery.store.Holder index consumer claimed := ⟨found, by rw [phase]; rfl⟩
      cases tended.apart other rival contested index consumer claimed waits.holder holds shared
      cases found.symm.trans waits.1
      cases phase.symm.trans waits.2.1
    refine .inl ?_
    rw [same.1]
    exact Nat.le_trans bound (step_started_le taken _)
  | @swept _ row _ _ id sweeper present swept =>
    have before : ¬ Violates delivery.store.workloads row := by
      intro violates
      refine accepted ?_
      rw [Violates, swept.topic, swept.payload]
      exact violates
    have worked := current id row present before
    rcases swept.change with rfl | ⟨lost, _⟩
    · exact worked.kept tended mem_cons_self present admitted taken accepted
    · have bound : row.attempts ≤ delivery.started id := by
        refine worked.of_unheld ?_
        rintro _ rival claimed waits rfl
        have held := assumed_sweep assumed sweeper rival (mem_of_getElem? waits.1) claimed
          waits.holder.2 row present
        rw [lost] at held
        cases held
      refine .inl ?_
      rw [swept.attempts]
      exact Nat.le_trans bound (step_started_le taken _)

theorem step_attended (tended : Tended delivery) (attended : Attended delivery)
    (assumed : Assumed delivery event) (durable : Durable delivery event)
    (admitted : Admitted delivery event) (taken : delivery.step event = some next) :
    Attended next := by
  intro table member id row there accepted
  have before : ¬ Violates delivery.store.workloads row := by
    intro violates
    refine accepted ?_
    rw [(step_moves taken).1.workloads]
    exact violates_append event.joins violates
  rcases step_written durable taken member there with ⟨old, earlier, found⟩ | written
  · exact (attended old earlier id row found before).kept tended earlier found admitted taken before
  · exact written.worked tended attended assumed admitted taken before

/-- What the attempts of a message say of its worlds: all have run, unless a
consumer holds the message and is about to start the last one. A message that
is dead has had a world for each of them. -/
def Earned (delivery : Delivery) (id : Nat) (row : Row) : Prop :=
  (row.state ≠ .processing → row.attempts = delivery.started id) ∧
    (row.state = .processing → row.attempts = delivery.started id ∨
      row.attempts = delivery.started id + 1 ∧
        ∃ index consumer claimed, Waits delivery index consumer claimed ∧ claimed.id = id)

theorem earned_of_attended (tended : Tended delivery) (attended : Attended delivery)
    (found : delivery.store.rows id = some row)
    (accepted : ¬ Violates delivery.store.workloads row) : Earned delivery id row := by
  have worked := attended _ mem_cons_self id row found accepted
  have counted := tended.current.counted id row found
  constructor
  · intro settled
    refine Nat.le_antisymm (worked.of_unheld ?_) counted
    intro index consumer claimed waits
    exact tended.unheld found settled waits.holder
  · intro _
    rcases worked with bound | ⟨bound, waits⟩
    · exact .inl (Nat.le_antisymm bound counted)
    · by_cases started : row.attempts = delivery.started id
      · exact .inl started
      · refine .inr ⟨?_, waits⟩
        omega

/-- In a run in which each claimed message finds room for its world, a message
that satisfies the contracts of its topic is dead, or ready once more, only when
a world was started for each of its attempts. -/
theorem attempts_are_worlds (runtime : Usai.Admission.Accounts) (events : List Event)
    (meets : Meets step (fun delivery event => Assumed delivery event ∧ Durable delivery event ∧
      Admitted delivery event) (new runtime) events) :
    Along step (fun delivery => ∀ id row, delivery.store.rows id = some row →
      ¬ Violates delivery.store.workloads row → Earned delivery id row) (new runtime) events := by
  have kept : Along step (fun delivery => Tended delivery ∧ Attended delivery) (new runtime) events := by
    refine along_of_meets ?_ ⟨new_tended runtime, new_attended runtime⟩ meets
    intro delivery event next invariant allowed taken
    obtain ⟨tended, attended⟩ := invariant
    obtain ⟨assumed, durable, admitted⟩ := allowed
    exact ⟨step_tended tended assumed durable taken,
      step_attended tended attended assumed durable admitted taken⟩
  refine along_imp ?_ kept
  intro delivery invariant id row found accepted
  exact earned_of_attended invariant.1 invariant.2 found accepted

theorem attempts_are_worlds_second_try :
    Meets step (fun delivery event => Assumed delivery event ∧ Durable delivery event ∧
        Admitted delivery event) (new (Usai.Admission.Accounts.new 2 2)) secondTry ∧
    Along step (fun delivery => ∀ id row, delivery.store.rows id = some row →
      ¬ Violates delivery.store.workloads row → Earned delivery id row)
      (new (Usai.Admission.Accounts.new 2 2)) secondTry := by
  refine ⟨?meets, attempts_are_worlds _ _ ?meets⟩
  decide +kernel

/-- The runtime has one world, and the first message keeps it. The second
consumer claims the second message, is refused, and the message is dead. -/
def refusedOrder : List Event :=
  oneOrder 1 ++ [.table (.publish "orders" "43" 0), .table (.claim 0 1 true), .admission 0,
    .table (.claim 1 2 true), .admission 1, .table (.mark 1 true true)]

theorem refused_message_dead :
    Meets step (fun delivery event => Assumed delivery event ∧ Durable delivery event)
      (new (Usai.Admission.Accounts.new 1 1)) refusedOrder ∧
    ((exec step (new (Usai.Admission.Accounts.new 1 1)) refusedOrder).map (fun delivery =>
      (delivery.started 2, (delivery.store.rows 2).map (fun row =>
        (row.state, row.attempts, row.lastError))))) =
      some (0, some (.dead, 1, some "runtime.worlds budget exhausted (1 in use)")) ∧
    ((exec step (new (Usai.Admission.Accounts.new 1 1)) refusedOrder).map (fun delivery =>
      delivery.store.workloads.all (fun workload => (workload.issues "43").isEmpty))) =
      some true := by
  exact ⟨by decide +kernel, by decide +kernel, by decide +kernel⟩

end Delivery

end Usai.Queue
