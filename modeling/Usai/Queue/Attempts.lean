import Usai.Queue.Marks
import Usai.Queue.Tended
import Usai.Tally

/-! How often a message is tried. All consumers of a topic have one retry
policy; then the attempts of a row never pass its bound, and a row is dead only
at the bound or because a consumer's contract refused it. -/

namespace Usai.Queue

open Function List Option Slots Transition

def Store.workloads (store : Store) : List Workload := store.consumers.map Consumer.workload

def Violates (workloads : List Workload) (row : Row) : Prop :=
  ∃ workload ∈ workloads, workload.topic = row.topic ∧ (workload.issues row.payload).isEmpty = false

theorem violates_append (joins : List Workload)
    (violates : Violates workloads row) : Violates (workloads ++ joins) row := by
  obtain ⟨workload, member, refuses⟩ := violates
  exact ⟨workload, mem_append_left _ member, refuses⟩

def Event.joins : Event → List Workload
  | .spawn _ workload _ => [workload]
  | _ => []

def Event.aside : Event → Bool
  | .spawn _ _ _ | .runtime _ | .admission _ | .broken _ _ | .finish _ _ _ => true
  | .table _ | .prune _ _ | .flush _ | .crash _ => false

def Event.sweeper : Event → Option Workload
  | .table (.sweepReady workload) | .table (.sweepDead workload) => some workload
  | _ => none

namespace Delivery

variable {delivery next : Delivery} {index : Nat} {consumer : Consumer} {event : Event}

inductive Written (delivery : Delivery) : Event → Nat → Row → Prop where
  | published (topic payload : String) (delay : Nat) :
      Written delivery (.table (.publish topic payload delay)) delivery.store.nextId
        ⟨topic, payload, .ready, 0, delivery.store.clock + delay, none, none, none,
          delivery.store.clock, false⟩
  | claimed {index id : Nat} {consumer : Consumer} {row : Row} (answered : Bool)
      (found : delivery.store.consumers[index]? = some consumer)
      (present : delivery.store.rows id = some row)
      (claimable : row.claimable consumer.workload delivery.store.clock = true) :
      Written delivery (.table (.claim index id answered)) id
        (row.claim consumer.lockedBy delivery.store.clock)
  | rejected {index : Nat} {consumer : Consumer} {claimed : Claimed} {row : Row} (detail : String)
      (found : delivery.store.consumers[index]? = some consumer)
      (phase : consumer.phase = .handling claimed)
      (invalid : (consumer.workload.issues claimed.payload).isEmpty = false)
      (present : delivery.store.rows claimed.id = some row) :
      Written delivery (.table (.reject index true)) claimed.id
        ((Mark.invalid detail).apply delivery.store.clock row)
  | marked {index : Nat} {consumer : Consumer} {claimed : Claimed} {row : Row} {mark : Mark}
      {again : Bool} (answered : Bool)
      (found : delivery.store.consumers[index]? = some consumer)
      (phase : consumer.phase = .marking claimed mark again)
      (present : delivery.store.rows claimed.id = some row) :
      Written delivery (.table (.mark index true answered)) claimed.id
        (mark.apply delivery.store.clock row)
  | swept {event : Event} {id : Nat}
      (sweeper : event.sweeper = some workload) (present : delivery.store.rows id = some row)
      (swept : Swept workload delivery.store.clock row later) : Written delivery event id later

variable {workload : Workload} {id : Nat} {later row : Row} {claimed : Claimed}

theorem written_writeAll {change : Row → Row} (sweeper : event.sweeper = some workload)
    (swept : ∀ row, Swept workload delivery.store.clock row (change row))
    (found : (delivery.store.writeAll change).rows id = some later) :
    Written delivery event id later := by
  obtain ⟨row, present, rfl⟩ := map_eq_some_iff.mp found
  exact .swept sweeper present (swept row)

theorem written_of_table {store : Store} (direct : label.direct = true)
    (taken : delivery.store.step label = some store)
    (there : store.rows id = some later) :
    delivery.store.rows id = some later ∨ Written delivery (.table label) id later := by
  cases label with
  | publish topic payload delay =>
    cases taken
    by_cases here : id = delivery.store.nextId
    · subst here
      cases (if_pos rfl).symm.trans there
      exact .inr (.published topic payload delay)
    · exact .inl ((if_neg here).symm.trans there)
  | tick =>
    cases taken
    exact .inl there
  | spawn | finish => cases direct
  | claim _ claims answered =>
    obtain ⟨consumer, found, taken⟩ := bind_eq_some_iff.mp taken
    obtain ⟨row, present, _, claimable, rfl⟩ := Store.claim_cases taken
    have written : (delivery.store.write claims
        (Row.claim consumer.lockedBy delivery.store.clock)).rows id = some later := by
      cases answered <;> exact there
    rcases Store.write_rows written with ⟨rfl, _, same, rfl⟩ | ⟨_, before⟩
    · cases present.symm.trans same
      exact .inr (.claimed answered found present claimable)
    · exact .inl before
  | reject _ applied =>
    obtain ⟨consumer, found, taken⟩ := bind_eq_some_iff.mp taken
    obtain ⟨claimed, phase, invalid, rfl⟩ := Store.reject_cases taken
    cases applied with
    | false => exact .inl there
    | true =>
      rcases Store.write_rows there with ⟨rfl, row, present, rfl⟩ | ⟨_, before⟩
      · exact .inr (.rejected _ found phase invalid present)
      · exact .inl before
  | mark _ applied answered =>
    obtain ⟨consumer, found, taken⟩ := bind_eq_some_iff.mp taken
    obtain ⟨_, _, _, phase, _, rfl⟩ := Store.mark_cases taken
    cases applied with
    | false => exact .inl there
    | true =>
      rcases Store.write_rows there with ⟨rfl, _, present, rfl⟩ | ⟨_, before⟩
      · exact .inr (.marked answered found phase present)
      · exact .inl before
  | stop =>
    obtain ⟨_, _, rfl⟩ := map_eq_some_iff.mp taken
    exact .inl there
  | sweepReady workload =>
    cases taken
    exact .inr (written_writeAll rfl (sweepReady_swept workload _) there)
  | sweepDead workload =>
    cases taken
    exact .inr (written_writeAll rfl (sweepDead_swept workload _) there)
  | forget =>
    cases taken
    exact .inl (filter_eq_some_iff.mp there).1

inductive Advance (delivery : Delivery) (index : Nat) (consumer : Consumer) :
    Event → Phase → Prop where
  | claimed (id : Nat) (claimed : Claimed) (idle : consumer.phase = .idle) :
      Advance delivery index consumer (.table (.claim index id true)) (.handling claimed)
  | rejected {claimed : Claimed} (applied : Bool) (phase : consumer.phase = .handling claimed)
      (invalid : (consumer.workload.issues claimed.payload).isEmpty = false) :
      Advance delivery index consumer (.table (.reject index applied)) .idle
  | marked {claimed : Claimed} (applied answered : Bool)
      (phase : consumer.phase = .marking claimed mark again) :
      Advance delivery index consumer (.table (.mark index applied answered))
        (if answered ∨ again then .idle else .marking claimed mark true)
  | stopped : Advance delivery index consumer (.table (.stop index)) .stopped
  | refused {claimed : Claimed} (error : String)
      {runtime : Usai.Admission.Accounts} (owned : delivery.owners[index]? = some owner)
      (lookup : delivery.runtime.accounts.lookup owner.revision = some account)
      (refusal : delivery.runtime.admitInFlight owner.revision account owner.workload =
        (runtime, .error reason))
      (phase : consumer.phase = .handling claimed) :
      Advance delivery index consumer (.admission index)
        (.marking claimed (outcome consumer.workload claimed (.error error)) false)
  | broken {claimed : Claimed} (error : String) (phase : consumer.phase = .handling claimed) :
      Advance delivery index consumer (.broken index error)
        (.marking claimed (outcome consumer.workload claimed (.error error)) false)
  | finished {claimed : Claimed} (termination : Usai.Execution.Termination)
      (result : Option (Except GuestError Unit)) (phase : consumer.phase = .handling claimed)
      (running : delivery.worlds index = true) :
      Advance delivery index consumer (.finish index termination result)
        (.marking claimed (outcome consumer.workload claimed (worldResult termination result)) false)

inductive Moved (delivery next : Delivery) (event : Event) : Prop where
  | none (joins : event.joins = [])
      (same : next.store.consumers = delivery.store.consumers)
  | spawned (workload : Workload) (lockedBy : String) (joins : event.joins = [workload])
      (longer : next.store.consumers = delivery.store.consumers ++ [⟨workload, lockedBy, .idle⟩])
  | one (index : Nat) (consumer : Consumer) (phase : Phase) (joins : event.joins = [])
      (found : delivery.store.consumers[index]? = some consumer)
      (advance : Advance delivery index consumer event phase)
      (moved : next.store.consumers =
        delivery.store.consumers.set index { consumer with phase := phase })

theorem moved_of_table {store : Store} (direct : label.direct = true)
    (taken : delivery.store.step label = some store) :
    Moved delivery (delivery.written label store) (.table label) := by
  cases label with
  | publish | tick | sweepReady | sweepDead | forget =>
    cases taken
    exact .none rfl rfl
  | spawn | finish => cases direct
  | claim index id answered =>
    obtain ⟨consumer, found, claims⟩ := bind_eq_some_iff.mp taken
    obtain ⟨_, _, idle, _, rfl⟩ := Store.claim_cases claims
    cases answered with
    | false => exact .none rfl rfl
    | true => exact .one index consumer _ rfl found (.claimed id _ idle) rfl
  | reject index applied =>
    obtain ⟨consumer, found, rejects⟩ := bind_eq_some_iff.mp taken
    obtain ⟨claimed, phase, invalid, rfl⟩ := Store.reject_cases rejects
    refine .one index consumer _ rfl found (.rejected applied phase invalid) ?_
    cases applied <;> rfl
  | mark index applied answered =>
    obtain ⟨consumer, found, marks⟩ := bind_eq_some_iff.mp taken
    obtain ⟨_, _, _, phase, _, rfl⟩ := Store.mark_cases marks
    refine .one index consumer _ rfl found (.marked applied answered phase) ?_
    cases applied <;> rfl
  | stop index =>
    obtain ⟨consumer, found, rfl⟩ := map_eq_some_iff.mp taken
    exact .one index consumer _ rfl found .stopped rfl

def Starts (delivery next : Delivery) (event : Event) : Prop :=
  (next.started = delivery.started ∧
    ∀ index, delivery.worlds index = false → next.worlds index = false) ∨
  ∃ index consumer claimed, event = .admission index ∧
    delivery.store.consumers[index]? = some consumer ∧ consumer.phase = .handling claimed ∧
    next.started = Function.update delivery.started claimed.id (delivery.started claimed.id + 1) ∧
    next.worlds = Function.update delivery.worlds index true ∧ next.store = delivery.store

theorem Starts.none (started : next.started = delivery.started)
    (worlds : next.worlds = delivery.worlds) : Starts delivery next event :=
  .inl ⟨started, fun _ idle => by rw [worlds]; exact idle⟩

theorem Starts.ended (started : next.started = delivery.started)
    (worlds : next.worlds = update delivery.worlds index false) :
    Starts delivery next event := by
  refine .inl ⟨started, fun other idle => ?_⟩
  rw [worlds]
  by_cases here : other = index
  · subst here
    exact update_self _ _ _
  · exact (update_of_ne here _ _).trans idle

theorem step_moves (taken : delivery.step event = some next) :
    Moved delivery next event ∧ Starts delivery next event ∧
      (event.aside = true → next.tables = delivery.tables) := by
  cases event with
  | spawn _ workload lockedBy =>
    cases taken
    exact ⟨.spawned workload lockedBy rfl rfl, .none rfl rfl, fun _ => rfl⟩
  | table label =>
    obtain ⟨direct, _, steps, rfl⟩ := table_cases taken
    refine ⟨moved_of_table direct steps, ?_, nofun⟩
    cases label with
    | stop => exact .ended rfl rfl
    | publish | tick | spawn | claim | reject | finish | mark | sweepReady | sweepDead | forget =>
      exact .none rfl rfl
  | runtime =>
    obtain ⟨runtime, _, rfl⟩ := map_eq_some_iff.mp taken
    exact ⟨.none rfl rfl, .none rfl rfl, fun _ => rfl⟩
  | admission index =>
    obtain ⟨consumer, found, rest⟩ := bind_eq_some_iff.mp taken
    obtain ⟨_, owned, asks⟩ := bind_eq_some_iff.mp rest
    obtain ⟨claimed, account, phase, _, _, lookup, ⟨runtime, _, _, rfl⟩ |
      ⟨runtime, error, refusal, rfl⟩⟩ := askAdmission_cases asks
    · exact ⟨.none rfl rfl, .inr ⟨index, consumer, claimed, rfl, found, phase, rfl, rfl, rfl⟩,
        fun _ => rfl⟩
    · exact ⟨.one index consumer _ rfl found (.refused _ owned lookup refusal phase) rfl,
        .none rfl rfl, fun _ => rfl⟩
  | broken index error =>
    obtain ⟨consumer, found, breaks⟩ := bind_eq_some_iff.mp taken
    obtain ⟨claimed, phase, _, rfl⟩ := breakDown_cases breaks
    exact ⟨.one index consumer _ rfl found (.broken error phase) rfl, .none rfl rfl, fun _ => rfl⟩
  | finish index termination result =>
    obtain ⟨consumer, found, finishes⟩ := bind_eq_some_iff.mp taken
    obtain ⟨_, phase, running, rfl⟩ := finish_cases finishes
    exact ⟨.one index consumer _ rfl found (.finished termination result phase running) rfl,
      .ended rfl rfl, fun _ => rfl⟩
  | prune | flush =>
    cases taken
    exact ⟨.none rfl rfl, .none rfl rfl, nofun⟩
  | crash =>
    obtain ⟨_, _, same⟩ := bind_eq_some_iff.mp taken
    cases same
    exact ⟨.none rfl rfl, .none rfl rfl, nofun⟩

theorem step_written (durable : Durable delivery event) (taken : delivery.step event = some next)
    (member : table ∈ next.tables)
    (there : table id = some row) :
    (∃ old ∈ delivery.tables, old id = some row) ∨ Written delivery event id row := by
  have same := (step_moves taken).2.2
  cases event with
  | spawn | runtime | admission | broken | finish => exact .inl ⟨table, same rfl ▸ member, there⟩
  | table =>
    obtain ⟨direct, _, steps, rfl⟩ := table_cases taken
    rcases written_tables member with rfl | ⟨earlier, _⟩
    · rcases written_of_table direct steps there with before | written
      · exact .inl ⟨_, mem_cons_self, before⟩
      · exact .inr written
    · exact .inl ⟨table, earlier, there⟩
  | prune =>
    cases taken
    rw [mem_singleton.mp member] at there
    exact .inl ⟨_, mem_cons_self, (filter_eq_some_iff.mp there).1⟩
  | flush =>
    cases taken
    rcases mem_cons.mp member with rfl | earlier
    · exact .inl ⟨_, mem_cons_self, there⟩
    · exact .inl ⟨table, mem_cons_of_mem _ (mem_restorable_take earlier), there⟩
  | crash =>
    obtain ⟨tables, _, _⟩ := crash_tables durable taken
    exact .inl ⟨table, tables table member, there⟩

theorem Moved.workloads (moved : Moved delivery next event) :
    next.store.workloads = delivery.store.workloads ++ event.joins := by
  cases moved with
  | none joins same => rw [Store.workloads, same, joins, append_nil]; rfl
  | spawned _ _ joins longer =>
    rw [Store.workloads, longer, joins, map_append]
    rfl
  | one _ consumer phase joins found _ moved =>
    have same : Consumer.workload { consumer with phase := phase } = consumer.workload := rfl
    rw [Store.workloads, moved, joins, append_nil,
      Tally.map_set_same Consumer.workload found same]
    rfl

theorem Moved.marking (moved : Moved delivery next event)
    (found : next.store.consumers[index]? = some consumer)
    (phase : consumer.phase = .marking claimed mark again) :
    ∃ earlier, delivery.store.consumers[index]? = some earlier ∧
      earlier.workload = consumer.workload ∧
      ((∃ before, earlier.phase = .marking claimed mark before) ∨
        earlier.phase = .handling claimed ∧
          ∃ result, mark = outcome consumer.workload claimed result) := by
  cases moved with
  | none _ same =>
    rw [same] at found
    exact ⟨consumer, found, rfl, .inl ⟨again, phase⟩⟩
  | spawned _ _ _ longer =>
    rw [longer] at found
    rcases of_getElem?_append found with before | ⟨_, rfl⟩
    · exact ⟨consumer, before, rfl, .inl ⟨again, phase⟩⟩
    · cases phase
  | one _ mover _ _ there advance moved =>
    rw [moved] at found
    rcases of_getElem?_set found with ⟨rfl, rfl⟩ | ⟨_, before⟩
    · refine ⟨mover, there, rfl, ?_⟩
      cases advance with
      | claimed | rejected | stopped => cases phase
      | marked _ _ earlier =>
        split at phase <;> cases phase
        exact .inl ⟨_, earlier⟩
      | refused _ _ _ _ earlier | broken _ earlier | finished _ _ earlier _ =>
        cases phase
        exact .inr ⟨earlier, _, rfl⟩
    · exact ⟨consumer, before, rfl, .inl ⟨again, phase⟩⟩

def Uniform (policy : String → RetryPolicy) (_ : Delivery) (event : Event) : Prop :=
  (∀ workload ∈ event.joins, workload.retry = policy workload.topic) ∧
    ∀ workload ∈ event.sweeper, workload.retry = policy workload.topic

instance (policy : String → RetryPolicy) (delivery : Delivery) (event : Event) :
    Decidable (Uniform policy delivery event) := by
  unfold Uniform
  infer_instance

structure Within (policy : String → RetryPolicy) (workloads : List Workload) (row : Row) :
    Prop where
  attempts : row.attempts ≤ (policy row.topic).bound
  ready : row.state = .ready → row.attempts < (policy row.topic).bound
  dead : row.state = .dead → (policy row.topic).bound ≤ row.attempts ∨ Violates workloads row

def Fits (retry : RetryPolicy) (claimed : Claimed) : Mark → Prop
  | .done => True
  | .retry _ _ => claimed.attempts < retry.bound
  | .dead _ => retry.bound ≤ claimed.attempts
  | .invalid _ => False

structure Policed (policy : String → RetryPolicy) (delivery : Delivery) : Prop where
  uses : ∀ workload ∈ delivery.store.workloads, workload.retry = policy workload.topic
  marks : ∀ (index : Nat) consumer claimed mark again,
    delivery.store.consumers[index]? = some consumer →
    consumer.phase = .marking claimed mark again → Fits consumer.workload.retry claimed mark
  rows : ∀ table ∈ delivery.tables, ∀ id row, table id = some row →
    Within policy delivery.store.workloads row

variable {policy : String → RetryPolicy}

theorem new_policed (policy : String → RetryPolicy) (runtime : Usai.Admission.Accounts) :
    Policed policy (new runtime) where
  uses := by intro workload member; cases member
  marks := by intro index consumer claimed mark again found; cases found
  rows := by
    intro table member id row found
    rw [mem_singleton.mp member] at found
    cases found

theorem outcome_fits (workload : Workload) (positive : 0 < claimed.attempts)
    (result : Except String Unit) : Fits workload.retry claimed (outcome workload claimed result) := by
  have attempt : max claimed.attempts 1 = claimed.attempts := by omega
  cases result with
  | ok => trivial
  | error =>
    simp only [outcome, attempt]
    split
    · next left =>
      show claimed.attempts < max workload.retry.maxAttempts 1
      omega
    · next out =>
      show max workload.retry.maxAttempts 1 ≤ claimed.attempts
      omega

theorem Within.appended (joins : List Workload)
    (within : Within policy workloads row) : Within policy (workloads ++ joins) row where
  attempts := within.attempts
  ready := within.ready
  dead := by
    intro dead
    rcases within.dead dead with spent | violates
    · exact .inl spent
    · exact .inr (violates_append joins violates)

theorem marked_within
    (same : workload.retry = policy workload.topic) (held : Held workload claimed row)
    (fits : Fits workload.retry claimed mark)
    (before : Within policy workloads row) (now : Nat) :
    Within policy workloads (mark.apply now row) := by
  rw [same, ← held.topic] at fits
  have attempts := held.attempts
  cases mark with
  | done => exact ⟨before.attempts, (by intro ready; cases ready), (by intro dead; cases dead)⟩
  | retry =>
    refine ⟨before.attempts, ?_, (by intro dead; cases dead)⟩
    intro _
    exact Nat.lt_of_le_of_lt (Nat.le_of_eq attempts) fits
  | dead =>
    refine ⟨before.attempts, (by intro ready; cases ready), ?_⟩
    intro _
    exact .inl (Nat.le_trans fits (Nat.le_of_eq attempts.symm))
  | invalid => exact absurd fits id

theorem swept_within (same : workload.retry = policy workload.topic)
    (swept : Swept workload now row later) (before : Within policy workloads row) :
    Within policy workloads later := by
  rcases swept.change with rfl | ⟨lost, change⟩
  · exact before
  · simp only [Row.lost, decide_eq_true_eq] at lost
    rw [same, ← lost.1] at change
    refine ⟨?_, ?_, ?_⟩
    · rw [swept.topic, swept.attempts]
      exact before.attempts
    · intro ready
      rw [swept.topic, swept.attempts]
      rcases change with ⟨_, left⟩ | ⟨dead, _⟩
      · exact left
      · rw [dead] at ready
        cases ready
    · intro dead
      rw [swept.topic, swept.attempts]
      rcases change with ⟨ready, _⟩ | ⟨_, spent⟩
      · rw [ready] at dead
        cases dead
      · exact .inl spent

theorem Written.within (written : Written delivery event id row)
    (tended : Tended delivery) (policed : Policed policy delivery)
    (uniform : Uniform policy delivery event) : Within policy delivery.store.workloads row := by
  have current : ∀ id row, delivery.store.rows id = some row →
      Within policy delivery.store.workloads row := policed.rows _ mem_cons_self
  have member : ∀ {index : Nat} {consumer : Consumer},
      delivery.store.consumers[index]? = some consumer →
      consumer.workload ∈ delivery.store.workloads := by
    intro index consumer found
    exact mem_map_of_mem (mem_of_getElem? found)
  cases written with
  | published topic _ _ =>
    have positive : 0 < (policy topic).bound := Nat.le_max_right _ _
    exact ⟨Nat.zero_le _, fun _ => positive, (by intro dead; cases dead)⟩
  | @claimed index id consumer row answered found present claimable =>
    simp only [Row.claimable, decide_eq_true_eq] at claimable
    have left := (current id row present).ready claimable.2.1
    exact ⟨left, (by intro ready; cases ready), (by intro dead; cases dead)⟩
  | @rejected index consumer claimed row detail found phase invalid present =>
    have holds : delivery.store.Holder index consumer claimed := ⟨found, by rw [phase]; rfl⟩
    obtain ⟨kept, there, held⟩ := tended.current.held index consumer claimed holds
    cases present.symm.trans there
    refine ⟨(current _ row present).attempts, (by intro ready; cases ready), ?_⟩
    intro _
    rw [← held.payload] at invalid
    exact .inr ⟨consumer.workload, member found, held.topic.symm, invalid⟩
  | @marked index consumer claimed row mark again answered found phase present =>
    have holds : delivery.store.Holder index consumer claimed := ⟨found, by rw [phase]; rfl⟩
    obtain ⟨_, there, held⟩ := tended.current.held index consumer claimed holds
    cases present.symm.trans there
    exact marked_within (policed.uses _ (member found)) held
      (policed.marks index consumer claimed mark again found phase) (current _ row present) _
  | swept sweeper present swept =>
    exact swept_within (uniform.2 _ sweeper) swept (current _ _ present)

theorem step_policed (tended : Tended delivery) (policed : Policed policy delivery)
    (durable : Durable delivery event) (uniform : Uniform policy delivery event)
    (taken : delivery.step event = some next) : Policed policy next := by
  have moved := (step_moves taken).1
  have workloads := moved.workloads
  constructor
  case uses =>
    intro workload member
    rw [workloads] at member
    rcases mem_append.mp member with before | joins
    · exact policed.uses workload before
    · exact uniform.1 workload joins
  case marks =>
    intro index consumer claimed mark again found phase
    obtain ⟨earlier, there, same, ⟨before, marking⟩ | ⟨handling, result, rfl⟩⟩ :=
      moved.marking found phase
    · rw [← same]
      exact policed.marks index earlier claimed mark before there marking
    · have positive := tended.positive index earlier claimed ⟨there, by rw [handling]; rfl⟩
      exact outcome_fits consumer.workload positive result
  case rows =>
    intro table member id row there
    rw [workloads]
    rcases step_written durable taken member there with ⟨old, earlier, before⟩ | written
    · exact (policed.rows old earlier id row before).appended event.joins
    · exact (written.within tended policed uniform).appended event.joins

structure Delivered (policy : String → RetryPolicy) (delivery : Delivery) (id : Nat) : Prop where
  state : ∃! state, (delivery.store.rows id).map Row.state = some state
  starts : ∀ row ∈ delivery.store.rows id, delivery.started id ≤ (policy row.topic).bound
  done : ∀ row ∈ delivery.store.rows id, row.state = .done → delivery.succeeded id = true
  dead : ∀ row ∈ delivery.store.rows id, row.state = .dead →
    (policy row.topic).bound ≤ row.attempts ∨ Violates delivery.store.workloads row

theorem delivered_of_policed (tended : Tended delivery) (policed : Policed policy delivery)
    (positive : 0 < id) (published : id < delivery.store.nextId) (kept : id ∉ delivery.pruned) :
    Delivered policy delivery id := by
  obtain ⟨row, found⟩ := tended.current.kept id positive published kept
  have within := policed.rows _ mem_cons_self id row found
  have started := tended.current.counted id row found
  constructor
  case state =>
    refine ⟨row.state, by rw [found]; rfl, ?_⟩
    intro state same
    rw [found] at same
    exact (some.inj same).symm
  case starts =>
    intro other member
    cases found.symm.trans member
    exact Nat.le_trans started within.attempts
  case done =>
    intro other member done
    cases found.symm.trans member
    exact tended.current.finished id row found done
  case dead =>
    intro other member dead
    cases found.symm.trans member
    exact within.dead dead

theorem exec_policed {runtime : Usai.Admission.Accounts}
    (meets : Meets step (fun delivery event => Assumed delivery event ∧ Durable delivery event ∧
      Uniform policy delivery event) (new runtime) events) :
    Along step (fun delivery => Tended delivery ∧ Policed policy delivery) (new runtime) events := by
  refine along_of_meets ?_ ⟨new_tended runtime, new_policed policy runtime⟩ meets
  intro delivery event next invariant allowed taken
  obtain ⟨tended, policed⟩ := invariant
  obtain ⟨assumed, durable, uniform⟩ := allowed
  exact ⟨step_tended tended assumed durable taken,
    step_policed tended policed durable uniform taken⟩

/-- Every message that was published and never pruned is in one state; it is
tried at most as often as the policy of its topic says, it is done only after a
world of it has succeeded, and dead only when it has had all its attempts or its
payload violates the contract. The claims themselves must not be lost, since a
lost one is an attempt that is not counted. -/
theorem attempts_bounded (policy : String → RetryPolicy) (runtime : Usai.Admission.Accounts)
    (events : List Event)
    (meets : Meets step (fun delivery event => Assumed delivery event ∧ Durable delivery event ∧
      Uniform policy delivery event) (new runtime) events) :
    Along step (fun delivery => ∀ id, 0 < id → id < delivery.store.nextId →
      id ∉ delivery.pruned → Delivered policy delivery id) (new runtime) events := by
  refine along_imp ?_ (exec_policed meets)
  intro delivery invariant id positive published kept
  exact delivered_of_policed invariant.1 invariant.2 positive published kept

def oneOrder (maxAttempts : Nat) : List Event :=
  [.runtime (.install ⟨"shop", [⟨"orders", .queue, none⟩], true⟩),
    .runtime (.setState ⟨1⟩ .active),
    .spawn ⟨⟨1⟩, "orders"⟩ (orders maxAttempts) "rev1:orders:0",
    .spawn ⟨⟨1⟩, "orders"⟩ (orders maxAttempts) "rev1:orders:1",
    .table (.publish "orders" "42" 0)]

def secondTry : List Event :=
  oneOrder 2 ++ [.table (.claim 0 1 true), .admission 0, .finish 0 .deadlineExceeded none,
    .table (.mark 0 true true), .table (.tick 1000), .table (.claim 1 1 true), .admission 1,
    .finish 1 .completed (some (.ok ())), .table (.mark 1 true true)]

theorem attempts_bounded_second_try :
    Meets step (fun delivery event => Assumed delivery event ∧ Durable delivery event ∧
        Uniform (fun _ => ⟨2, .fixed, 1000⟩) delivery event)
      (new (Usai.Admission.Accounts.new 2 2)) secondTry ∧
    Along step (fun delivery => ∀ id, 0 < id → id < delivery.store.nextId →
      id ∉ delivery.pruned → Delivered (fun _ => ⟨2, .fixed, 1000⟩) delivery id)
      (new (Usai.Admission.Accounts.new 2 2)) secondTry ∧
    ((exec step (new (Usai.Admission.Accounts.new 2 2)) secondTry).map (fun delivery =>
      (delivery.started 1, (delivery.store.rows 1).map Row.state))) = some (2, some .done) := by
  refine ⟨?meets, attempts_bounded _ _ _ ?meets, ?_⟩ <;> decide +kernel

/-- The claim of the first consumer is lost to a crash while its world runs, so
the second consumer claims the same attempt once more. -/
def lostClaim : List Event :=
  oneOrder 1 ++ [.table (.claim 0 1 true), .admission 0, .crash 0, .table (.claim 1 1 true),
    .admission 1]

theorem lost_claim_exceeds_attempts :
    Meets step (fun delivery event => Assumed delivery event ∧
        Uniform (fun _ => ⟨1, .fixed, 1000⟩) delivery event)
      (new (Usai.Admission.Accounts.new 2 2)) lostClaim ∧
    ¬ Along step (fun delivery => ∀ id, 0 < id → id < delivery.store.nextId →
      id ∉ delivery.pruned → Delivered (fun _ => ⟨1, .fixed, 1000⟩) delivery id)
      (new (Usai.Admission.Accounts.new 2 2)) lostClaim := by
  refine ⟨by decide +kernel, ?_⟩
  intro along
  have facts : ((exec step (new (Usai.Admission.Accounts.new 2 2)) lostClaim).map (fun delivery =>
      (delivery.started 1, delivery.store.nextId, delivery.pruned,
        (delivery.store.rows 1).isSome))) = some (2, 2, [], true) := by decide +kernel
  obtain ⟨_, reached, same⟩ := map_eq_some_iff.mp facts
  simp only [Prod.mk.injEq] at same
  obtain ⟨started, published, kept, present⟩ := same
  obtain ⟨row, found⟩ := isSome_iff_exists.mp present
  have delivered := along_reached along reached 1 (by decide) (by rw [published]; decide)
    (by rw [kept]; exact not_mem_nil)
  have bound := delivered.starts row found
  rw [started] at bound
  exact absurd bound (by decide)

end Delivery

end Usai.Queue
