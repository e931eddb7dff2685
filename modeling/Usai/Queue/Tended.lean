import Usai.Queue.Delivery

/-! What the queue and the worlds of its messages keep as long as a row is swept
only when nobody holds its claim, statements that report an error have no
effect, and the server loses no claim: each claim has one holder, and the worlds
of a row never outnumber its attempts. -/

namespace Usai.Queue

open Function List Option Row Slots Store Transition

def RetryPolicy.bound (retry : RetryPolicy) : Nat := max retry.maxAttempts 1

structure Swept (workload : Workload) (now : Nat) (row later : Row) : Prop where
  attempts : later.attempts = row.attempts
  payload : later.payload = row.payload
  topic : later.topic = row.topic
  change : later = row ∨ (row.lost workload now = true ∧
    ((later.state = .ready ∧ row.attempts < workload.retry.bound) ∨
      (later.state = .dead ∧ workload.retry.bound ≤ row.attempts)))

theorem sweepReady_swept (workload : Workload) (now : Nat) (row : Row) :
    Swept workload now row (row.sweepReady workload now) := by
  unfold sweepReady
  split
  · next matched =>
    refine ⟨rfl, rfl, rfl, .inr ⟨matched.1, .inl ⟨rfl, ?_⟩⟩⟩
    simpa only [spent, RetryPolicy.bound, decide_eq_true_eq, Nat.not_le] using matched.2
  · exact ⟨rfl, rfl, rfl, .inl rfl⟩

theorem sweepDead_swept (workload : Workload) (now : Nat) (row : Row) :
    Swept workload now row (row.sweepDead workload now) := by
  unfold sweepDead
  split
  · next matched =>
    refine ⟨rfl, rfl, rfl, .inr ⟨matched.1, .inr ⟨rfl, ?_⟩⟩⟩
    simpa only [spent, RetryPolicy.bound, decide_eq_true_eq] using matched.2
  · exact ⟨rfl, rfl, rfl, .inl rfl⟩

theorem Swept.done
    (swept : Swept workload now row later) (done : later.state = .done) : row.state = .done := by
  rcases swept.change with rfl | ⟨_, ⟨ready, _⟩ | ⟨dead, _⟩⟩
  · exact done
  · rw [ready] at done
    cases done
  · rw [dead] at done
    cases done

namespace Delivery

/-- A row is swept only when no consumer holds its claim any more, and a
statement that is not answered was not carried out. -/
def Assumed (delivery : Delivery) : Event → Prop
  | .table (.sweepReady workload) | .table (.sweepDead workload) =>
    ∀ consumer ∈ delivery.store.consumers, ∀ claimed ∈ consumer.phase.claimed,
      ∀ row ∈ delivery.store.rows claimed.id, row.lost workload delivery.store.clock = false
  | .table (.claim _ _ answered) | .table (.mark _ true answered) => answered = true
  | _ => True

def Durable (delivery : Delivery) : Event → Prop
  | .crash statement => ∀ entry ∈ delivery.recent.take (statement + 1), entry.1 = false
  | _ => True

instance (delivery : Delivery) (event : Event) : Decidable (Assumed delivery event) := by
  unfold Assumed
  split <;> infer_instance

instance (delivery : Delivery) (event : Event) : Decidable (Durable delivery event) := by
  unfold Durable
  split <;> infer_instance

structure Held (workload : Workload) (claimed : Claimed) (row : Row) : Prop where
  state : row.state = .processing
  attempts : row.attempts = claimed.attempts
  payload : row.payload = claimed.payload
  topic : row.topic = workload.topic

/-- What holds of the table, and of each table a crash may return to. -/
structure Sound (delivery : Delivery) (table : Table) : Prop where
  fresh : ∀ id row, table id = some row → id < delivery.store.nextId
  kept : ∀ id, 0 < id → id < delivery.store.nextId → id ∉ delivery.pruned →
    ∃ row, table id = some row
  held : ∀ index consumer claimed, delivery.store.Holder index consumer claimed →
    ∃ row, table claimed.id = some row ∧ Held consumer.workload claimed row
  counted : ∀ id row, table id = some row → delivery.started id ≤ row.attempts
  finished : ∀ id row, table id = some row → row.state = .done → delivery.succeeded id = true

structure Tended (delivery : Delivery) : Prop where
  apart : ∀ index consumer claimed other rival contested,
    delivery.store.Holder index consumer claimed → delivery.store.Holder other rival contested →
    claimed.id = contested.id → index = other
  positive : ∀ index consumer claimed, delivery.store.Holder index consumer claimed →
    0 < claimed.attempts
  working : ∀ index, delivery.worlds index = true →
    ∃ consumer claimed, delivery.store.consumers[index]? = some consumer ∧
      consumer.phase = .handling claimed ∧
      (consumer.workload.issues claimed.payload).isEmpty = true
  waiting : ∀ (index : Nat) consumer claimed, delivery.store.consumers[index]? = some consumer →
    consumer.phase = .handling claimed → delivery.worlds index = false →
    delivery.started claimed.id < claimed.attempts
  success : ∀ (index : Nat) consumer claimed again,
    delivery.store.consumers[index]? = some consumer →
    consumer.phase = .marking claimed .done again → delivery.succeeded claimed.id = true
  unstarted : ∀ id, delivery.store.nextId ≤ id → delivery.started id = 0
  sound : ∀ table ∈ delivery.tables, Sound delivery table

variable {delivery next : Delivery} {index : Nat} {consumer : Consumer} {table : Table}

theorem new_tended (runtime : Usai.Admission.Accounts) : Tended (new runtime) where
  apart := by intro index consumer claimed other rival contested holds; cases holds.1
  positive := by intro index consumer claimed holds; cases holds.1
  working := by intro index running; cases running
  waiting := by intro index consumer claimed found; cases found
  success := by intro index consumer claimed again found; cases found
  unstarted := fun _ _ => rfl
  sound := by
    intro table member
    rcases mem_singleton.mp member with rfl
    constructor
    case fresh => intro id row found; cases found
    case kept =>
      intro id positive below
      exact absurd positive (by simpa [new, Store.new] using below)
    case held => intro index consumer claimed holds; cases holds.1
    case counted => intro id row found; cases found
    case finished => intro id row found; cases found

theorem Sound.moved (sound : Sound delivery table)
    (nextId : next.store.nextId = delivery.store.nextId) (pruned : next.pruned = delivery.pruned)
    (holders : ∀ index consumer claimed, next.store.Holder index consumer claimed →
      ∃ earlier, delivery.store.Holder index earlier claimed ∧
        earlier.workload = consumer.workload)
    (started : next.started = delivery.started)
    (succeeded : ∀ id, delivery.succeeded id = true → next.succeeded id = true) :
    Sound next table where
  fresh := by
    rw [nextId]
    exact sound.fresh
  kept := by
    rw [nextId, pruned]
    exact sound.kept
  held := by
    intro index consumer claimed holds
    obtain ⟨earlier, held, same⟩ := holders index consumer claimed holds
    rw [← same]
    exact sound.held index earlier claimed held
  counted := by
    rw [started]
    exact sound.counted
  finished := fun id row found done => succeeded id (sound.finished id row found done)

theorem Tended.advanced (tended : Tended delivery)
    (found : delivery.store.consumers[index]? = some consumer) (phase : Phase)
    (consumers : next.store.consumers =
      delivery.store.consumers.set index { consumer with phase := phase })
    (nextId : next.store.nextId = delivery.store.nextId) (pruned : next.pruned = delivery.pruned)
    (started : next.started = delivery.started)
    (succeeded : ∀ id, delivery.succeeded id = true → next.succeeded id = true)
    (worlds : ∀ other, other ≠ index → next.worlds other = delivery.worlds other)
    (idle : next.worlds index = false)
    (claims : ∀ claimed, phase.claimed = some claimed → consumer.phase.claimed = some claimed)
    (unhandled : ∀ claimed, phase ≠ .handling claimed)
    (success : ∀ claimed again, phase = .marking claimed .done again →
      next.succeeded claimed.id = true)
    (tables : ∀ table ∈ next.tables, table ∈ delivery.tables ∨ Sound next table) :
    Tended next := by
  have position : ∀ (other : Nat) rival, next.store.consumers[other]? = some rival →
      (other = index ∧ rival = { consumer with phase := phase }) ∨
        (other ≠ index ∧ delivery.store.consumers[other]? = some rival) := by
    intro other rival there
    rw [consumers] at there
    exact of_getElem?_set there
  have holders : ∀ other rival claimed, next.store.Holder other rival claimed →
      ∃ earlier, delivery.store.Holder other earlier claimed ∧
        earlier.workload = rival.workload := by
    rintro other rival claimed ⟨there, holds⟩
    rcases position other rival there with ⟨rfl, rfl⟩ | ⟨_, before⟩
    · exact ⟨consumer, ⟨found, claims claimed holds⟩, rfl⟩
    · exact ⟨rival, ⟨before, holds⟩, rfl⟩
  constructor
  case apart =>
    intro first one claimed second two contested left right same
    obtain ⟨earlier, before, _⟩ := holders first one claimed left
    obtain ⟨later, after, _⟩ := holders second two contested right
    exact tended.apart first earlier claimed second later contested before after same
  case positive =>
    intro other rival claimed holds
    obtain ⟨earlier, before, _⟩ := holders other rival claimed holds
    exact tended.positive other earlier claimed before
  case working =>
    intro other running
    have different : other ≠ index := by
      rintro rfl
      rw [idle] at running
      cases running
    rw [worlds other different] at running
    obtain ⟨rival, claimed, there, phase⟩ := tended.working other running
    refine ⟨rival, claimed, ?_, phase⟩
    rw [consumers, getElem?_set_ne (Ne.symm different)]
    exact there
  case waiting =>
    intro other rival claimed there handling free
    rcases position other rival there with ⟨_, rfl⟩ | ⟨different, before⟩
    · exact absurd handling (unhandled claimed)
    · rw [started]
      rw [worlds other different] at free
      exact tended.waiting other rival claimed before handling free
  case success =>
    intro other rival claimed again there marking
    rcases position other rival there with ⟨_, rfl⟩ | ⟨_, before⟩
    · exact success claimed again marking
    · exact succeeded claimed.id (tended.success other rival claimed again before marking)
  case unstarted =>
    rw [nextId, started]
    exact tended.unstarted
  case sound =>
    intro table member
    rcases tables table member with earlier | sound
    · exact (tended.sound table earlier).moved nextId pruned holders started succeeded
    · exact sound

theorem Tended.still (tended : Tended delivery)
    (stay : ∀ (index : Nat) consumer, delivery.store.consumers[index]? = some consumer →
      next.store.consumers[index]? = some consumer)
    (joined : ∀ (index : Nat) consumer, next.store.consumers[index]? = some consumer →
      consumer.phase = .idle ∨ delivery.store.consumers[index]? = some consumer)
    (worlds : next.worlds = delivery.worlds) (started : next.started = delivery.started)
    (succeeded : next.succeeded = delivery.succeeded)
    (nextId : delivery.store.nextId ≤ next.store.nextId)
    (sound : ∀ table ∈ next.tables, Sound next table) : Tended next := by
  have holder : ∀ index consumer claimed, next.store.Holder index consumer claimed →
      delivery.store.Holder index consumer claimed := by
    rintro index consumer claimed ⟨found, claims⟩
    rcases joined index consumer found with idle | before
    · rw [idle] at claims
      cases claims
    · exact ⟨before, claims⟩
  constructor
  case apart =>
    intro first one claimed second two contested left right same
    exact tended.apart first one claimed second two contested (holder _ _ _ left)
      (holder _ _ _ right) same
  case positive =>
    intro index consumer claimed holds
    exact tended.positive index consumer claimed (holder _ _ _ holds)
  case working =>
    intro index running
    rw [worlds] at running
    obtain ⟨consumer, claimed, found, phase⟩ := tended.working index running
    exact ⟨consumer, claimed, stay index consumer found, phase⟩
  case waiting =>
    intro index consumer claimed found handling free
    rw [started]
    rw [worlds] at free
    have before := (holder index consumer claimed ⟨found, by rw [handling]; rfl⟩).1
    exact tended.waiting index consumer claimed before handling free
  case success =>
    intro index consumer claimed again found marking
    rw [succeeded]
    have before := (holder index consumer claimed ⟨found, by rw [marking]; rfl⟩).1
    exact tended.success index consumer claimed again before marking
  case unstarted =>
    intro id beyond
    rw [started]
    exact tended.unstarted id (Nat.le_trans nextId beyond)
  case sound => exact sound

theorem Tended.framed (tended : Tended delivery)
    (consumers : next.store.consumers = delivery.store.consumers)
    (nextId : next.store.nextId = delivery.store.nextId) (pruned : next.pruned = delivery.pruned)
    (worlds : next.worlds = delivery.worlds) (started : next.started = delivery.started)
    (succeeded : next.succeeded = delivery.succeeded)
    (tables : ∀ table ∈ next.tables, table ∈ delivery.tables) : Tended next := by
  refine tended.still (fun _ _ found => consumers ▸ found) (fun _ _ found => .inr (consumers ▸ found))
    worlds started succeeded (Nat.le_of_eq nextId.symm) ?_
  intro table member
  refine (tended.sound table (tables table member)).moved nextId pruned ?_ started
    (fun _ done => succeeded ▸ done)
  intro index consumer claimed holds
  exact ⟨consumer, ⟨consumers ▸ holds.1, holds.2⟩, rfl⟩

theorem Sound.rewritten (sound : Sound delivery table)
    (nextId : next.store.nextId = delivery.store.nextId) (pruned : next.pruned = delivery.pruned)
    (started : next.started = delivery.started)
    (rows : ∀ id row, later id = some row → ∃ earlier, table id = some earlier ∧
      earlier.attempts ≤ row.attempts ∧ (row.state = .done → next.succeeded id = true))
    (present : ∀ id row, table id = some row → ∃ after, later id = some after)
    (held : ∀ index consumer claimed, next.store.Holder index consumer claimed →
      ∃ row, later claimed.id = some row ∧ Held consumer.workload claimed row) :
    Sound next later where
  fresh := by
    intro id row found
    obtain ⟨earlier, before, _⟩ := rows id row found
    rw [nextId]
    exact sound.fresh id earlier before
  kept := by
    rw [nextId, pruned]
    intro id positive below unpruned
    obtain ⟨row, found⟩ := sound.kept id positive below unpruned
    exact present id row found
  held := held
  counted := by
    intro id row found
    obtain ⟨earlier, before, attempts, _⟩ := rows id row found
    rw [started]
    exact Nat.le_trans (sound.counted id earlier before) attempts
  finished := by
    intro id row found done
    obtain ⟨_, _, _, succeeds⟩ := rows id row found
    exact succeeds done

theorem Tended.current (tended : Tended delivery) : Sound delivery delivery.store.rows :=
  tended.sound _ mem_cons_self

variable {claimed : Claimed} {store : Store}

theorem outcome_error_ne_done (workload : Workload) (claimed : Claimed) (error : String) :
    outcome workload claimed (.error error) ≠ .done := by
  simp only [outcome]
  split <;> simp

section

variable (tended : Tended delivery) {change : Row → Row}
include tended

theorem Tended.unheld {id : Nat}
    (found : delivery.store.rows id = some row) (settled : row.state ≠ .processing)
    (holds : delivery.store.Holder index consumer claimed) : claimed.id ≠ id := by
  rintro rfl
  obtain ⟨_, there, held⟩ := tended.current.held index consumer claimed holds
  cases found.symm.trans there
  exact settled held.state

theorem Tended.let_go (holds : delivery.store.Holder index consumer claimed)
    (attempts : ∀ row, (change row).attempts = row.attempts) (free : phase.claimed = none)
    (nextId : next.store.nextId = delivery.store.nextId) (pruned : next.pruned = delivery.pruned)
    (started : next.started = delivery.started)
    (succeeded : next.succeeded = delivery.succeeded)
    (consumers : next.store.consumers =
      delivery.store.consumers.set index { consumer with phase := phase })
    (done : ∀ row, (change row).state = .done → delivery.succeeded claimed.id = true) :
    Sound next (delivery.store.write claimed.id change).rows := by
  refine tended.current.rewritten nextId pruned started ?_ ?_ ?_
  · intro id row found
    rcases write_rows found with ⟨rfl, earlier, before, rfl⟩ | ⟨_, before⟩
    · rw [succeeded]
      exact ⟨earlier, before, Nat.le_of_eq (attempts earlier).symm, done earlier⟩
    · rw [succeeded]
      exact ⟨row, before, Nat.le_refl _, tended.current.finished id row before⟩
  · intro id row found
    by_cases here : id = claimed.id
    · subst here
      exact ⟨change row, by simp only [write, if_true, found, map_some]⟩
    · exact ⟨row, by rw [write_outside here]; exact found⟩
  · rintro other rival contested ⟨there, contests⟩
    rw [consumers] at there
    rcases of_getElem?_set there with ⟨_, rfl⟩ | ⟨different, before⟩
    · rw [show ({ consumer with phase := phase } : Consumer).phase = phase from rfl, free] at contests
      cases contests
    · have elsewhere : contested.id ≠ claimed.id := by
        intro same
        exact different (tended.apart other rival contested index consumer claimed
          ⟨before, contests⟩ holds same)
      rw [write_outside elsewhere]
      exact tended.current.held other rival contested ⟨before, contests⟩

theorem spawn_tended (owner : Owner) (workload : Workload)
    (lockedBy : String) (taken : delivery.step (.spawn owner workload lockedBy) = some next) :
    Tended next := by
  cases taken
  have stay : ∀ (index : Nat) consumer, delivery.store.consumers[index]? = some consumer →
      (delivery.store.consumers ++ [⟨workload, lockedBy, .idle⟩])[index]? = some consumer := by
    intro index consumer found
    rw [List.getElem?_append_left (List.getElem?_eq_some_iff.mp found).1]
    exact found
  have joined : ∀ (index : Nat) consumer,
      (delivery.store.consumers ++ [⟨workload, lockedBy, .idle⟩])[index]? = some consumer →
      consumer.phase = .idle ∨ delivery.store.consumers[index]? = some consumer := by
    intro index consumer found
    rcases of_getElem?_append found with before | ⟨_, rfl⟩
    · exact .inr before
    · exact .inl rfl
  refine tended.still stay joined rfl rfl rfl (Nat.le_refl _) ?_
  intro table member
  refine (tended.sound table member).moved rfl rfl ?_ rfl (fun _ done => done)
  rintro index consumer _ ⟨found, claims⟩
  rcases joined index consumer found with idle | before
  · rw [idle] at claims
    cases claims
  · exact ⟨consumer, ⟨before, claims⟩, rfl⟩

theorem publish_tended (topic payload : String) (delay : Nat) :
    Tended (delivery.written (.publish topic payload delay)
      (delivery.store.publish topic payload delay)) := by
  have old : ∀ id, id ≠ delivery.store.nextId →
      (delivery.store.publish topic payload delay).rows id = delivery.store.rows id :=
    fun id other => if_neg other
  have fresh : ∀ id row, delivery.store.rows id = some row → id ≠ delivery.store.nextId := by
    intro id row found
    have below := tended.current.fresh id row found
    omega
  have current := tended.current
  refine tended.still (fun _ _ found => found) (fun _ _ found => .inr found) rfl rfl rfl
    (Nat.le_succ _) ?_
  intro table member
  rcases mem_singleton.mp member with rfl
  constructor
  case fresh =>
    intro id row found
    by_cases here : id = delivery.store.nextId
    · subst here
      exact Nat.lt_succ_self _
    · exact Nat.lt_succ_of_lt (current.fresh id row ((old id here) ▸ found))
  case kept =>
    intro id positive below unpruned
    by_cases here : id = delivery.store.nextId
    · exact ⟨_, if_pos here⟩
    · have earlier : id < delivery.store.nextId := by
        have bound : id < delivery.store.nextId + 1 := below
        omega
      obtain ⟨row, found⟩ := current.kept id positive earlier unpruned
      exact ⟨row, (old id here).trans found⟩
  case held =>
    intro index consumer claimed holds
    obtain ⟨row, found, held⟩ := current.held index consumer claimed holds
    exact ⟨row, (old _ (fresh _ row found)).trans found, held⟩
  case counted =>
    intro id row found
    by_cases here : id = delivery.store.nextId
    · subst here
      have none : delivery.started delivery.store.nextId = 0 :=
        tended.unstarted _ (Nat.le_refl _)
      exact Nat.le_trans (Nat.le_of_eq none) (Nat.zero_le _)
    · exact current.counted id row ((old id here) ▸ found)
  case finished =>
    intro id row found done
    by_cases here : id = delivery.store.nextId
    · subst here
      cases (if_pos rfl).symm.trans found
      cases done
    · exact current.finished id row ((old id here) ▸ found) done

theorem sweep_tended
    (assumed : ∀ consumer ∈ delivery.store.consumers, ∀ claimed ∈ consumer.phase.claimed,
      ∀ row ∈ delivery.store.rows claimed.id, row.lost workload delivery.store.clock = false)
    (swept : ∀ row, Swept workload delivery.store.clock row (change row))
    (flushed : delivery.written label (delivery.store.writeAll change) = { delivery with
      store := delivery.store.writeAll change, recent := [] }) :
    Tended (delivery.written label (delivery.store.writeAll change)) := by
  have current := tended.current
  rw [flushed]
  refine tended.still (fun _ _ found => found) (fun _ _ found => .inr found) rfl rfl rfl
    (Nat.le_refl _) ?_
  intro table member
  rcases mem_singleton.mp member with rfl
  refine current.rewritten rfl rfl rfl ?_ ?_ ?_
  · intro id later there
    obtain ⟨row, found, rfl⟩ := map_eq_some_iff.mp there
    exact ⟨row, found, Nat.le_of_eq (swept row).attempts.symm,
      fun done => current.finished id row found ((swept row).done done)⟩
  · intro id row found
    exact ⟨change row, by simp only [writeAll, found, map_some]⟩
  · intro index consumer claimed holds
    obtain ⟨row, found, held⟩ := current.held index consumer claimed holds
    have unswept : change row = row := by
      rcases (swept row).change with same | ⟨lost, _⟩
      · exact same
      · rw [assumed consumer (mem_of_getElem? holds.1) claimed holds.2 row found] at lost
        cases lost
    exact ⟨row, by simp only [writeAll, found, map_some, unswept], held⟩

theorem Tended.filtered (keep : Nat → Row → Bool)
    (finished : ∀ id row, keep id row = false → id ∈ ids ∧ row.state.final = true)
    {rows : Table} (filtered : rows = fun id => (delivery.store.rows id).filter (keep id)) :
    Tended { delivery with
      store := { delivery.store with rows := rows }
      recent := []
      pruned := removed delivery.store.rows rows ids ++ delivery.pruned } := by
  have current := tended.current
  have before : ∀ id row, rows id = some row → delivery.store.rows id = some row := by
    intro id row found
    rw [filtered] at found
    exact (filter_eq_some_iff.mp found).1
  have stays : ∀ id row, delivery.store.rows id = some row → keep id row = true →
      rows id = some row := by
    intro id row found kept
    rw [filtered]
    exact filter_eq_some_iff.mpr ⟨found, kept⟩
  refine tended.still (fun _ _ found => found) (fun _ _ found => .inr found) rfl rfl rfl
    (Nat.le_refl _) ?_
  intro table member
  rw [mem_singleton.mp member]
  constructor
  case fresh => exact fun id row found => current.fresh id row (before id row found)
  case kept =>
    intro id positive below unpruned
    have unremoved : id ∉ delivery.pruned := fun member =>
      unpruned (mem_append_right _ member)
    obtain ⟨row, found⟩ := current.kept id positive below unremoved
    cases kept : keep id row with
    | true => exact ⟨row, stays id row found kept⟩
    | false =>
      have gone : rows id = none := by
        rw [filtered]
        simp only [found, filter_some, kept]
        rfl
      refine absurd (mem_append_left _ ?_) unpruned
      refine mem_filter.mpr ⟨(finished id row kept).1, ?_⟩
      simp only [found, gone, isSome_some, isNone_none, and_self, decide_true]
  case held =>
    intro index consumer claimed holds
    obtain ⟨row, found, held⟩ := current.held index consumer claimed holds
    refine ⟨row, stays claimed.id row found ?_, held⟩
    by_contra dropped
    have final := (finished claimed.id row (Bool.eq_false_iff.mpr dropped)).2
    rw [held.state] at final
    cases final
  case counted => exact fun id row found => current.counted id row (before id row found)
  case finished => exact fun id row found => current.finished id row (before id row found)

theorem forget_tended (topic : String) (retention : Nat) (ids : List Nat) :
    Tended (delivery.written (.forget topic retention ids)
      (delivery.store.forget topic retention ids)) := by
  refine tended.filtered (fun id row => ¬ (id ∈ ids ∧ row.topic = topic ∧
    row.state = .done ∧ row.createdAt + retention < delivery.store.clock)) ?_ rfl
  intro id row dropped
  have matched : id ∈ ids ∧ row.topic = topic ∧ row.state = .done ∧
      row.createdAt + retention < delivery.store.clock := by
    simpa only [decide_eq_false_iff_not, not_not] using dropped
  refine ⟨matched.1, ?_⟩
  rw [matched.2.2.1]
  rfl

theorem prune_tended (states : List RowState) (ids : List Nat) :
    Tended (delivery.prune states ids) := by
  refine tended.filtered (fun id row => ¬ prunable states ids id row) ?_ rfl
  intro id row dropped
  have matched : prunable states ids id row = true := by
    simpa only [decide_eq_false_iff_not, not_not] using dropped
  simp only [prunable, decide_eq_true_eq] at matched
  exact ⟨matched.1, matched.2.2⟩

section

variable (found : delivery.store.consumers[index]? = some consumer)
include found

theorem claim_tended {id : Nat}
    (taken : delivery.store.claim index consumer id true = some store) :
    Tended (delivery.written (.claim index id true) store) := by
  obtain ⟨row, present, idle, claimable, rfl⟩ := claim_cases taken
  have current := tended.current
  simp only [Row.claimable, decide_eq_true_eq] at claimable
  obtain ⟨topic, ready, _⟩ := claimable
  have unsettled : row.state ≠ .processing := by
    rw [ready]
    decide
  let claimed : Claimed := ⟨id, row.payload, row.attempts + 1⟩
  let taking : Consumer := { consumer with phase := .handling claimed }
  have position : ∀ (other : Nat) rival,
      (delivery.store.consumers.set index taking)[other]? = some rival →
      (other = index ∧ rival = taking) ∨
        (other ≠ index ∧ delivery.store.consumers[other]? = some rival) :=
    fun _ _ there => of_getElem?_set there
  have holder : ∀ other rival contested,
      (delivery.store.consumers.set index taking)[other]? = some rival →
      rival.phase.claimed = some contested →
      (other = index ∧ contested = claimed ∧ rival = taking) ∨
        (contested.id ≠ id ∧ delivery.store.Holder other rival contested) := by
    intro other rival contested there holds
    rcases position other rival there with ⟨rfl, rfl⟩ | ⟨_, before⟩
    · cases holds
      exact .inl ⟨rfl, rfl, rfl⟩
    · exact .inr ⟨tended.unheld present unsettled ⟨before, holds⟩, before, holds⟩
  have inside : (delivery.store.write id (claim consumer.lockedBy delivery.store.clock)).rows id =
      some (row.claim consumer.lockedBy delivery.store.clock) := by
    simp only [write, if_true, present, map_some]
  constructor
  case apart =>
    rintro first one held second two contested ⟨there, left⟩ ⟨here, right⟩ same
    rcases holder first one held there left with ⟨rfl, rfl, _⟩ | ⟨other, before⟩
    · rcases holder second two contested here right with ⟨rfl, _, _⟩ | ⟨rival, _⟩
      · rfl
      · exact absurd same.symm rival
    · rcases holder second two contested here right with ⟨rfl, rfl, _⟩ | ⟨_, after⟩
      · exact absurd same other
      · exact tended.apart first one held second two contested before after same
  case positive =>
    rintro other rival contested ⟨there, holds⟩
    rcases holder other rival contested there holds with ⟨_, rfl, _⟩ | ⟨_, before⟩
    · exact Nat.succ_pos _
    · exact tended.positive other rival contested before
  case working =>
    intro other running
    obtain ⟨rival, handled, there, phase⟩ := tended.working other running
    have different : other ≠ index := by
      rintro rfl
      cases found.symm.trans there
      rw [idle] at phase
      cases phase.1
    refine ⟨rival, handled, ?_, phase⟩
    exact (getElem?_set_ne (Ne.symm different)).trans there
  case waiting =>
    intro other rival contested there handling free
    rcases position other rival there with ⟨rfl, rfl⟩ | ⟨_, before⟩
    · cases handling
      exact Nat.lt_succ_of_le (current.counted id row present)
    · exact tended.waiting other rival contested before handling free
  case success =>
    intro other rival contested again there marking
    rcases position other rival there with ⟨_, rfl⟩ | ⟨_, before⟩
    · cases marking
    · exact tended.success other rival contested again before marking
  case unstarted => exact tended.unstarted
  case sound =>
    intro table member
    rcases mem_singleton.mp member with rfl
    refine current.rewritten rfl rfl rfl ?_ ?_ ?_
    · intro other later there
      rcases write_rows there with ⟨rfl, earlier, before, rfl⟩ | ⟨_, before⟩
      · exact ⟨earlier, before, Nat.le_succ _, by intro done; cases done⟩
      · exact ⟨later, before, Nat.le_refl _, current.finished other later before⟩
    · intro other earlier before
      by_cases here : other = id
      · subst here
        exact ⟨_, inside⟩
      · exact ⟨earlier, (Store.write_outside here _).trans before⟩
    · rintro other rival contested ⟨there, holds⟩
      rcases holder other rival contested there holds with ⟨_, rfl, rfl⟩ | ⟨elsewhere, before⟩
      · exact ⟨_, inside, rfl, rfl, rfl, topic⟩
      · obtain ⟨kept, here, held⟩ := current.held other rival contested before
        exact ⟨kept, (Store.write_outside elsewhere _).trans here, held⟩

theorem Tended.no_world
    (other : ∀ claimed, consumer.phase = .handling claimed →
      (consumer.workload.issues claimed.payload).isEmpty = false) :
    delivery.worlds index = false := by
  by_contra running
  rw [Bool.not_eq_false] at running
  obtain ⟨_, claimed, there, phase, valid⟩ := tended.working index running
  cases found.symm.trans there
  rw [other claimed phase] at valid
  cases valid

theorem reject_tended (taken : delivery.store.reject index consumer applied = some store) :
    Tended (delivery.written (.reject index applied) store) := by
  obtain ⟨claimed, phase, invalid, rfl⟩ := reject_cases taken
  have holds : delivery.store.Holder index consumer claimed := ⟨found, by rw [phase]; rfl⟩
  have idle : delivery.worlds index = false := by
    refine tended.no_world found ?_
    intro handled again
    cases phase.symm.trans again
    exact invalid
  refine tended.advanced found .idle ?_ ?_ rfl rfl (fun _ done => done) (fun _ _ => rfl) idle
    (by intro kept claims; cases claims) (by intro kept; nofun)
    (by intro kept again marking; cases marking) ?_
  · cases applied <;> rfl
  · cases applied <;> rfl
  · intro table member
    rcases written_tables member with rfl | ⟨earlier, _⟩
    · cases applied with
      | false => exact .inl mem_cons_self
      | true =>
        refine .inr (tended.let_go holds (fun _ => rfl) rfl rfl rfl rfl rfl rfl ?_)
        intro row done
        cases done
    · exact .inl earlier

theorem mark_tended (assumed : Assumed delivery (.table (.mark index applied answered)))
    (taken : delivery.store.mark index consumer applied answered = some store) :
    Tended (delivery.written (.mark index applied answered) store) := by
  obtain ⟨claimed, mark, again, phase, _, rfl⟩ := mark_cases taken
  have holds : delivery.store.Holder index consumer claimed := ⟨found, by rw [phase]; rfl⟩
  have idle : delivery.worlds index = false := by
    refine tended.no_world found ?_
    intro handled handling
    rw [phase] at handling
    cases handling
  refine tended.advanced found (if answered ∨ again then .idle else .marking claimed mark true)
    ?_ ?_ rfl rfl (fun _ done => done) (fun _ _ => rfl) idle ?_ ?_ ?_ ?_
  · cases applied <;> rfl
  · cases applied <;> rfl
  · intro kept claims
    split at claims <;> cases claims
    rw [phase]
    rfl
  · intro kept handling
    split at handling <;> cases handling
  · intro kept final marking
    split at marking <;> cases marking
    exact tended.success index consumer claimed again found phase
  · intro table member
    rcases written_tables member with rfl | ⟨earlier, _⟩
    · cases applied with
      | false => exact .inl mem_cons_self
      | true =>
        subst answered
        refine .inr (tended.let_go holds ?_ rfl rfl rfl rfl rfl rfl ?_)
        · intro row
          cases mark <;> rfl
        · intro row done
          cases mark with
          | done => exact tended.success index consumer claimed again found phase
          | retry | dead | invalid => cases done
    · exact .inl earlier

theorem stop_tended :
    Tended (delivery.written (.stop index) (delivery.store.setPhase index consumer .stopped)) := by
  refine tended.advanced found .stopped rfl rfl rfl rfl (fun _ done => done) ?_ ?_
    (by intro kept claims; cases claims) (by intro kept; nofun)
    (by intro kept again marking; cases marking) (fun _ member => .inl member)
  · intro other different
    exact update_of_ne different _ _
  · exact update_self _ _ _

theorem started_tended
    (phase : consumer.phase = .handling claimed) (free : delivery.worlds index = false)
    (valid : (consumer.workload.issues claimed.payload).isEmpty = true)
    (runtime : Usai.Admission.Accounts) :
    Tended { delivery.setWorld index true with
      runtime := runtime
      started := update delivery.started claimed.id
        (delivery.started claimed.id + 1) } := by
  have holds : delivery.store.Holder index consumer claimed := ⟨found, by rw [phase]; rfl⟩
  have pending := tended.waiting index consumer claimed found phase free
  constructor
  case apart => exact tended.apart
  case positive => exact tended.positive
  case working =>
    intro other running
    by_cases here : other = index
    · subst here
      exact ⟨consumer, claimed, found, phase, valid⟩
    · refine tended.working other ?_
      exact (update_of_ne here _ _).symm.trans running
  case waiting =>
    intro other rival contested there handling unstarted
    have different : other ≠ index := by
      rintro rfl
      cases (update_self _ _ _).symm.trans unstarted
    have elsewhere : contested.id ≠ claimed.id := by
      intro same
      exact different (tended.apart other rival contested index consumer claimed
        ⟨there, by rw [handling]; rfl⟩ holds same)
    have idle : delivery.worlds other = false :=
      (update_of_ne different _ _).symm.trans unstarted
    have same := update_of_ne elsewhere (delivery.started claimed.id + 1) delivery.started
    have before := tended.waiting other rival contested there handling idle
    rw [← same] at before
    exact before
  case success => exact tended.success
  case unstarted =>
    intro id beyond
    obtain ⟨row, present, _⟩ := tended.current.held index consumer claimed holds
    have below := tended.current.fresh claimed.id row present
    have elsewhere : id ≠ claimed.id := by
      have bound : delivery.store.nextId ≤ id := beyond
      omega
    exact (update_of_ne elsewhere _ _).trans (tended.unstarted id beyond)
  case sound =>
    intro table member
    have sound := tended.sound table member
    refine ⟨sound.fresh, sound.kept, sound.held, ?_, sound.finished⟩
    intro id row present
    by_cases here : id = claimed.id
    · subst here
      obtain ⟨_, there, held⟩ := sound.held index consumer claimed holds
      cases present.symm.trans there
      have one := update_self claimed.id (delivery.started claimed.id + 1) delivery.started
      have bound : delivery.started claimed.id + 1 ≤ row.attempts := by
        rw [held.attempts]
        exact pending
      rw [← one] at bound
      exact bound
    · have same := update_of_ne here (delivery.started claimed.id + 1) delivery.started
      have bound := sound.counted id row present
      rw [← same] at bound
      exact bound

theorem refused_tended
    (phase : consumer.phase = .handling claimed) (free : delivery.worlds index = false)
    (error : String) (runtime : Usai.Admission.Accounts) :
    Tended { delivery with
      runtime := runtime
      store := delivery.store.setPhase index consumer
        (.marking claimed (outcome consumer.workload claimed (.error error)) false) } := by
  refine tended.advanced found _ rfl rfl rfl rfl (fun _ done => done) (fun _ _ => rfl) free ?_
    (by intro kept; nofun) ?_ (fun _ member => .inl member)
  · intro kept claims
    cases claims
    rw [phase]
    rfl
  · intro kept again marking
    injection marking with _ done
    exact absurd done (outcome_error_ne_done consumer.workload claimed error)

theorem finish_tended
    (taken : delivery.finish index consumer result = some next) : Tended next := by
  obtain ⟨claimed, phase, _, rfl⟩ := finish_cases taken
  have kept : ∀ id, delivery.succeeded id = true →
      recordSuccess delivery.succeeded claimed.id result id = true := by
    intro id done
    cases result with
    | error => exact done
    | ok =>
      by_cases here : id = claimed.id
      · subst here
        exact update_self _ _ _
      · exact (update_of_ne here _ _).trans done
  refine tended.advanced found _ rfl rfl rfl rfl kept ?_ (update_self _ _ _) ?_
    (by intro handled; nofun) ?_ (fun _ member => .inl member)
  · intro other different
    exact update_of_ne different _ _
  · intro handled claims
    cases claims
    rw [phase]
    rfl
  · intro handled again marking
    injection marking with same done
    subst same
    cases result with
    | ok => exact update_self _ _ _
    | error error => exact absurd done (outcome_error_ne_done consumer.workload claimed error)

end

theorem table_tended {label : Label} (assumed : Assumed delivery (.table label))
    (taken : delivery.step (.table label) = some next) : Tended next := by
  obtain ⟨direct, store, steps, rfl⟩ := table_cases taken
  cases label with
  | publish topic payload delay =>
    cases steps
    exact publish_tended tended topic payload delay
  | tick =>
    cases steps
    exact tended.framed rfl rfl rfl rfl rfl rfl (fun _ member => member)
  | spawn | finish => cases direct
  | claim _ _ answered =>
    obtain ⟨consumer, found, claims⟩ := bind_eq_some_iff.mp steps
    cases (assumed : answered = true)
    exact claim_tended tended found claims
  | reject =>
    obtain ⟨consumer, found, rejects⟩ := bind_eq_some_iff.mp steps
    exact reject_tended tended found rejects
  | mark =>
    obtain ⟨consumer, found, marks⟩ := bind_eq_some_iff.mp steps
    exact mark_tended tended found assumed marks
  | stop =>
    obtain ⟨_, found, rfl⟩ := map_eq_some_iff.mp steps
    exact stop_tended tended found
  | sweepReady workload =>
    cases steps
    exact sweep_tended tended assumed (sweepReady_swept workload delivery.store.clock) rfl
  | sweepDead workload =>
    cases steps
    exact sweep_tended tended assumed (sweepDead_swept workload delivery.store.clock) rfl
  | forget topic retention ids =>
    cases steps
    exact forget_tended tended topic retention ids

theorem step_tended (assumed : Assumed delivery event)
    (durable : Durable delivery event) (taken : delivery.step event = some next) :
    Tended next := by
  cases event with
  | spawn owner workload lockedBy => exact spawn_tended tended owner workload lockedBy taken
  | table => exact table_tended tended assumed taken
  | runtime =>
    obtain ⟨runtime, _, rfl⟩ := map_eq_some_iff.mp taken
    exact tended.framed rfl rfl rfl rfl rfl rfl (fun _ member => member)
  | admission =>
    obtain ⟨consumer, found, rest⟩ := bind_eq_some_iff.mp taken
    obtain ⟨_, _, asks⟩ := bind_eq_some_iff.mp rest
    obtain ⟨claimed, account, phase, free, valid, _, ⟨runtime, _, _, rfl⟩ |
      ⟨runtime, error, _, rfl⟩⟩ := askAdmission_cases asks
    · exact started_tended tended found phase free valid runtime
    · exact refused_tended tended found phase free (refusalText error) runtime
  | broken _ error =>
    obtain ⟨consumer, found, breaks⟩ := bind_eq_some_iff.mp taken
    obtain ⟨_, phase, free, rfl⟩ := breakDown_cases breaks
    exact refused_tended tended found phase free error delivery.runtime
  | finish =>
    obtain ⟨_, found, finishes⟩ := bind_eq_some_iff.mp taken
    exact finish_tended tended found finishes
  | prune states ids =>
    cases taken
    exact prune_tended tended states ids
  | flush =>
    cases taken
    refine tended.framed rfl rfl rfl rfl rfl rfl ?_
    intro table member
    rcases mem_cons.mp member with rfl | earlier
    · exact mem_cons_self
    · exact mem_cons_of_mem _ (mem_restorable_take earlier)
  | crash =>
    obtain ⟨tables, _, rfl⟩ := crash_tables durable taken
    exact tended.framed rfl rfl rfl rfl rfl rfl tables

end

end Delivery

end Usai.Queue
