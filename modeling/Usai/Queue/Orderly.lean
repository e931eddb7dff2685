import Usai.Queue.Table
import Usai.Slots

/-! What the queue table and its consumers keep as long as the sweeper leaves
the rows of live claimants alone and a retry that was carried out is
answered. -/

namespace Usai.Queue

open List Option

def Keeps (before after : Store) : Prop :=
  ∀ id row, before.rows id = some row → row.state.final = true →
    ∀ later, after.rows id = some later → later.state = row.state

/-- The row is still the one that was claimed: nobody has claimed it since and
the sweeper has not returned it. -/
def Current (claimed : Claimed) (row : Row) : Prop :=
  row.attempts = claimed.attempts ∧ row.swept = false

def MarksCurrent (store : Store) : Label → Prop
  | .mark index true _ | .reject index true =>
    ∀ consumer ∈ store.consumers[index]?, ∀ claimed ∈ consumer.phase.claimed,
      ∀ row ∈ store.rows claimed.id, Current claimed row
  | _ => True

def NothingToRetry (store : Store) : Phase → Prop
  | .marking claimed (.retry _ _) false => store.rows claimed.id = none
  | _ => True

instance (store : Store) (phase : Phase) : Decidable (NothingToRetry store phase) := by
  unfold NothingToRetry
  split <;> infer_instance

/-- The condition. A row is swept back to `ready` only when no consumer holds
its claim any more, and to `dead` only when its claimant could write nothing
else; a retry mark that was carried out at the first try is answered. -/
def Punctual (store : Store) : Label → Prop
  | .sweepReady workload =>
    ∀ consumer ∈ store.consumers, ∀ claimed ∈ consumer.phase.claimed,
      ∀ row ∈ store.rows claimed.id, row.attempts = claimed.attempts →
        ¬ (row.lost workload store.clock = true ∧ ¬ row.spent workload = true)
  | .sweepDead workload =>
    ∀ consumer ∈ store.consumers, ∀ claimed ∈ consumer.phase.claimed,
      ∀ row ∈ store.rows claimed.id, row.attempts = claimed.attempts →
        row.lost workload store.clock = true ∧ row.spent workload = true →
          ∀ state ∈ consumer.outcomes, state = .dead
  | .mark index true false =>
    ∀ consumer ∈ store.consumers[index]?, NothingToRetry store consumer.phase
  | _ => True

instance (store : Store) (label : Label) : Decidable (Punctual store label) := by
  unfold Punctual
  split <;> infer_instance

namespace Store

variable {store next : Store}

def Holder (store : Store) (index : Nat) (consumer : Consumer) (claimed : Claimed) : Prop :=
  store.consumers[index]? = some consumer ∧ consumer.phase.claimed = some claimed

/-- A row and the consumer that holds its claim: the row is current, and it is
still being processed, or already in the one state its claimant can write. -/
structure Secure (consumer : Consumer) (claimed : Claimed) (row : Row) : Prop where
  current : Current claimed row
  state : row.state = .processing ∨
    (row.state.final = true ∧ ∀ outcome ∈ consumer.outcomes, outcome = row.state)

structure Orderly (store : Store) : Prop where
  fresh : ∀ id row, store.rows id = some row → id < store.nextId
  issued : ∀ index consumer claimed, store.Holder index consumer claimed →
    claimed.id < store.nextId
  secure : ∀ index consumer claimed row, store.Holder index consumer claimed →
    store.rows claimed.id = some row → Secure consumer claimed row
  apart : ∀ index consumer claimed other rival contested, store.Holder index consumer claimed →
    store.Holder other rival contested → claimed.id = contested.id → index = other

structure Lasting (before after : Store) : Prop where
  issued : before.nextId ≤ after.nextId
  kept : ∀ id later, id < before.nextId → after.rows id = some later →
    ∃ row, before.rows id = some row ∧ (row.state.final = true → later.state = row.state)

theorem new_orderly : new.Orderly where
  fresh := by intro id row found; cases found
  issued := by intro index consumer claimed holds; cases holds.1
  secure := by intro index consumer claimed row holds; cases holds.1
  apart := by intro index consumer claimed other rival contested holds; cases holds.1

theorem lasting_trans (first second third : Store) (before : Lasting first second)
    (after : Lasting second third) : Lasting first third where
  issued := Nat.le_trans before.issued after.issued
  kept := by
    intro id later issued found
    obtain ⟨row, present, stays⟩ := after.kept id later (Nat.lt_of_lt_of_le issued before.issued) found
    obtain ⟨old, there, stayed⟩ := before.kept id row issued present
    refine ⟨old, there, ?_⟩
    intro final
    have same := stayed final
    rw [← same]
    exact stays (same ▸ final)

theorem lasting_of_rows (nextId : next.nextId = store.nextId)
    (rows : ∀ id later, next.rows id = some later →
      ∃ row, store.rows id = some row ∧ (row.state.final = true → later.state = row.state)) :
    Lasting store next :=
  ⟨Nat.le_of_eq nextId.symm, fun id later _ found => rows id later found⟩

theorem lasting_of_same (nextId : next.nextId = store.nextId) (rows : next.rows = store.rows) :
    Lasting store next :=
  lasting_of_rows nextId (fun _ later found => ⟨later, rows ▸ found, fun _ => rfl⟩)

variable {id other index : Nat} {change : Row → Row} {later row : Row} {consumer : Consumer}
  {mark : Mark} {workload : Workload}

theorem write_rows (found : (store.write id change).rows other = some later) :
    (other = id ∧ ∃ row, store.rows id = some row ∧ later = change row) ∨
      (other ≠ id ∧ store.rows other = some later) := by
  simp only [write] at found
  split at found
  · next same =>
    obtain ⟨row, present, rfl⟩ := map_eq_some_iff.mp found
    exact .inl ⟨same, row, present, rfl⟩
  · next different => exact .inr ⟨different, found⟩

theorem setPhase_holder (holds : (store.setPhase index consumer phase).Holder other rival claimed) :
    (other = index ∧ rival = { consumer with phase := phase } ∧ phase.claimed = some claimed) ∨
      (other ≠ index ∧ store.Holder other rival claimed) := by
  obtain ⟨found, claims⟩ := holds
  rcases Slots.of_getElem?_set found with ⟨same, rfl⟩ | ⟨different, earlier⟩
  · exact .inl ⟨same, rfl, claims⟩
  · exact .inr ⟨different, earlier, claims⟩

section

variable (orderly : store.Orderly) {rows : Nat → Option Row}
include orderly

theorem Orderly.rewritten
    (changes : ∀ id later, rows id = some later → ∃ row, store.rows id = some row ∧
      ∀ index consumer claimed, store.Holder index consumer claimed → claimed.id = id →
        Secure consumer claimed row → Secure consumer claimed later) :
    Orderly { store with rows := rows } where
  fresh := by
    intro id later found
    obtain ⟨row, present, _⟩ := changes id later found
    exact orderly.fresh id row present
  issued := orderly.issued
  secure := by
    intro index consumer claimed later holds found
    obtain ⟨row, present, secures⟩ := changes claimed.id later found
    exact secures index consumer claimed holds rfl
      (orderly.secure index consumer claimed row holds present)
  apart := orderly.apart

theorem Orderly.advanced (holds : store.Holder index consumer claimed)
    (outside : ∀ id, id ≠ claimed.id → rows id = store.rows id)
    (inside : ∀ later, rows claimed.id = some later → ∃ row, store.rows claimed.id = some row)
    (phase : Phase)
    (goes : ∀ kept, phase.claimed = some kept → kept = claimed ∧ ∀ later,
      rows claimed.id = some later → Secure { consumer with phase := phase } claimed later) :
    Orderly ({ store with rows := rows }.setPhase index consumer phase) := by
  have holder : ∀ other rival kept,
      ({ store with rows := rows }.setPhase index consumer phase).Holder other rival kept →
        ∃ old, store.Holder other old kept := by
    intro other rival kept after
    rcases setPhase_holder after with ⟨rfl, _, claims⟩ | ⟨_, before⟩
    · obtain ⟨rfl, _⟩ := goes kept claims
      exact ⟨consumer, holds⟩
    · exact ⟨rival, before⟩
  constructor
  case fresh =>
    intro id later found
    by_cases here : id = claimed.id
    · subst here
      obtain ⟨row, present⟩ := inside later found
      exact orderly.fresh _ row present
    · exact orderly.fresh id later ((outside id here) ▸ found)
  case issued =>
    intro other rival kept after
    obtain ⟨old, before⟩ := holder other rival kept after
    exact orderly.issued other old kept before
  case secure =>
    intro other rival kept later after found
    rcases setPhase_holder after with ⟨_, rfl, claims⟩ | ⟨different, before⟩
    · obtain ⟨rfl, secures⟩ := goes kept claims
      exact secures later found
    · have elsewhere : kept.id ≠ claimed.id := by
        intro same
        exact different (orderly.apart other rival kept index consumer claimed before holds same)
      exact orderly.secure other rival kept later before ((outside kept.id elsewhere) ▸ found)
  case apart =>
    intro first one kept second two contested left right same
    obtain ⟨before, holdsFirst⟩ := holder first one kept left
    obtain ⟨after, holdsSecond⟩ := holder second two contested right
    exact orderly.apart first before kept second after contested holdsFirst holdsSecond same

theorem Orderly.of_holders (nextId : next.nextId = store.nextId) (rows : next.rows = store.rows)
    (holder : ∀ index consumer claimed, next.Holder index consumer claimed →
      store.Holder index consumer claimed) : next.Orderly where
  fresh := by
    intro id row found
    rw [rows] at found
    rw [nextId]
    exact orderly.fresh id row found
  issued := by
    intro index consumer claimed after
    rw [nextId]
    exact orderly.issued index consumer claimed (holder index consumer claimed after)
  secure := by
    intro index consumer claimed row after found
    rw [rows] at found
    exact orderly.secure index consumer claimed row (holder index consumer claimed after) found
  apart := by
    intro first one kept second two contested left right same
    exact orderly.apart first one kept second two contested (holder first one kept left)
      (holder second two contested right) same

theorem Orderly.stopped (index : Nat) (consumer : Consumer) :
    Orderly (store.setPhase index consumer .stopped) := by
  refine orderly.of_holders rfl rfl ?_
  intro other rival kept after
  rcases setPhase_holder after with ⟨_, _, claims⟩ | ⟨_, before⟩
  · cases claims
  · exact before

theorem Orderly.claimed {claimed : Claimed} (claims : phase.claimed = some claimed)
    (issued : claimed.id < store.nextId)
    (unheld : ∀ other rival kept, store.Holder other rival kept → kept.id ≠ claimed.id)
    (secure : ∀ row, store.rows claimed.id = some row →
      Secure { consumer with phase := phase } claimed row) :
    Orderly (store.setPhase index consumer phase) where
  fresh := orderly.fresh
  issued := by
    intro other rival kept after
    rcases setPhase_holder after with ⟨_, _, own⟩ | ⟨_, before⟩
    · cases claims.symm.trans own
      exact issued
    · exact orderly.issued other rival kept before
  secure := by
    intro other rival kept row after found
    rcases setPhase_holder after with ⟨_, rfl, own⟩ | ⟨_, before⟩
    · cases claims.symm.trans own
      exact secure row found
    · exact orderly.secure other rival kept row before found
  apart := by
    intro first one kept second two contested left right same
    rcases setPhase_holder left with ⟨rfl, _, own⟩ | ⟨_, before⟩
    · cases claims.symm.trans own
      rcases setPhase_holder right with ⟨rfl, _, _⟩ | ⟨_, rival⟩
      · rfl
      · exact absurd same.symm (unheld second two contested rival)
    · rcases setPhase_holder right with ⟨rfl, _, own⟩ | ⟨_, rival⟩
      · cases claims.symm.trans own
        exact absurd same (unheld first one kept before)
      · exact orderly.apart first one kept second two contested before rival same

theorem publish_advances (topic payload : String) (delay : Nat) :
    (store.publish topic payload delay).Orderly ∧
      Lasting store (store.publish topic payload delay) := by
  have old : ∀ id, id < store.nextId →
      (store.publish topic payload delay).rows id = store.rows id := by
    intro id issued
    exact if_neg (by omega)
  refine ⟨⟨?_, ?_, ?_, orderly.apart⟩, ⟨Nat.le_succ _, ?_⟩⟩
  · intro id row found
    by_cases issued : id < store.nextId
    · exact Nat.lt_succ_of_lt issued
    · by_cases here : id = store.nextId
      · subst here
        exact Nat.lt_succ_self _
      · have same : (store.publish topic payload delay).rows id = store.rows id := if_neg here
        rw [same] at found
        exact Nat.lt_succ_of_lt (orderly.fresh id row found)
  · intro index consumer claimed holds
    exact Nat.lt_succ_of_lt (orderly.issued index consumer claimed holds)
  · intro index consumer claimed row holds found
    rw [old claimed.id (orderly.issued index consumer claimed holds)] at found
    exact orderly.secure index consumer claimed row holds found
  · intro id later issued found
    exact ⟨later, (old id issued) ▸ found, fun _ => rfl⟩

theorem Orderly.ready_unheld (found : store.rows id = some row) (ready : row.state = .ready)
    {claimed : Claimed} (holds : store.Holder index consumer claimed) :
    claimed.id ≠ id := by
  rintro rfl
  rcases (orderly.secure index consumer claimed row holds found).state with processing | ⟨final, _⟩
  · rw [ready] at processing
    cases processing
  · rw [ready] at final
    cases final

theorem claim_advances (taken : store.claim index consumer id answered = some next) :
    next.Orderly ∧ Lasting store next := by
  obtain ⟨row, found, rest⟩ := bind_eq_some_iff.mp taken
  obtain ⟨⟨_, claimable⟩, rfl⟩ := ite_some_none_eq_some.mp rest
  have ready : row.state = .ready := by
    simp only [Row.claimable, decide_eq_true_eq] at claimable
    exact claimable.2.1
  let written := store.write id (Row.claim consumer.lockedBy store.clock)
  have lasting : Lasting store written := by
    refine lasting_of_rows rfl ?_
    intro other later present
    rcases write_rows present with ⟨rfl, old, there, rfl⟩ | ⟨_, there⟩
    · refine ⟨row, found, ?_⟩
      intro final
      rw [ready] at final
      cases final
    · exact ⟨later, there, fun _ => rfl⟩
  have orderlyRows : written.Orderly := by
    refine orderly.rewritten ?_
    intro other later present
    rcases write_rows present with ⟨rfl, old, there, rfl⟩ | ⟨_, there⟩
    · refine ⟨old, there, ?_⟩
      intro holderIndex rival claimed holds here
      exact absurd here (orderly.ready_unheld found ready holds)
    · exact ⟨later, there, fun _ _ _ _ _ secure => secure⟩
  cases answered with
  | false => exact ⟨orderlyRows, lasting⟩
  | true =>
    refine ⟨orderlyRows.claimed rfl (orderly.fresh id row found) ?_ ?_, lasting.issued,
      lasting.kept⟩
    · intro other rival kept holds
      exact orderly.ready_unheld found ready holds
    · intro later present
      rcases write_rows present with ⟨_, _, there, rfl⟩ | ⟨different, _⟩
      · cases found.symm.trans there
        exact ⟨⟨rfl, rfl⟩, .inl rfl⟩
      · exact absurd rfl different

end

theorem outcome_mem (phase : consumer.phase = .handling claimed)
    (valid : (consumer.workload.issues claimed.payload).isEmpty = true) (result : Except String Unit) :
    (outcome consumer.workload claimed result).state ∈ consumer.outcomes := by
  simp only [Consumer.outcomes, phase, valid, if_true]
  cases result with
  | ok => exact mem_cons_self
  | error error =>
    have same : (outcome consumer.workload claimed (.error error)).state =
        (outcome consumer.workload claimed (.error "")).state := by
      simp only [outcome]
      split <;> rfl
    rw [same]
    exact mem_cons_of_mem _ mem_cons_self

theorem mark_lasting (orderly : store.Orderly) (holds : store.Holder index consumer claimed)
    (possible : mark.state ∈ consumer.outcomes)
    (found : (store.write claimed.id (fun row => mark.apply store.clock row)).rows id =
      some later) :
    ∃ row, store.rows id = some row ∧ (row.state.final = true → later.state = row.state) := by
  rcases write_rows found with ⟨rfl, row, present, rfl⟩ | ⟨_, there⟩
  · refine ⟨row, present, ?_⟩
    intro final
    have written : (mark.apply store.clock row).state = mark.state := by cases mark <;> rfl
    rw [written]
    rcases (orderly.secure index consumer claimed row holds present).state with
      processing | ⟨_, only⟩
    · rw [processing] at final
      cases final
    · exact only mark.state possible
  · exact ⟨later, there, fun _ => rfl⟩

theorem write_outside (different : other ≠ id) (change : Row → Row) :
    (store.write id change).rows other = store.rows other := if_neg different

theorem write_inside (found : (store.write id change).rows id = some later) :
    ∃ row, store.rows id = some row ∧ later = change row := by
  rcases write_rows found with ⟨_, present⟩ | ⟨different, _⟩
  · exact present
  · exact absurd rfl different

/-- A first try that was carried out and not answered leaves its claimant with
the same mark to write again, on a row that is final by then. -/
theorem marked_secure
    (secure : Secure consumer claimed row) (final : mark.state.final = true) (now : Nat) :
    Secure { consumer with phase := .marking claimed mark true } claimed (mark.apply now row) := by
  have current : Current claimed (mark.apply now row) := by
    cases mark <;> exact secure.current
  have written : (mark.apply now row).state = mark.state := by cases mark <;> rfl
  refine ⟨current, .inr ⟨written ▸ final, ?_⟩⟩
  intro outcome member
  rw [Consumer.outcomes, mem_singleton] at member
  rw [member, written]

theorem Secure.again
    (secure : Secure consumer claimed row) (phase : consumer.phase = .marking claimed mark false) :
    Secure { consumer with phase := .marking claimed mark true } claimed row := by
  refine ⟨secure.current, secure.state.imp_right ?_⟩
  rintro ⟨final, only⟩
  refine ⟨final, ?_⟩
  simpa only [Consumer.outcomes, phase] using only

theorem Orderly.marks (orderly : store.Orderly) {claimed : Claimed}
    (holds : store.Holder index consumer claimed)
    (possible : mark.state ∈ consumer.outcomes) (applied : Bool) (phase : Phase)
    (goes : ∀ kept, phase.claimed = some kept → kept = claimed ∧ ∀ row,
      store.rows claimed.id = some row → Secure { consumer with phase := phase } claimed
        (if applied then mark.apply store.clock row else row)) :
    let marked := (if applied then store.write claimed.id (fun row => mark.apply store.clock row)
      else store).setPhase index consumer phase
    marked.Orderly ∧ Lasting store marked := by
  cases applied with
  | false =>
    exact ⟨orderly.advanced holds (fun _ _ => rfl) (fun later found => ⟨later, found⟩) phase goes,
      lasting_of_same rfl rfl⟩
  | true =>
    refine ⟨orderly.advanced holds (fun id different => write_outside different _) ?_ phase ?_,
      lasting_of_rows rfl (fun id later found => mark_lasting orderly holds possible found)⟩
    · intro later found
      obtain ⟨row, present, _⟩ := write_inside found
      exact ⟨row, present⟩
    · intro kept claims
      obtain ⟨same, secure⟩ := goes kept claims
      refine ⟨same, ?_⟩
      intro later found
      obtain ⟨row, present, rfl⟩ := write_inside found
      exact secure row present

section

variable (orderly : store.Orderly) (at_index : store.consumers[index]? = some consumer)
include orderly at_index

theorem finish_advances (taken : store.finish index consumer result = some next) :
    next.Orderly ∧ Lasting store next := by
  obtain ⟨claimed, phase, valid, rfl⟩ := finish_cases taken
  have holds : store.Holder index consumer claimed := ⟨at_index, by rw [phase]; rfl⟩
  refine ⟨orderly.advanced holds (fun _ _ => rfl) (fun later found => ⟨later, found⟩) _ ?_,
    lasting_of_same rfl rfl⟩
  intro kept claims
  cases claims
  refine ⟨rfl, ?_⟩
  intro later found
  have secure := orderly.secure index consumer claimed later holds found
  refine ⟨secure.current, secure.state.imp_right ?_⟩
  rintro ⟨final, only⟩
  refine ⟨final, ?_⟩
  intro written member
  rw [Consumer.outcomes, mem_singleton] at member
  rw [member]
  exact only _ (outcome_mem phase valid result)

theorem reject_advances (taken : store.reject index consumer applied = some next) :
    next.Orderly ∧ Lasting store next := by
  obtain ⟨claimed, phase, invalid, rfl⟩ := reject_cases taken
  refine orderly.marks ⟨at_index, by rw [phase]; rfl⟩ ?_ applied .idle
    (by intro kept claims; cases claims)
  simp only [Consumer.outcomes, phase, invalid]
  exact mem_cons_self

theorem mark_advances (punctual : Punctual store (.mark index applied answered))
    (taken : store.mark index consumer applied answered = some next) :
    next.Orderly ∧ Lasting store next := by
  obtain ⟨claimed, mark, again, phase, _, rfl⟩ := mark_cases taken
  have holds : store.Holder index consumer claimed := ⟨at_index, by rw [phase]; rfl⟩
  have possible : mark.state ∈ consumer.outcomes := by
    simp only [Consumer.outcomes, phase]
    exact mem_cons_self
  by_cases closing : answered = true ∨ again = true
  · rw [if_pos closing]
    exact orderly.marks holds possible applied .idle (by intro kept claims; cases claims)
  · have first : answered = false ∧ again = false := by
      simpa only [not_or, Bool.not_eq_true] using closing
    obtain ⟨rfl, rfl⟩ := first
    refine orderly.marks holds possible applied (.marking claimed mark true) ?_
    intro kept claims
    cases claims
    refine ⟨rfl, ?_⟩
    intro row present
    have secure := orderly.secure index consumer claimed row holds present
    cases applied with
    | false => exact secure.again phase
    | true =>
      refine marked_secure secure ?_ store.clock
      -- Only a retry writes a state that is not final, and the row is there.
      have allowed := punctual consumer at_index
      rw [phase] at allowed
      cases mark with
      | retry => cases present.symm.trans allowed
      | done | dead | invalid => rfl

end

/-- A sweep writes rows that are being processed and whose claim nobody holds,
or whose claimant can only write what the sweep writes. -/
theorem swept_advances (orderly : store.Orderly) (matched : Row → Prop) [DecidablePred matched]
    (others : ∀ row, ¬ matched row → change row = row)
    (processing : ∀ row, matched row → row.state = .processing)
    (secures : ∀ index consumer claimed row, store.Holder index consumer claimed →
      store.rows claimed.id = some row → matched row → Secure consumer claimed row →
        Secure consumer claimed (change row)) :
    (store.writeAll change).Orderly ∧ Lasting store (store.writeAll change) := by
  constructor
  · refine orderly.rewritten ?_
    intro id later found
    obtain ⟨row, present, rfl⟩ := map_eq_some_iff.mp found
    refine ⟨row, present, ?_⟩
    intro index consumer claimed holds here secure
    by_cases matches_row : matched row
    · exact secures index consumer claimed row holds (here ▸ present) matches_row secure
    · rw [others row matches_row]
      exact secure
  · refine lasting_of_rows rfl ?_
    intro id later found
    obtain ⟨row, present, rfl⟩ := map_eq_some_iff.mp found
    refine ⟨row, present, ?_⟩
    intro final
    have unmatched : ¬ matched row := by
      intro matches_row
      rw [processing row matches_row] at final
      cases final
    rw [others row unmatched]

theorem lost_processing (lost : row.lost workload now = true) : row.state = .processing := by
  simp only [Row.lost, decide_eq_true_eq] at lost
  exact lost.2.1

section

variable (orderly : store.Orderly)
include orderly

theorem sweepDead_advances (punctual : Punctual store (.sweepDead workload)) :
    (store.writeAll (Row.sweepDead workload store.clock)).Orderly ∧
      Lasting store (store.writeAll (Row.sweepDead workload store.clock)) := by
  refine swept_advances orderly
    (fun row => row.lost workload store.clock = true ∧ row.spent workload = true)
    (fun row unmatched => if_neg unmatched) (fun row matched => lost_processing matched.1) ?_
  intro index consumer claimed row holds present matched secure
  have swept : row.sweepDead workload store.clock = { row with
      state := .dead, lockedAt := none, lockedBy := none, lastError := row.lostReason } :=
    if_pos matched
  rw [swept]
  exact ⟨secure.current, .inr ⟨rfl, punctual consumer (mem_of_getElem? holds.1) claimed holds.2
    row present secure.current.1 matched⟩⟩

theorem forget_advances (topic : String) (retention : Nat) (ids : List Nat) :
    (store.forget topic retention ids).Orderly ∧ Lasting store (store.forget topic retention ids) := by
  have rows : ∀ id later, (store.forget topic retention ids).rows id = some later →
      store.rows id = some later :=
    fun _ _ found => (filter_eq_some_iff.mp found).1
  constructor
  · exact orderly.rewritten (fun id later found =>
      ⟨later, rows id later found, fun _ _ _ _ _ secure => secure⟩)
  · exact lasting_of_rows rfl (fun id later found => ⟨later, rows id later found, fun _ => rfl⟩)

theorem step_advances (punctual : Punctual store label)
    (taken : store.step label = some next) : next.Orderly ∧ Lasting store next := by
  cases label with
  | publish topic payload delay =>
    cases taken
    exact publish_advances orderly topic payload delay
  | tick =>
    cases taken
    exact ⟨{ orderly with }, lasting_of_same rfl rfl⟩
  | spawn workload lockedBy =>
    cases taken
    refine ⟨orderly.of_holders rfl rfl ?_, lasting_of_same rfl rfl⟩
    rintro _ _ _ ⟨found, claims⟩
    refine ⟨?_, claims⟩
    rcases Slots.of_getElem?_append found with earlier | ⟨_, rfl⟩
    · exact earlier
    · cases claims
  | claim =>
    obtain ⟨consumer, _, claims⟩ := bind_eq_some_iff.mp taken
    exact claim_advances orderly claims
  | reject =>
    obtain ⟨consumer, found, rejects⟩ := bind_eq_some_iff.mp taken
    exact reject_advances orderly found rejects
  | finish =>
    obtain ⟨consumer, found, finishes⟩ := bind_eq_some_iff.mp taken
    exact finish_advances orderly found finishes
  | mark =>
    obtain ⟨consumer, found, marks⟩ := bind_eq_some_iff.mp taken
    exact mark_advances orderly found punctual marks
  | stop index =>
    obtain ⟨consumer, _, rfl⟩ := map_eq_some_iff.mp taken
    exact ⟨orderly.stopped index consumer, lasting_of_same rfl rfl⟩
  | sweepReady workload =>
    cases taken
    refine swept_advances orderly
      (fun row => row.lost workload store.clock = true ∧ ¬ row.spent workload = true)
      (fun row unmatched => if_neg unmatched) (fun row matched => lost_processing matched.1) ?_
    intro index consumer claimed row holds present matched secure
    exact absurd matched (punctual consumer (mem_of_getElem? holds.1) claimed holds.2 row present
      secure.current.1)
  | sweepDead =>
    cases taken
    exact sweepDead_advances orderly punctual
  | forget topic retention ids =>
    cases taken
    exact forget_advances orderly topic retention ids

theorem marks_current (label : Label) : MarksCurrent store label := by
  have current : ∀ index : Nat, ∀ consumer ∈ store.consumers[index]?,
      ∀ claimed ∈ consumer.phase.claimed, ∀ row ∈ store.rows claimed.id, Current claimed row :=
    fun index consumer found claimed claims row present =>
      (orderly.secure index consumer claimed row ⟨found, claims⟩ present).current
  cases label with
  | mark index applied _ | reject index applied =>
    cases applied with
    | true => exact current index
    | false => trivial
  | publish | tick | spawn | claim | finish | stop | sweepReady | sweepDead | forget => trivial

end

end Store

end Usai.Queue
