import Usai.Queue.Orderly

/-! When an outcome mark meets the row it was claimed for: final rows stay as
they are and no mark lands on a row that was swept or claimed again, exactly
under the condition of `Punctual`. -/

namespace Usai.Queue

open List Option Row Store Transition

namespace Store

variable {store next : Store}

variable {index : Nat} {consumer : Consumer} {claimed : Claimed} {row : Row} {workload : Workload}

theorem setPhase_found (found : store.consumers[index]? = some consumer) (phase : Phase) :
    (store.setPhase index consumer phase).consumers[index]? =
      some { consumer with phase := phase } :=
  List.getElem?_set_self (List.getElem?_eq_some_iff.mp found).1

theorem written_state (id : Nat) (mark : Mark) (row : Row) (found : store.rows id = some row) :
    ∃ later, (store.write id (fun row => mark.apply store.clock row)).rows id = some later ∧
      later.state = mark.state := by
  refine ⟨mark.apply store.clock row, ?_, by cases mark <;> rfl⟩
  simp only [write, if_true, found, map_some]

theorem marking_writes {mark : Mark} (found : store.consumers[index]? = some consumer)
    (phase : consumer.phase = .marking claimed mark again) :
    ∃ final, store.step (.mark index true true) = some final ∧
      (MarksCurrent store (.mark index true true) →
        ∀ row ∈ store.rows claimed.id, Current claimed row) ∧
      ∀ row, store.rows claimed.id = some row →
        ∃ later, final.rows claimed.id = some later ∧ later.state = mark.state := by
  refine ⟨(store.write claimed.id (fun row => mark.apply store.clock row)).setPhase index consumer
    .idle, ?_, ?_, written_state claimed.id mark⟩
  · simp [step, found, Store.mark, phase]
  · intro current
    exact current consumer found claimed (by rw [phase]; rfl)

theorem claimant_writes (holds : store.Holder index consumer claimed) {state : RowState}
    (possible : state ∈ consumer.outcomes) :
    ∃ front middle last final, exec step store front = some middle ∧
      middle.step last = some final ∧
      (MarksCurrent middle last → ∀ row ∈ store.rows claimed.id, Current claimed row) ∧
      ∀ row, store.rows claimed.id = some row →
        ∃ later, final.rows claimed.id = some later ∧ later.state = state := by
  obtain ⟨found, claims⟩ := holds
  cases phase : consumer.phase with
  | handling =>
    rw [phase] at claims
    cases claims
    simp only [Consumer.outcomes, phase] at possible
    split at possible
    · next valid =>
      have chosen : ∃ result, (outcome consumer.workload claimed result).state = state := by
        rcases mem_cons.mp possible with rfl | failed
        · exact ⟨.ok (), rfl⟩
        · exact ⟨.error "", (mem_singleton.mp failed).symm⟩
      obtain ⟨result, rfl⟩ := chosen
      let middle := store.setPhase index consumer
        (.marking claimed (outcome consumer.workload claimed result) false)
      have finishes : store.step (.finish index result) = some middle := by
        simp only [step, found, bind_some, finish, phase, valid, if_true, middle]
      have there : middle.consumers[index]? = some { consumer with
          phase := .marking claimed (outcome consumer.workload claimed result) false } :=
        setPhase_found found _
      obtain ⟨final, marks, current, writes⟩ := marking_writes there rfl
      refine ⟨[.finish index result], middle, .mark index true true, final, ?_, marks, current,
        writes⟩
      rw [exec_cons, finishes]
      rfl
    · next invalid =>
      rw [mem_singleton] at possible
      subst possible
      let issues := consumer.workload.issues claimed.payload
      refine ⟨[], store, .reject index true, (store.write claimed.id (fun row =>
        (Mark.invalid ("; ".intercalate issues)).apply store.clock row)).setPhase index consumer
          .idle, rfl, ?_, ?_, written_state claimed.id (.invalid ("; ".intercalate issues))⟩
      · simp only [step, found, bind_some, reject, phase, invalid, issues]
        rfl
      · intro current
        exact current consumer found claimed (by rw [phase]; rfl)
  | marking _ mark _ =>
    rw [phase] at claims
    cases claims
    simp only [Consumer.outcomes, phase, mem_singleton] at possible
    subst possible
    obtain ⟨final, marks, current, writes⟩ := marking_writes found phase
    exact ⟨[], store, .mark index true true, final, rfl, marks, current, writes⟩
  | idle | stopped =>
    rw [phase] at claims
    cases claims

theorem outcomes_inhabited
    (claims : consumer.phase.claimed = some claimed) : ∃ state, state ∈ consumer.outcomes := by
  unfold Consumer.outcomes
  cases phase : consumer.phase with
  | handling =>
    simp only
    split
    · exact ⟨_, mem_cons_self⟩
    · exact ⟨_, mem_cons_self⟩
  | marking => exact ⟨_, mem_cons_self⟩
  | idle | stopped =>
    rw [phase] at claims
    cases claims

theorem early_sweep_breaks (holds : store.Holder index consumer claimed)
    (present : store.rows claimed.id = some row)
    (matched : row.lost workload store.clock = true ∧ ¬ row.spent workload = true) :
    ∃ more, ¬ Meets step MarksCurrent store (.sweepReady workload :: more) := by
  obtain ⟨_, possible⟩ := outcomes_inhabited holds.2
  have still : (store.writeAll (sweepReady workload store.clock)).Holder index consumer claimed :=
    holds
  obtain ⟨front, _, last, _, reached, marks, current, _⟩ := claimant_writes still possible
  refine ⟨front ++ [last], ?_⟩
  intro meets
  have rest := meets_reached (meets_cons meets rfl).2 reached
  have lands := current (meets_cons rest marks).1 (row.sweepReady workload store.clock)
    (by simp only [writeAll, present]; rfl)
  rw [sweepReady, if_pos matched] at lands
  cases lands.2

theorem early_burial_breaks (holds : store.Holder index consumer claimed)
    (present : store.rows claimed.id = some row)
    (matched : row.lost workload store.clock = true ∧ row.spent workload = true)
    {state : RowState} (possible : state ∈ consumer.outcomes) (other : state ≠ .dead) :
    ∃ more, ¬ Between step Keeps store (.sweepDead workload :: more) := by
  have still : (store.writeAll (sweepDead workload store.clock)).Holder index consumer claimed :=
    holds
  obtain ⟨front, _, last, final, reached, marks, _, writes⟩ := claimant_writes still possible
  have buried : (store.writeAll (sweepDead workload store.clock)).rows claimed.id =
      some (row.sweepDead workload store.clock) := by
    simp only [writeAll, present]
    rfl
  have dead : (row.sweepDead workload store.clock).state = .dead := by
    rw [sweepDead, if_pos matched]
  obtain ⟨later, found, rewritten⟩ := writes _ buried
  refine ⟨front ++ [last], ?_⟩
  intro between
  have ends : exec step (store.writeAll (sweepDead workload store.clock))
      (front ++ [last]) = some final := by
    rw [exec_append, reached, bind_some, exec_cons, marks]
    rfl
  have keeps := between_reached (between_cons between rfl).2 (by simp) ends
  have same := keeps claimed.id _ buried (by rw [dead]; rfl) later found
  rw [rewritten, dead] at same
  exact other same

theorem rival_claims {id : Nat} (present : store.rows id = some row)
    (ready : row.state = .ready) (available : row.availableAt ≤ store.clock) :
    ∃ labels final later, exec step store labels = some final ∧
      final.rows id = some later ∧ later.attempts = row.attempts + 1 ∧
      ∀ (index : Nat) consumer, store.consumers[index]? = some consumer →
        final.consumers[index]? = some consumer := by
  let rival : Consumer := ⟨⟨row.topic, .default, 0, fun _ => []⟩, "rival", .idle⟩
  let joined : Store := { store with consumers := store.consumers ++ [rival] }
  let final := (joined.write id (Row.claim rival.lockedBy store.clock)).setPhase
    store.consumers.length rival (.handling ⟨id, row.payload, row.attempts + 1⟩)
  have there : joined.consumers[store.consumers.length]? = some rival := getElem?_concat_length
  have claims : joined.step (.claim store.consumers.length id true) = some final := by
    have claimable : row.claimable rival.workload store.clock = true := by
      simp only [claimable, decide_eq_true_eq]
      exact ⟨rfl, ready, available⟩
    have found : joined.rows id = some row := present
    simp only [step, there, bind_some, claim, found]
    exact if_pos ⟨rfl, claimable⟩
  refine ⟨[.spawn rival.workload rival.lockedBy, .claim store.consumers.length id true], final,
    Row.claim rival.lockedBy store.clock row, ?_, ?_, rfl, ?_⟩
  · have joins : store.step (.spawn rival.workload rival.lockedBy) = some joined := rfl
    rw [exec_cons, joins, bind_some, exec_cons, claims]
    rfl
  · simp only [final, setPhase, write, if_true, joined, present, map_some]
  · intro index consumer found
    have inside := (List.getElem?_eq_some_iff.mp found).1
    simp only [final, setPhase, write, joined]
    rw [getElem?_set_ne (by omega), getElem?_append_left inside, found]

theorem unanswered_retry_breaks
    {delay : Nat} (found : store.consumers[index]? = some consumer)
    (phase : consumer.phase = .marking claimed (.retry delay error) false)
    (present : store.rows claimed.id = some row) :
    ∃ more, ¬ Meets step MarksCurrent store (.mark index true false :: more) := by
  let marked := (store.write claimed.id
    (fun row => (Mark.retry delay error).apply store.clock row)).setPhase index consumer
      (.marking claimed (.retry delay error) true)
  have marks : store.step (.mark index true false) = some marked := by
    simp only [step, found, bind_some, mark, phase]
    rfl
  by_cases same : row.attempts = claimed.attempts
  · let waited : Store := { marked with clock := marked.clock + delay }
    have ready : waited.rows claimed.id =
        some ((Mark.retry delay error).apply store.clock row) := by
      simp only [waited, marked, setPhase, write, if_true, present, map_some]
    obtain ⟨labels, _, later, reached, there, attempts, others⟩ :=
      rival_claims ready rfl (Nat.le_refl (store.clock + delay))
    refine ⟨.tick delay :: (labels ++ [.mark index true true]), ?_⟩
    intro meets
    have afterMark := (meets_cons meets marks).2
    have afterWait := (meets_cons afterMark (rfl : marked.step (.tick delay) = some waited)).2
    have last := meets_reached afterWait reached
    have stands := others index _ (setPhase_found found (.marking claimed (.retry delay error) true))
    obtain ⟨_, again, _⟩ := marking_writes stands rfl
    have current := (meets_cons last again).1 _ stands claimed rfl later there
    have counted := current.1
    have kept : ((Mark.retry delay error).apply store.clock row).attempts = row.attempts := rfl
    omega
  · refine ⟨[], ?_⟩
    intro meets
    exact same ((meets_cons meets marks).1 consumer found claimed (by rw [phase]; rfl) row present).1

theorem late_breaks {label : Label} (late : ¬ Punctual store label) :
    ∃ more, ¬ (Between step Keeps store (label :: more) ∧
      Meets step MarksCurrent store (label :: more)) := by
  cases label with
  | sweepReady =>
    simp only [Punctual, not_forall, not_not] at late
    obtain ⟨consumer, member, claimed, claims, row, present, _, matched⟩ := late
    obtain ⟨index, found⟩ := getElem?_of_mem member
    obtain ⟨more, breaks⟩ := early_sweep_breaks ⟨found, claims⟩ present matched
    exact ⟨more, fun both => breaks both.2⟩
  | sweepDead =>
    simp only [Punctual, not_forall] at late
    obtain ⟨consumer, member, claimed, claims, row, present, _, matched, _, possible, other⟩ :=
      late
    obtain ⟨_, found⟩ := getElem?_of_mem member
    obtain ⟨more, breaks⟩ := early_burial_breaks ⟨found, claims⟩ present matched possible other
    exact ⟨more, fun both => breaks both.1⟩
  | mark _ applied answered =>
    cases applied with
    | false => exact absurd trivial late
    | true =>
      cases answered with
      | true => exact absurd trivial late
      | false =>
        simp only [Punctual, not_forall] at late
        obtain ⟨_, found, late⟩ := late
        unfold NothingToRetry at late
        split at late
        · next claimed delay error phase =>
          obtain ⟨_, present⟩ := ne_none_iff_exists'.mp late
          obtain ⟨more, breaks⟩ := unanswered_retry_breaks found phase present
          exact ⟨more, fun both => breaks both.2⟩
        · exact absurd trivial late
  | publish | tick | spawn | claim | reject | finish | stop | forget => exact absurd trivial late

end Store

open Store

/-- In every run, by any number of consumers and sweepers, whose sweeps leave
live claimants alone and whose carried-out retries are answered: a row that is
done or dead stays so, and no outcome mark lands on a row that was swept back
or claimed again. The condition is the weakest one: a step that does not meet
it, in whatever state, can be continued into a broken promise. -/
theorem outcome_marks_settle (labels : List Label)
    (punctual : Meets Store.step Punctual Store.new labels) :
    Between Store.step Keeps Store.new labels ∧
    Meets Store.step MarksCurrent Store.new labels ∧
    ∀ store label, ¬ Punctual store label →
      ∃ more, ¬ (Between Store.step Keeps store (label :: more) ∧
        Meets Store.step MarksCurrent store (label :: more)) := by
  have preserved : ∀ store label next, Orderly store → Punctual store label →
      store.step label = some next → Orderly next :=
    fun _ _ _ orderly punctual taken => (step_advances orderly punctual taken).1
  refine ⟨?_, ?_, fun store label late => late_breaks late⟩
  · let lasts (before after : Store) : Prop := before.Orderly ∧ Lasting before after
    have related : ∀ store label next, Orderly store → Punctual store label →
        store.step label = some next → lasts store next :=
      fun _ _ _ orderly punctual taken => ⟨orderly, (step_advances orderly punctual taken).2⟩
    have trans : ∀ first second third, lasts first second → lasts second third →
        lasts first third :=
      fun first second third before after =>
        ⟨before.1, lasting_trans first second third before.2 after.2⟩
    refine between_imp ?_ (between_of_meets trans preserved related new_orderly punctual)
    rintro _ _ ⟨orderly, lasting⟩ id row present final later found
    obtain ⟨_, there, kept⟩ := lasting.kept id later (orderly.fresh id row present) found
    cases present.symm.trans there
    exact kept final
  · exact meets_of_meets preserved (fun _ label _ orderly _ _ => marks_current orderly label)
      new_orderly punctual

def orders (maxAttempts : Nat) : Workload := ⟨"orders", ⟨maxAttempts, .fixed, 1000⟩, 30000, fun _ => []⟩

def handledInTime : List Label :=
  [.publish "orders" "1" 0, .spawn (orders 1) "a", .claim 0 1 true, .finish 0 (.ok ()),
    .mark 0 true true, .tick 60000, .sweepDead (orders 1)]

theorem outcome_marks_settle_in_time :
    Meets Store.step Punctual Store.new handledInTime ∧
    Between Store.step Keeps Store.new handledInTime ∧
    (exec Store.step Store.new handledInTime).map (fun store => (store.rows 1).map Row.state) =
      some (some .done) :=
  ⟨by decide, (outcome_marks_settle handledInTime (by decide)).1, by decide⟩

def stalled (maxAttempts : Nat) : List Label :=
  [.publish "orders" "1" 0, .spawn (orders maxAttempts) "a", .spawn (orders maxAttempts) "b",
    .claim 0 1 true, .tick 40001]

/-- The stalled consumer's mark turns the dead letter into a message that is
done, and with a second attempt it finishes the message under the consumer
that has claimed it since. -/
theorem late_mark_overwrites :
    (∃ buried final,
      exec Store.step Store.new (stalled 1 ++ [.sweepDead (orders 1)]) = some buried ∧
      (buried.rows 1).map Row.state = some .dead ∧
      exec Store.step buried [.finish 0 (.ok ()), .mark 0 true true] = some final ∧
      (final.rows 1).map Row.state = some .done) ∧
    ∃ reclaimed final,
      exec Store.step Store.new (stalled 2 ++ [.sweepReady (orders 2), .claim 1 1 true,
        .finish 0 (.ok ())]) = some reclaimed ∧
      (reclaimed.rows 1).map Row.lockedBy = some (some "b") ∧
      ¬ MarksCurrent reclaimed (.mark 0 true true) ∧
      reclaimed.step (.mark 0 true true) = some final ∧
      (final.rows 1).map Row.state = some .done := by
  refine ⟨⟨_, _, rfl, rfl, rfl, rfl⟩, ⟨_, _, rfl, rfl, ?_, rfl, rfl⟩⟩
  intro current
  exact absurd (current _ rfl _ rfl _ rfl).1 (by decide)

end Usai.Queue
