import Usai.Postgres.Verdicts

/-! When a leased connection goes back to the pool: the routines from the
innermost out, and the rule for a slot's whole life. -/

namespace Usai.Postgres

open Connection Exchange Routine Session Transition

variable {setting : Setting} {Value : Type}

theorem reusable_afterCancel (result : Except DriverError Value) :
    reusable (afterCancel result) = !failedLost result := by
  unfold afterCancel
  split
  · rfl
  · exact reusable_sqlError _
  · rfl

theorem reusable_mapError (result : Except DriverError Value) :
    reusable (result.mapError sqlError) = !failedLost result := by
  cases result with
  | ok => rfl
  | error error => exact reusable_sqlError error

theorem failedLost_decoded (success : Success) (method : Method) :
    failedLost (if method.reads then success.decoded else .ok ()) = false := by
  cases method.reads with
  | false => rfl
  | true =>
    simp only [if_true, Success.decoded]
    cases success.undecodable <;> rfl

section

variable {connection : Connection} {waiting : Connection → Prop}

theorem ensures_runCancellable
    {returned : Finished (Except ResourceError Value) → Connection → Prop}
    {answered : Except DriverError Value → Connection → Prop}
    {stopped : Connection → Prop}
    (ensures : Ensures query answered stopped connection)
    (ends : ∀ result outcome final, answered result final →
      reusable outcome = (!failedLost result) →
      (∀ value, outcome = .ok value ↔ result = .ok value ∧ final.cancelled = false) →
      returned (.terminal outcome) final)
    (expires : ∀ final, stopped final → returned .ambiguous final)
    (waits : ∀ final, stopped final → waiting final) :
    Ensures (runCancellable query) returned waiting connection := by
  rw [runCancellable, ensures_bind, ensures_attempt]
  refine ensures_mono ensures ?_ ?_
  · intro result final holds
    rw [ensures_bind, ensures_current]
    cases fired : final.cancelled with
    | true =>
      refine ends result _ final holds (reusable_afterCancel result) ?_
      intro value
      refine iff_of_false ?_ (fun both => nomatch fired.symm.trans both.2)
      intro same
      unfold afterCancel at same
      split at same <;> cases same
    | false =>
      refine ends result _ final holds (reusable_mapError result) ?_
      cases result with
      | ok => simp [Except.mapError, fired]
      | error => simp [Except.mapError]
  · intro final holds
    rw [ensures_bind, ensures_current]
    cases fired : final.cancelled with
    | true => simpa only [if_true, ensures_pure] using expires final holds
    | false => simpa only [Bool.false_eq_true, if_false, ensures_wait] using waits final holds

theorem ensures_prepareCached {place : Place}
    {returned : Except DriverError (List String) → Connection → Prop}
    (known : ∀ types, returned (.ok types) connection)
    (exchanged : Ensures (exchange setting place (.prepare sql))
      (fun result final => match result with
        | .error error => returned (.error error) final
        | .ok success => returned (.ok success.types) (final.remember sql success.types))
      waiting connection) :
    Ensures (prepareCached setting place sql) returned waiting connection := by
  simp only [prepareCached, ensures_bind, ensures_current]
  cases connection.session.statements.lookup sql with
  | some types => exact known types
  | none =>
    rw [ensures_bind]
    refine ensures_mono exchanged ?_ (fun _ holds => holds)
    intro result final holds
    cases result with
    | error => exact holds
    | ok => exact holds

section

variable (held : connection.Held setting)
include held

theorem prepareAndBind_single (clean : connection.session.Clean) (request : SqlRequest) :
    Ensures (prepareAndBind setting .prepare request)
      (fun result final => match result with
        | .error _ => final.Verdict setting false
        | .ok () => final.Held setting ∧ final.session.Clean)
      (fun final => final.Held setting) connection := by
  have bound : ∀ (final : Connection) types, final.Held setting → final.session.Clean →
      match bindParams setting request types with
      | .error _ => final.Verdict setting false
      | .ok () => final.Held setting ∧ final.session.Clean := by
    intro final types held clean
    cases bindParams setting request types with
    | error => exact .of_clean held clean
    | ok => exact ⟨held, clean⟩
  rw [prepareAndBind, ensures_bind]
  apply ensures_prepareCached
  · intro types
    exact bound connection types held clean
  · apply ensures_exchange
    · exact held.pending
    · intro answer cancelled turns
      have decided : (connection.answered setting .prepare (.prepare request.sql) answer cancelled
          turns).Verdict setting false :=
        held.verdict nofun
          (fun _ => receive_prepare clean request.sql)
      cases given : answer.result with
      | error => exact decided
      | ok success =>
        have safe : safe setting ⟨.prepare, connection.session, cancelled, answer⟩ =
            true := by
          simp only [safe, given]
        have still : (connection.session.receive setting (.prepare request.sql) answer).Clean :=
          (receive_prepare clean request.sql).mpr safe
        exact bound _ success.types ((held.answered safe).remember request.sql success.types)
          ⟨still.idle, still.outside⟩

theorem prepareAndBind_held (request : SqlRequest) :
    Ensures (prepareAndBind setting .prepareHeld request) (fun _ final => final.Held setting)
      (fun final => final.Held setting) connection := by
  rw [prepareAndBind, ensures_bind]
  apply ensures_prepareCached
  · intro types
    exact held
  · apply ensures_exchange
    · exact held.pending
    · intro answer cancelled turns
      cases answer.result with
      | error => exact held.answered rfl
      | ok success => exact (held.answered rfl).remember request.sql success.types

theorem runStatement_single (clean : connection.session.Clean) (sql : String) (method : Method) :
    Ensures (runStatement setting (.statement sql) sql method)
      (fun result final => final.Verdict setting (failedLost result))
      (fun final => final.Held setting) connection := by
  rw [runStatement, ensures_bind]
  apply ensures_exchange
  · exact held.pending
  · intro answer cancelled turns
    obtain ⟨result, _⟩ := answer
    cases result with
    | error =>
      refine held.verdict ?_ ?_
      · exact safe_of_lost (.inr (.inr (.inr ⟨sql, rfl⟩))) rfl
      · intro kept
        exact receive_statement clean sql kept
    | ok =>
      refine (ensures_pure _).mpr ?_
      rw [failedLost_decoded]
      refine held.verdict ?_ ?_
      · intro impossible
        cases impossible
      · intro kept
        exact receive_statement clean sql kept

theorem runStatement_held (sql : String) (method : Method) :
    Ensures (runStatement setting .statementHeld sql method) (fun _ final => final.Held setting)
      (fun final => final.Held setting) connection := by
  rw [runStatement, ensures_bind]
  apply ensures_exchange
  · exact held.pending
  · intro answer cancelled turns
    cases answer.result with
    | error | ok => exact held.answered rfl

end

theorem verdict_ending {place : Place} {request : Request} {answer : Answer} {cancelled : Bool}
    {turns : List Turn} (held : connection.Held setting)
    (ending : request = .commit ∨ request = .rollback) {lost : Bool}
    (judges : safe setting ⟨place, connection.session, cancelled, answer⟩ =
      (lost || answer.ends connection.session)) :
    (connection.answered setting place request answer cancelled turns).Verdict setting lost := by
  refine held.verdict ?_ ?_
  · intro same
    rw [judges, same, Bool.true_or]
  · intro same
    rw [judges, same, Bool.false_or]
    exact receive_ending ending

theorem runUnsynced_verdict (held : connection.Held setting) (clean : connection.session.Clean)
    (sql : String) (method : Method) :
    Ensures (runUnsynced setting sql method)
      (fun result final => final.Verdict setting (failedLost result))
      (fun final => final.Held setting) connection := by
  rw [runUnsynced, ensures_bind]
  apply ensures_exchange
  · exact held.pending
  · intro answer cancelled turns
    cases given : answer.result with
    | error =>
      refine held.verdict ?_ ?_
      · exact safe_of_lost (.inl rfl) given
      · exact receive_openUnsynced clean given
    | ok success =>
      have opened : (connection.answered setting .openUnsynced .beginUnsynced answer cancelled
          turns).Held setting := by
        refine held.answered ?_
        simp only [safe, given]
      rw [ensures_bind]
      apply ensures_exchange
      · exact opened.pending
      · intro answer cancelled turns
        have ran : (answered setting _ .statementUnsynced (.statement sql) answer
            cancelled turns).Held setting := opened.answered rfl
        cases answer.result with
        | error =>
          rw [ensures_bind]
          apply ensures_exchange
          · exact ran.pending
          · intro answer cancelled turns
            exact verdict_ending ran (.inr rfl) rfl
        | ok =>
          rw [ensures_bind]
          apply ensures_exchange
          · exact ran.pending
          · intro answer cancelled turns
            obtain ⟨result, _⟩ := answer
            cases result with
            | error => exact verdict_ending ran (.inl rfl) rfl
            | ok =>
              refine (ensures_pure _).mpr ?_
              rw [failedLost_decoded]
              exact verdict_ending ran (.inl rfl) rfl

theorem ensures_marked {Result : Type} (same : reuse = !lost)
    (verdict : connection.Verdict setting lost) (marked kept : Result) :
    Ensures (if reuse then do change markTerminal; pure marked else pure kept)
      (fun _ final => final.Judged setting) (fun final => final.Judged setting) connection := by
  cases lost with
  | true =>
    rw [same]
    exact verdict.held.judged
  | false =>
    rw [same]
    exact verdict.judged_marked

theorem conclude_judged
    (ensures : Ensures query (fun result final => final.Verdict setting (failedLost result))
      (fun final => final.Held setting) connection) :
    Ensures (do let finished ← runCancellable query; conclude finished)
      (fun _ final => final.Judged setting) (fun final => final.Judged setting) connection := by
  rw [ensures_bind]
  refine ensures_runCancellable ensures ?_ ?_ ?_
  · intro result outcome final verdict same _
    exact ensures_marked same verdict outcome outcome
  · intro final held
    exact held.judged
  · intro final held
    exact held.judged

theorem callLeased_judged (held : connection.Held setting) (clean : connection.session.Clean)
    (method : Method) (request : SqlRequest) :
    Ensures (callLeased setting method request) (fun _ final => final.Judged setting)
      (fun final => final.Judged setting) connection := by
  unfold callLeased
  rw [ensures_bind]
  refine ensures_mono (prepareAndBind_single held clean request) ?_ ?_
  · intro bound final prepared
    cases bound with
    | error => exact prepared.judged_marked
    | ok =>
      obtain ⟨held, clean⟩ := prepared
      have single := runStatement_single held clean request.sql
      have unsynced := runUnsynced_verdict held clean request.sql
      cases method with
      | query => exact conclude_judged (single .query)
      | one =>
        cases request.asyncCommit with
        | true => exact conclude_judged (unsynced .one)
        | false => exact conclude_judged (single .one)
      | execute =>
        cases request.asyncCommit with
        | true => exact conclude_judged (unsynced .execute)
        | false => exact conclude_judged (single .execute)
      | other => exact (Connection.Verdict.of_clean held clean).judged_marked
  · intro final held
    exact held.judged

theorem callInner_judged (fresh : connection.lease = none) (empty : connection.log = [])
    (clean : connection.session.Clean) (checkout : Checkout) (method : Method)
    (request : SqlRequest) :
    Ensures (callInner setting checkout method request) (fun _ final => final.Judged setting)
      (fun final => final.Judged setting) connection := by
  have untouched : connection.Judged setting := judged_of_unleased fresh empty
  unfold callInner
  split
  · exact untouched
  · cases acquire setting checkout with
    | error => exact untouched
    | ok =>
      exact callLeased_judged (.take empty) clean method request

section

variable (held : connection.Held setting)
include held

theorem rollbackForWorld_judged :
    Ensures (rollbackForWorld setting) (fun _ final => final.Judged setting)
      (fun final => final.Judged setting) connection := by
  rw [rollbackForWorld, ensures_bind, ensures_attempt, batchExecute, ensures_bind]
  apply ensures_exchange
  · intro cancelled turns
    exact (held.pending cancelled turns).judged
  · intro answer cancelled turns
    have answered : (connection.answered setting .rollbackForWorld .rollback answer cancelled
        turns).Held setting := held.answered rfl
    cases given : answer.result with
    | error => exact answered.judged
    | ok =>
      have clean : (connection.session.receive setting .rollback answer).Clean := by
        rw [receive_ending (.inr rfl), Answer.ends, given]
      exact (Connection.Verdict.of_clean answered clean).judged_marked

theorem batchExecute_finish (commit : Bool) :
    Ensures (batchExecute setting .finish (if commit then .commit else .rollback))
      (fun result final => final.Held setting ∧ (result = .ok () → final.session.Clean))
      (fun final => final.Held setting) connection := by
  have ending : (if commit then .commit else .rollback) = Request.commit ∨
      (if commit then .commit else .rollback) = Request.rollback := by
    cases commit <;> simp
  rw [batchExecute, ensures_bind]
  apply ensures_exchange
  · exact held.pending
  · intro answer cancelled turns
    refine (ensures_pure _).mpr ⟨held.answered rfl, ?_⟩
    intro succeeded
    refine (receive_ending ending).mpr ?_
    cases given : answer.result with
    | error =>
      rw [given] at succeeded
      cases succeeded
    | ok => rw [Answer.ends, given]

theorem finishTransaction_judged (commit : Bool) :
    Ensures (finishTransaction setting commit) (fun _ final => final.Judged setting)
      (fun final => final.Judged setting) connection := by
  rw [finishTransaction, ensures_bind]
  refine ensures_runCancellable (batchExecute_finish held commit) ?_ ?_ ?_
  · rintro _ outcome final ⟨held, clean⟩ _ succeeds
    cases outcome with
    | ok value =>
      have succeeded := ((succeeds value).mp rfl).1
      exact (Connection.Verdict.of_clean held (clean succeeded)).judged_marked
    | error =>
      simp only
      split
      · rw [ensures_bind, batchExecute, ensures_bind]
        apply ensures_exchange
        · intro cancelled turns
          exact (held.pending cancelled turns).judged
        · intro answer cancelled turns
          have decided : (final.answered setting .rollbackFinish .rollback answer cancelled
              turns).Verdict setting false := verdict_ending held (.inr rfl) rfl
          exact decided.judged_marked
      · exact held.judged
  · intro final held
    exact held.judged
  · intro final held
    exact held.judged

theorem transactionStatement_held (method : Method) (request : SqlRequest) :
    Ensures (transactionStatement setting method request) (fun _ final => final.Held setting)
      (fun final => final.Held setting) connection := by
  unfold transactionStatement
  rw [ensures_bind]
  refine ensures_mono (prepareAndBind_held held request) ?_ (fun _ held => held)
  intro bound final held
  have run : ∀ method, Ensures
      (runCancellable (runStatement setting .statementHeld request.sql method))
      (fun _ final => final.Held setting) (fun final => final.Held setting) final := by
    intro method
    exact ensures_runCancellable (runStatement_held held request.sql method)
      (fun _ _ _ held _ _ => held) (fun _ held => held) (fun _ held => held)
  cases bound with
  | error => exact held
  | ok =>
    cases method with
    | query => exact run .query
    | one => exact run .one
    | execute => exact run .execute
    | other => exact held

theorem holdTransaction_judged (commands : List TxCommand) :
    Ensures (holdTransaction setting commands) (fun _ final => final.Judged setting)
      (fun final => final.Judged setting) connection := by
  have gone : ∀ {connection : Connection}, connection.Held setting →
      Ensures (do rollbackForWorld setting; pure []) (fun (_ : List (Except ResourceError Unit))
        final => final.Judged setting) (fun final => final.Judged setting) connection := by
    intro connection held
    rw [ensures_bind]
    exact rollbackForWorld_judged held
  induction commands generalizing connection with
  | nil => exact gone held
  | cons command _ ih =>
    unfold holdTransaction
    rw [ensures_bind, ensures_current]
    cases connection.cancelled with
    | true => exact gone held
    | false =>
      cases command with
      | finish commit =>
        simp only [Bool.false_eq_true, if_false]
        rw [ensures_bind]
        exact finishTransaction_judged held commit
      | sql method request =>
        simp only [Bool.false_eq_true, if_false]
        rw [ensures_bind]
        refine ensures_mono (transactionStatement_held held method request) ?_ ?_
        · intro finished final held
          cases finished with
          | ambiguous => exact held.judged
          | terminal =>
            simp only
            split
            · rw [ensures_bind]
              exact ih held
            · exact held.judged
        · intro final held
          exact held.judged

end

/-- What the answer to `BEGIN` leaves. A success whose token has fired is
reported as a cancellation, although the block is open. -/
structure Began (setting : Setting) (result : Except DriverError Unit) (final : Connection) :
    Prop where
  opened : result = .ok () → final.cancelled = false → final.Held setting
  orphaned : result = .ok () → final.cancelled = true → final.Verdict setting false
  failed : ∀ error, result = .error error → final.Verdict setting error.lost

theorem batchExecute_begin (held : connection.Held setting) (clean : connection.session.Clean) :
    Ensures (batchExecute setting .begin .begin) (Began setting)
      (fun final => final.Held setting) connection := by
  rw [batchExecute, ensures_bind]
  apply ensures_exchange
  · exact held.pending
  · intro answer cancelled turns
    obtain ⟨result, _⟩ := answer
    cases result with
    | ok =>
      refine ⟨?_, ?_, by rintro _ ⟨⟩⟩
      · intro _ kept
        have kept : cancelled = false := kept
        exact held.answered (by simp only [safe, kept, Bool.not_false])
      · intro _ fired
        have fired : cancelled = true := fired
        refine held.verdict (by simp) (fun _ => ?_)
        simp [clean_iff, receive, Request.succeed, safe, fired]
    | error =>
      refine ⟨by rintro ⟨⟩, by rintro ⟨⟩, ?_⟩
      intro failure same
      cases same
      refine held.verdict ?_ ?_
      · exact safe_of_lost (.inr (.inl rfl)) rfl
      · exact receive_begin clean rfl

variable (fresh : connection.lease = none)
  (empty : connection.log = [])
  (clean : connection.session.Clean)
include fresh empty clean

theorem beginTransaction_judged (checkout : Checkout) (commands : List TxCommand) :
    Ensures (beginTransaction setting checkout commands) (fun _ final => final.Judged setting)
      (fun final => final.Judged setting) connection := by
  have untouched : connection.Judged setting := judged_of_unleased fresh empty
  unfold beginTransaction
  cases acquire setting checkout with
  | error => exact untouched
  | ok =>
    rw [ensures_bind, ensures_change, ensures_bind]
    refine ensures_runCancellable (batchExecute_begin (.take empty) clean) ?_ ?_ ?_
    · intro result outcome final began same succeeds
      cases outcome with
      | ok value =>
        obtain ⟨succeeded, kept⟩ := (succeeds value).mp rfl
        rw [ensures_bind]
        exact holdTransaction_judged (began.opened succeeded kept) commands
      | error error =>
        cases result with
        | ok value =>
          have fired : final.cancelled = true := by
            cases fired : final.cancelled with
            | true => rfl
            | false => cases (succeeds value).mpr ⟨rfl, fired⟩
          exact ensures_marked same (began.orphaned rfl fired) _ _
        | error failure => exact ensures_marked same (began.failed failure rfl) _ _
    · intro final held
      exact held.judged
    · intro final held
      exact held.judged

theorem probeInner_judged (checkout : Checkout) :
    Ensures (probeInner setting checkout) (fun _ final => final.Judged setting)
      (fun final => final.Judged setting) connection := by
  unfold probeInner
  cases acquire setting checkout with
  | error => exact judged_of_unleased fresh empty
  | ok =>
    have taken : connection.take.Held setting := .take empty
    rw [ensures_bind, ensures_change, ensures_bind]
    apply ensures_exchange
    · intro cancelled turns
      exact (taken.pending cancelled turns).judged
    · intro answer cancelled turns
      have answered : (connection.take.answered setting .probe .selectOne answer cancelled
          turns).Held setting := taken.answered rfl
      cases given : answer.result with
      | error => exact answered.judged
      | ok =>
        have still : (connection.session.receive setting .selectOne answer).Clean := by
          simp [clean_iff, receive, given, Request.succeed, clean.outside]
        exact (Connection.Verdict.of_clean answered still).judged_marked

theorem routine_judged (job : Job) (checkout : Checkout) :
    Ensures (job.routine setting checkout) (fun _ final => final.Judged setting)
      (fun final => final.Judged setting) connection := by
  cases job with
  | call method request =>
    rw [Job.routine, ensures_bind]
    exact callInner_judged fresh empty clean checkout method request
  | transaction commands =>
    rw [Job.routine, ensures_bind]
    exact beginTransaction_judged fresh empty clean checkout commands
  | probe =>
    rw [Job.routine, ensures_bind]
    exact probeInner_judged fresh empty clean checkout

end

/-! A pool slot over all its visits. -/

theorem slotStep_clean {session next : Session} (clean : session.Clean)
    (settled : (visit.run setting session).2.Settled)
    (taken : slotStep setting session visit = some next) : next.Clean := by
  simp only [slotStep] at taken
  cases leased : (visit.run setting session).2.lease with
  | none =>
    rw [leased] at taken
    cases taken
    exact clean
  | some lease =>
    rw [leased] at taken
    simp only at taken
    split at taken
    · rcases settled lease leased with ⟨returned, idle, outside, _⟩ | quarantined
      · rw [returned] at taken
        cases taken
        exact ⟨idle, outside⟩
      · rw [quarantined] at taken
        cases taken
        exact ⟨rfl, rfl⟩
    · cases taken

variable (setting) in
/-- Every visit of a pool slot, from a new connection on, hands its connection
back with nothing outstanding, outside a transaction block and on a terminal
proof, or removes it, exactly if every request of the visit is answered as the
code expects at the place where it sends it. -/
theorem connection_reuse (visits : List Visit) :
    Meets (slotStep setting) (fun session visit => (visit.run setting session).2.Settled)
        Session.fresh visits ↔
      Meets (slotStep setting) (fun session visit =>
        ∀ exchange ∈ (visit.run setting session).2.log, exchange.safe setting = true)
        Session.fresh visits := by
  have fresh : fresh.Clean := ⟨rfl, rfl⟩
  refine meets_congr ?_ ?_ fresh visits
  · intro session visit next clean settled taken
    exact slotStep_clean clean settled taken
  · intro session visit clean
    exact ensures_final (routine_judged rfl rfl clean visit.job visit.checkout)

def cancelledBegin : Visit :=
  ⟨.transaction [], .granted, [⟨true, some ⟨.ok ⟨[], none⟩, true⟩⟩], false⟩

def localSetting : Setting :=
  ⟨"db", "localhost:5432", "app", fun _ => .neutral, fun _ _ => none⟩

/-- The connection goes back to the pool inside the transaction block. -/
theorem cancelled_begin_returns_open_block :
    slotStep localSetting Session.fresh cancelledBegin = some ⟨false, true, []⟩ ∧
      ¬ Meets (slotStep localSetting)
        (fun session visit => (visit.run localSetting session).2.Settled)
        Session.fresh [cancelledBegin] := by
  refine ⟨rfl, ?_⟩
  intro meets
  have settled : (cancelledBegin.run localSetting fresh).2.Settled :=
    (meets_cons meets rfl).1
  rcases settled ⟨true⟩ rfl with ⟨_, _, outside, _⟩ | quarantined
  · cases outside
  · cases quarantined

end Usai.Postgres
