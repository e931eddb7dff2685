import Usai.Postgres.Leases

/-! What it means that a leased connection is settled, and what one answer does
to that at each place where the code sends a request. -/

namespace Usai.Postgres

open Exchange Session

def Connection.Settled (connection : Connection) : Prop :=
  ∀ lease, connection.lease = some lease →
    (lease.drop = .returned ∧ connection.session.outstanding = false ∧
      connection.session.block = false ∧ lease.terminal = true) ∨
    lease.drop = .quarantined

def Answer.ends (answer : Answer) (before : Session) : Bool :=
  match answer.result with
  | .ok _ => true
  | .error (.db _ _) => answer.applied || !before.block
  | .error (.client _) => !before.outstanding && !before.block
  | .error (.closed _) | .error (.unexpected _) => false

def failedLost {Value : Type} : Except DriverError Value → Bool
  | .error error => error.lost
  | .ok _ => false

variable (setting : Setting)

/-- The answers after which the code is right about the connection, for each
place where it sends a request. -/
def Exchange.safe (exchange : Exchange) : Bool :=
  let answer := exchange.answer
  match exchange.place with
  | .prepare =>
    match answer.result with
    | .error (.closed _) | .error (.unexpected _) => false
    | _ => true
  | .statement sql =>
    match answer.result with
    | .ok _ => setting.control sql != .opens
    | .error (.unexpected _) => false
    | .error _ => true
  | .openUnsynced =>
    match answer.result with
    | .error (.db code _) => connectionLost code || !answer.applied
    | .error (.unexpected _) => false
    | _ => true
  | .rollbackUnsynced failure => failure.lost || answer.ends exchange.before
  | .commitUnsynced => failedLost answer.result || answer.ends exchange.before
  | .begin =>
    match answer.result with
    | .ok _ => !exchange.cancelled
    | .error (.unexpected _) => false
    | .error _ => true
  | .rollbackFinish => answer.ends exchange.before
  | .statementUnsynced | .prepareHeld | .statementHeld | .finish | .rollbackForWorld | .probe =>
    true

def Connection.LogSafe (connection : Connection) : Prop :=
  ∀ exchange ∈ connection.log, exchange.safe setting = true

/-- The code was right about the connection exactly if every answer was one it
is right about. -/
def Connection.Judged (connection : Connection) : Prop :=
  connection.Settled ↔ connection.LogSafe setting

structure Connection.Held (connection : Connection) : Prop where
  lease : connection.lease = some ⟨false⟩
  safe : connection.LogSafe setting

structure Connection.Verdict (lost : Bool) (connection : Connection) : Prop where
  lease : connection.lease = some ⟨false⟩
  safe : lost = true → connection.LogSafe setting
  clean : lost = false → (connection.session.Clean ↔ connection.LogSafe setting)

variable {setting}

theorem Session.clean_iff (session : Session) :
    session.Clean ↔ session.outstanding = false ∧ session.block = false :=
  ⟨fun clean => ⟨clean.idle, clean.outside⟩, fun ⟨idle, outside⟩ => ⟨idle, outside⟩⟩

namespace Connection

variable {connection : Connection}

theorem settled_of_quarantined (lease : connection.lease = some ⟨false⟩) : connection.Settled := by
  intro held same
  rw [lease, Option.some.injEq] at same
  exact .inr (same ▸ rfl)

theorem settled_markTerminal (lease : connection.lease = some ⟨false⟩) :
    connection.markTerminal.Settled ↔ connection.session.Clean := by
  have marked : connection.markTerminal.lease = some ⟨true⟩ := by
    simp only [markTerminal, lease, Option.map_some]
  constructor
  · intro settled
    rcases settled ⟨true⟩ marked with ⟨_, idle, outside, _⟩ | quarantined
    · exact ⟨idle, outside⟩
    · cases quarantined
  · intro clean held same
    rw [marked, Option.some.injEq] at same
    exact .inl ⟨same ▸ rfl, clean.idle, clean.outside, same ▸ rfl⟩

theorem Held.judged (held : connection.Held setting) : connection.Judged setting :=
  iff_of_true (settled_of_quarantined held.lease) held.safe

theorem judged_of_unleased (fresh : connection.lease = none) (empty : connection.log = []) :
    connection.Judged setting := by
  refine iff_of_true ?_ ?_
  · intro lease same
    rw [fresh] at same
    cases same
  · intro exchange member
    rw [empty] at member
    cases member

theorem Held.take (empty : connection.log = []) : connection.take.Held setting where
  lease := rfl
  safe := by
    intro exchange member
    have none : connection.take.log = [] := empty
    rw [none] at member
    cases member

theorem Verdict.of_clean (held : connection.Held setting) (clean : connection.session.Clean) :
    connection.Verdict setting false where
  lease := held.lease
  safe := by intro impossible; cases impossible
  clean := fun _ => iff_of_true clean held.safe

theorem Verdict.judged_marked (verdict : connection.Verdict setting false) :
    connection.markTerminal.Judged setting :=
  (settled_markTerminal verdict.lease).trans (verdict.clean rfl)

theorem Verdict.held (verdict : connection.Verdict setting true) : connection.Held setting :=
  ⟨verdict.lease, verdict.safe rfl⟩

theorem Held.pending (held : connection.Held setting) (cancelled : Bool) (turns : List Turn) :
    (connection.pending cancelled turns).Held setting := ⟨held.lease, held.safe⟩

theorem Held.remember (held : connection.Held setting) (sql : String) (types : List String) :
    (connection.remember sql types).Held setting := ⟨held.lease, held.safe⟩

section

variable {place : Place} {request : Request} {answer : Answer} {cancelled : Bool}
  {turns : List Turn}

theorem logSafe_answered :
    (connection.answered setting place request answer cancelled turns).LogSafe setting ↔
      safe setting ⟨place, connection.session, cancelled, answer⟩ = true ∧
        connection.LogSafe setting :=
  List.forall_mem_cons

theorem Held.answered (held : connection.Held setting)
    (safe : Exchange.safe setting ⟨place, connection.session, cancelled, answer⟩ = true) :
    (connection.answered setting place request answer cancelled turns).Held setting :=
  ⟨held.lease, logSafe_answered.mpr ⟨safe, held.safe⟩⟩

theorem Held.verdict (held : connection.Held setting) {lost : Bool} (safe : lost = true →
      Exchange.safe setting ⟨place, connection.session, cancelled, answer⟩ = true)
    (clean : lost = false → ((connection.session.receive setting request answer).Clean ↔
      Exchange.safe setting ⟨place, connection.session, cancelled, answer⟩ = true)) :
    (connection.answered setting place request answer cancelled turns).Verdict setting lost where
  lease := held.lease
  safe := fun same => logSafe_answered.mpr ⟨safe same, held.safe⟩
  clean := fun same =>
    (clean same).trans (Iff.trans (iff_self_and.mpr fun _ => held.safe) logSafe_answered.symm)

end

end Connection

/-! What one answer does, place by place. -/

section

variable {before : Session} {answer : Answer} {cancelled : Bool} {error : DriverError}

theorem receive_ending {request : Request} (ending : request = .commit ∨ request = .rollback) :
    (before.receive setting request answer).Clean ↔ answer.ends before = true := by
  rw [clean_iff]
  rcases ending with rfl | rfl
  all_goals
    unfold receive Answer.ends
    cases answer.result with
    | ok => simp [Request.succeed]
    | error error =>
      cases error with
      | db => cases before.block <;> simp [Request.fail]
      | closed => simp
      | unexpected => simp
      | client => simp

theorem receive_prepare (clean : before.Clean) (sql : String) :
    (before.receive setting (.prepare sql) answer).Clean ↔
      safe setting ⟨.prepare, before, cancelled, answer⟩ = true := by
  obtain ⟨result, _⟩ := answer
  rw [clean_iff]
  simp only [receive, safe]
  cases result with
  | ok => simp [Request.succeed, clean.outside]
  | error error =>
    cases error with
    | db => simp [Request.fail, clean.outside]
    | closed => simp
    | unexpected => simp
    | client => simp [clean.idle, clean.outside]

theorem receive_statement (clean : before.Clean) (sql : String)
    (kept : failedLost answer.result = false) :
    (before.receive setting (.statement sql) answer).Clean ↔
      safe setting ⟨.statement sql, before, cancelled, answer⟩ = true := by
  obtain ⟨result, _⟩ := answer
  rw [clean_iff]
  simp only [receive, safe]
  cases result with
  | ok =>
    cases control : setting.control sql <;> simp [Request.succeed, clean.outside, control]
  | error error =>
    cases error with
    | db => simp [Request.fail, clean.outside]
    | closed => cases kept
    | unexpected => simp
    | client => simp [clean.idle, clean.outside]

theorem receive_openUnsynced (clean : before.Clean)
    (failed : answer.result = .error error) (kept : error.lost = false) :
    (before.receive setting .beginUnsynced answer).Clean ↔
      safe setting ⟨.openUnsynced, before, cancelled, answer⟩ = true := by
  rw [clean_iff]
  simp only [receive, safe, failed]
  cases error with
  | db code _ =>
    have known : connectionLost code = false := kept
    simp [Request.fail, clean.outside, known]
  | closed => cases kept
  | unexpected => simp
  | client => simp [clean.idle, clean.outside]

theorem receive_begin (clean : before.Clean)
    (failed : answer.result = .error error) (kept : error.lost = false) :
    (before.receive setting .begin answer).Clean ↔
      safe setting ⟨.begin, before, cancelled, answer⟩ = true := by
  rw [clean_iff]
  simp only [receive, safe, failed]
  cases error with
  | db => simp [Request.fail, clean.outside]
  | closed => cases kept
  | unexpected => simp
  | client => simp [clean.idle, clean.outside]

theorem safe_of_lost {place : Place}
    (judges : place = .openUnsynced ∨ place = .begin ∨ place = .commitUnsynced ∨
      ∃ sql, place = .statement sql)
    (failed : answer.result = .error error) (lost : error.lost = true) :
    safe setting ⟨place, before, cancelled, answer⟩ = true := by
  rcases judges with rfl | rfl | rfl | ⟨_, rfl⟩
  all_goals
    simp only [safe, failed, failedLost]
    cases error with
    | db => simp_all [DriverError.lost]
    | closed => simp [DriverError.lost]
    | unexpected => cases lost
    | client => cases lost

end

end Usai.Postgres
