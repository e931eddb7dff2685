import Mathlib.Data.List.Infix
import Usai.Routine
import Usai.Text

/-! The wire side of `resource/postgres.rs`: what a physical connection is, how
the driver answers a request, and what the runtime makes of an answer. -/

namespace Usai.Postgres

open Text (toAsciiLowercase unicodeSpace)

inductive TerminalProof where
  | terminal
  | ambiguous
  deriving DecidableEq, Repr

inductive ResourceError where
  | cancelled
  | exhausted (resource : String)
  | unknownMethod (resource method : String)
  | operation (code message : String) (proof : TerminalProof)
  deriving DecidableEq, Repr

structure Detail where
  text : String
  source : Option String
  deriving DecidableEq, Repr

/-- A driver error. Only `db` carries a SQLSTATE. After `closed` and
`unexpected` the state of the protocol is unknown; a `client` error is raised
before anything is sent or after the answer is complete. -/
inductive DriverError where
  | db (code message : String)
  | closed (text : String)
  | unexpected (detail : Detail)
  | client (detail : Detail)
  deriving DecidableEq, Repr

def connectionLost (code : String) : Bool :=
  "08".toList.isPrefixOf code.toList || code == "57P01" || code == "57P02" || code == "57P03"

def describe (detail : Detail) : String :=
  let message := match detail.source with
    | some source => detail.text ++ ": " ++ source
    | none => detail.text
  if "deserializing column".toList <:+: message.toList then
    message ++ " (unsupported column type; cast it in SQL, e.g. col::text)"
  else
    message

def sqlError : DriverError → ResourceError
  | .closed text => .operation "connection_closed" text .ambiguous
  | .db code message =>
    .operation ("sql_" ++ toAsciiLowercase code) message
      (if connectionLost code then .ambiguous else .terminal)
  | .unexpected detail | .client detail => .operation "postgres_error" (describe detail) .terminal

def DriverError.lost : DriverError → Bool
  | .closed _ => true
  | .db code _ => connectionLost code
  | .unexpected _ | .client _ => false

def reusable {Value : Type} : Except ResourceError Value → Bool
  | .error (.operation _ _ .ambiguous) => false
  | _ => true

theorem reusable_sqlError {Value : Type} (error : DriverError) :
    reusable (.error (sqlError error) : Except ResourceError Value) = !error.lost := by
  cases error with
  | db code _ =>
    cases lost : connectionLost code <;> simp [sqlError, reusable, DriverError.lost, lost]
  | closed => rfl
  | unexpected => rfl
  | client => rfl

inductive Lead where
  | between
  | lineComment
  | blockComment

def skipLead : Lead → List Char → List Char
  | .between, '-' :: '-' :: rest => skipLead .lineComment rest
  | .between, '/' :: '*' :: rest => skipLead .blockComment rest
  | .between, c :: rest => if unicodeSpace c then skipLead .between rest else c :: rest
  | .lineComment, '\n' :: rest => skipLead .between rest
  | .lineComment, _ :: rest => skipLead .lineComment rest
  -- A block comment ends at its first `*/`: comments do not nest here, as they do on the server.
  | .blockComment, '*' :: '/' :: rest => skipLead .between rest
  | .blockComment, _ :: rest => skipLead .blockComment rest
  | _, [] => []

def firstWord (sql : String) : String :=
  toAsciiLowercase (String.ofList
    ((skipLead .between sql.toList).takeWhile fun c => !(unicodeSpace c || c == ';')))

def connectionStateStatement (sql : String) : Option String :=
  match firstWord sql with
  | "begin" | "start" => some "begin"
  | "commit" | "end" => some "commit"
  | "rollback" | "abort" => some "rollback"
  | "savepoint" => some "savepoint"
  | "release" => some "release savepoint"
  | "set" => some "set"
  | "reset" => some "reset"
  | "discard" => some "discard"
  | "listen" | "unlisten" => some "listen"
  | "deallocate" => some "deallocate"
  | _ => none

example : connectionStateStatement "/* retry */ BEGIN" = some "begin" := by decide

-- The server drops the empty statement before the semicolon, the guard stops at it.
example : connectionStateStatement "; begin" = none := by decide

inductive Control where
  | neutral
  | opens
  | ends
  deriving DecidableEq, Repr

/-- The resource and what lies outside the runtime: how the server reads a
statement, and how a JSON value is encoded as a parameter of a named type, with
the detail of a failure. -/
structure Setting where
  name : String
  endpoint : String
  user : String
  control : String → Control
  encode : String → String → Option String

/-- What is sent. `beginUnsynced` is `BEGIN; SET LOCAL synchronous_commit = off`
and `selectOne` the probe's `SELECT 1`. -/
inductive Request where
  | prepare (sql : String)
  | statement (sql : String)
  | selectOne
  | begin
  | beginUnsynced
  | commit
  | rollback
  deriving DecidableEq, Repr

/-- The parameter types of a prepared statement; of a statement that returns
rows, the first column that cannot be decoded. -/
structure Success where
  types : List String
  undecodable : Option Detail
  deriving DecidableEq, Repr

def Success.decoded (success : Success) : Except DriverError Unit :=
  match success.undecodable with
  | some detail => .error (.client detail)
  | none => .ok ()

/-- The driver's answer. `applied` says whether the server carried the request
out, where the result leaves that open. -/
structure Answer where
  result : Except DriverError Success
  applied : Bool

/-- A physical connection. `outstanding`: a request was sent and nobody has
seen its end. `block`: the session is inside a transaction block, a failed one
included. -/
structure Session where
  outstanding : Bool
  block : Bool
  statements : List (String × List String)
  deriving DecidableEq, Repr

def Session.fresh : Session := ⟨false, false, []⟩

structure Session.Clean (session : Session) : Prop where
  idle : session.outstanding = false
  outside : session.block = false

variable (setting : Setting)

def Request.succeed (request : Request) (block : Bool) : Bool :=
  match request with
  | .prepare _ | .selectOne => block
  | .statement sql =>
    match setting.control sql with
    | .neutral => block
    | .opens => true
    | .ends => false
  | .begin | .beginUnsynced => true
  | .commit | .rollback => false

/-- After an SQL error. The batch of `beginUnsynced` can fail at its second
statement, inside the block the first has opened; a request that ends the block
can fail with the block ended or still open. -/
def Request.fail (request : Request) (applied block : Bool) : Bool :=
  match request with
  | .prepare _ | .selectOne | .begin => block
  | .statement sql => if setting.control sql = .ends then block && !applied else block
  | .beginUnsynced => block || applied
  | .commit | .rollback => block && !applied

/-- Answers come in the order of the requests, so one with a known protocol
state also settles what was sent before. -/
def Session.receive (session : Session) (request : Request) (answer : Answer) : Session :=
  match answer.result with
  | .ok _ => { session with outstanding := false, block := request.succeed setting session.block }
  | .error (.db _ _) =>
    { session with
      outstanding := false, block := request.fail setting answer.applied session.block }
  | .error (.closed _) | .error (.unexpected _) =>
    { session with
      outstanding := true
      block := if answer.applied then request.succeed setting session.block else session.block }
  | .error (.client _) => session

/-- Where in the code a request is sent. `rollbackUnsynced` follows the failure
of the statement before it, `rollbackFinish` a failed `COMMIT` or `ROLLBACK`. -/
inductive Place where
  | prepare
  | statement (sql : String)
  | openUnsynced
  | statementUnsynced
  | rollbackUnsynced (failure : DriverError)
  | commitUnsynced
  | begin
  | prepareHeld
  | statementHeld
  | finish
  | rollbackFinish
  | rollbackForWorld
  | probe
  deriving DecidableEq, Repr

/-- An answered request: the session it was sent in, and whether the caller's
token had fired when the answer came. -/
structure Exchange where
  place : Place
  before : Session
  cancelled : Bool
  answer : Answer

/-- What happens while a request is pending: the caller's token fires or not,
and an answer comes or not; once the token has fired, not within the bound. -/
structure Turn where
  cancelled : Bool
  answer : Option Answer

structure Lease where
  terminal : Bool
  deriving DecidableEq, Repr

inductive Disposal where
  | returned
  | quarantined
  deriving DecidableEq, Repr

def Lease.drop (lease : Lease) : Disposal :=
  if lease.terminal then .returned else .quarantined

/-- A physical connection while a call works on it. `turns` is what is still to
happen and `log` the exchanges so far, the last one first. -/
structure Connection where
  session : Session
  turns : List Turn
  cancelled : Bool
  lease : Option Lease
  log : List Exchange

abbrev Wire := Routine Connection

def Connection.take (connection : Connection) : Connection :=
  { connection with lease := some ⟨false⟩ }

def Connection.markTerminal (connection : Connection) : Connection :=
  { connection with lease := connection.lease.map fun _ => ⟨true⟩ }

def Connection.remember (sql : String) (types : List String) (connection : Connection) :
    Connection :=
  { connection with session.statements := (sql, types) :: connection.session.statements }

def Connection.pending (connection : Connection) (cancelled : Bool) (turns : List Turn) :
    Connection :=
  { connection with session.outstanding := true, cancelled, turns }

def Connection.answered (connection : Connection) (place : Place) (request : Request)
    (answer : Answer) (cancelled : Bool) (turns : List Turn) : Connection :=
  { connection with
    session := connection.session.receive setting request answer
    cancelled
    turns
    log := ⟨place, connection.session, cancelled, answer⟩ :: connection.log }

def exchange (place : Place) (request : Request) : Wire (Except DriverError Success) :=
  fun connection =>
    match connection.turns with
    | [] => (none, connection.pending connection.cancelled [])
    | turn :: turns =>
      let cancelled := connection.cancelled || turn.cancelled
      match turn.answer with
      | none => (none, connection.pending cancelled turns)
      | some answer =>
        (some answer.result, connection.answered setting place request answer cancelled turns)

open Routine in
theorem ensures_exchange {place : Place} {request : Request}
    {returned : Except DriverError Success → Connection → Prop} {waiting : Connection → Prop}
    {connection : Connection}
    (pending : ∀ cancelled turns, waiting (connection.pending cancelled turns))
    (answered : ∀ answer cancelled turns, returned answer.result
      (connection.answered setting place request answer cancelled turns)) :
    Ensures (exchange setting place request) returned waiting connection := by
  unfold Ensures exchange
  cases connection.turns with
  | nil => exact pending _ _
  | cons turn _ =>
    cases given : turn.answer with
    | none => simpa only [given] using pending _ _
    | some answer => simpa only [given] using answered answer _ _

end Usai.Postgres
