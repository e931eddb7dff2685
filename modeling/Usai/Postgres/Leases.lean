import Usai.Postgres.Wire
import Usai.Transition

/-! The calls of `resource/postgres.rs` that lease a connection: single
statements, transactions with the task that holds them, and the probe. -/

namespace Usai.Postgres

open Routine
open Text (unicodeSpace)

inductive Finished (Value : Type) where
  | terminal (value : Value)
  | ambiguous

def afterCancel {Value : Type} : Except DriverError Value → Except ResourceError Value
  | .error (.db "57014" _) => .error .cancelled
  | .error error => .error (sqlError error)
  | .ok _ => .error .cancelled

def runCancellable {Value : Type} (query : Wire (Except DriverError Value)) :
    Wire (Finished (Except ResourceError Value)) := do
  let result ← attempt query
  let connection ← current
  match result with
  | some result =>
    if connection.cancelled then
      pure (.terminal (afterCancel result))
    else
      pure (.terminal (result.mapError sqlError))
  | none => if connection.cancelled then pure .ambiguous else wait

/-- A request without a lease of its own, or a statement of a transaction. A
parameter is its JSON text. -/
structure SqlRequest where
  sql : String
  params : List String
  asyncCommit : Bool

inductive Method where
  | query
  | one
  | execute
  | other (name : String)

def Method.reads : Method → Bool
  | .query | .one => true
  | .execute | .other _ => false

inductive Checkout where
  | granted
  | cancelled
  | timeout
  | failed (reason : String)

variable (setting : Setting)

def poolErrorText (reason : String) : String :=
  "cannot connect to " ++ setting.endpoint ++ " as user " ++ setting.user ++ ": " ++ reason

def acquire : Checkout → Except ResourceError Unit
  | .granted => .ok ()
  | .cancelled => .error .cancelled
  | .timeout => .error (.exhausted setting.name)
  | .failed reason => .error (.operation "pool_error" (poolErrorText setting reason) .terminal)

def excerpt (sql : String) : String :=
  let words := (sql.toList.splitOnP unicodeSpace).filter fun word => !word.isEmpty
  let joined := List.intercalate [' '] words
  if joined.length > 120 then String.ofList (joined.take 117) ++ "..." else String.ofList joined

def withStatement (error : ResourceError) (sql : String) : ResourceError :=
  match error with
  | .operation code message proof => .operation code (message ++ "\n  in: " ++ excerpt sql) proof
  | other => other

def paramError (index : Nat) (type detail : String) : ResourceError :=
  .operation "invalid_param"
    ("parameter $" ++ toString (index + 1) ++ " (" ++ type ++ "): " ++ detail) .terminal

def toSql (index : Nat) (type value : String) : Option ResourceError :=
  (setting.encode type value).map (paramError index type)

def bindParams (request : SqlRequest) (types : List String) : Except ResourceError Unit :=
  if types.length ≠ request.params.length then
    .error (.operation "invalid_params"
      ("statement expects " ++ toString types.length ++ " parameters, got " ++
        toString request.params.length) .terminal)
  else
    let refused := (types.zip request.params).zipIdx.findSome? fun ((type, value), index) =>
      (toSql setting index type value).map (withStatement · request.sql)
    match refused with
    | some error => .error error
    | none => .ok ()

def prepareCached (place : Place) (sql : String) : Wire (Except DriverError (List String)) := do
  let connection ← current
  match connection.session.statements.lookup sql with
  | some types => pure (.ok types)
  | none =>
    let result ← exchange setting place (.prepare sql)
    match result with
    | .error error => pure (.error error)
    | .ok success => do
        change (Connection.remember sql success.types)
        pure (.ok success.types)

def prepareAndBind (place : Place) (request : SqlRequest) : Wire (Except ResourceError Unit) := do
  let statement ← prepareCached setting place request.sql
  match statement with
  | .error error => pure (.error (sqlError error))
  | .ok types => pure (bindParams setting request types)

def runStatement (place : Place) (sql : String) (method : Method) :
    Wire (Except DriverError Unit) := do
  let result ← exchange setting place (.statement sql)
  match result with
  | .error error => pure (.error error)
  | .ok success => pure (if method.reads then success.decoded else .ok ())

/-- A statement of the runtime's own bookkeeping, in a transaction that does
not wait for the disk. -/
def runUnsynced (sql : String) (method : Method) : Wire (Except DriverError Unit) := do
  let opened ← exchange setting .openUnsynced .beginUnsynced
  match opened with
  | .error error => pure (.error error)
  | .ok _ => do
      let result ← exchange setting .statementUnsynced (.statement sql)
      match result with
      | .error error => do
          let _ ← exchange setting (.rollbackUnsynced error) .rollback
          pure (.error error)
      | .ok success => do
          let committed ← exchange setting .commitUnsynced .commit
          match committed with
          | .error error => pure (.error error)
          | .ok _ => pure (if method.reads then success.decoded else .ok ())

def transactionControl (word : String) : ResourceError :=
  .operation "transaction_control"
    ("`" ++ word ++ "` cannot be sent with query/one/execute: each statement leases its own " ++
      "connection, so this one would change a connection the next statement does not " ++
      "have — and it would return to the pool in that state. Use " ++
      "`transaction(async (tx) => …)`, which pins one connection for the callback and " ++
      "ends it with a commit or a rollback (docs/GUIDE.md §7).")
    .terminal

def conclude : Finished (Except ResourceError Unit) → Wire (Except ResourceError Unit)
  | .terminal result =>
    if reusable result then do
      change Connection.markTerminal
      pure result
    else
      pure result
  | .ambiguous =>
    pure (.error (.operation "cancel_unconfirmed"
      ("the query did not reach a terminal state after cancellation; " ++
        "connection quarantined") .ambiguous))

def callLeased (method : Method) (request : SqlRequest) : Wire (Except ResourceError Unit) := do
  let bound ← prepareAndBind setting .prepare request
  match bound with
  | .error error => do
      change Connection.markTerminal
      pure (.error error)
  | .ok () =>
    match method with
    | .other name => do
        change Connection.markTerminal
        pure (.error (.unknownMethod setting.name name))
    -- Only `one` and `execute` look at the flag.
    | .query => do
        let finished ← runCancellable
          (runStatement setting (.statement request.sql) request.sql .query)
        conclude finished
    | .one => do
        let finished ← runCancellable
          (if request.asyncCommit then runUnsynced setting request.sql .one
           else runStatement setting (.statement request.sql) request.sql .one)
        conclude finished
    | .execute => do
        let finished ← runCancellable
          (if request.asyncCommit then runUnsynced setting request.sql .execute
           else runStatement setting (.statement request.sql) request.sql .execute)
        conclude finished

def callInner (checkout : Checkout) (method : Method) (request : SqlRequest) :
    Wire (Except ResourceError Unit) :=
  match if request.asyncCommit then none else connectionStateStatement request.sql with
  | some word => pure (.error (transactionControl word))
  | none =>
    match acquire setting checkout with
    | .error error => pure (.error error)
    | .ok () => do
        change Connection.take
        callLeased setting method request

inductive TxCommand where
  | sql (method : Method) (request : SqlRequest)
  | finish (commit : Bool)

def transactionStatement (method : Method) (request : SqlRequest) :
    Wire (Finished (Except ResourceError Unit)) := do
  let bound ← prepareAndBind setting .prepareHeld request
  match bound with
  | .error error => pure (.terminal (.error error))
  | .ok () =>
    match method with
    | .other name => pure (.terminal (.error (.unknownMethod "postgres" name)))
    | method => runCancellable (runStatement setting .statementHeld request.sql method)

def ambiguousAfterCancel : ResourceError :=
  .operation "cancel_unconfirmed"
    "the statement did not reach a terminal state after cancellation; connection quarantined"
    .ambiguous

def batchExecute (place : Place) (request : Request) : Wire (Except DriverError Unit) := do
  let result ← exchange setting place request
  pure (result.map fun _ => ())

def rollbackForWorld : Wire Unit := do
  let result ← attempt (batchExecute setting .rollbackForWorld .rollback)
  match result with
  | some (.ok ()) => change Connection.markTerminal
  | _ => pure ()

def finishTransaction (commit : Bool) : Wire (Except ResourceError Unit) := do
  let finished ← runCancellable
    (batchExecute setting .finish (if commit then .commit else .rollback))
  match finished with
  | .terminal (.ok ()) => do
      change Connection.markTerminal
      pure (.ok ())
  | .terminal (.error error) =>
    if reusable (.error error : Except ResourceError Unit) then do
      -- The rollback's own result is not looked at.
      let _ ← batchExecute setting .rollbackFinish .rollback
      change Connection.markTerminal
      pure (.error error)
    else
      pure (.error error)
  | .ambiguous => pure (.error ambiguousAfterCancel)

/-- The commands in the order in which they arrive, and the replies to them.
The list ends where the world drops its handle or its token fires between two
commands. -/
def holdTransaction : List TxCommand → Wire (List (Except ResourceError Unit))
  | [] => do
      rollbackForWorld setting
      pure []
  | command :: commands => do
      let connection ← current
      if connection.cancelled then do
        rollbackForWorld setting
        pure []
      else
        match command with
        | .sql method request => do
            let finished ← transactionStatement setting method request
            match finished with
            | .terminal result =>
              if reusable result then do
                let replies ← holdTransaction commands
                pure (result :: replies)
              else
                pure [result]
            | .ambiguous => pure [.error ambiguousAfterCancel]
        | .finish commit => do
            let reply ← finishTransaction setting commit
            pure [reply]

/-- `begin` and the task it hands the connection to. The first reply is the one
to `begin` itself. -/
def beginTransaction (checkout : Checkout) (commands : List TxCommand) :
    Wire (List (Except ResourceError Unit)) :=
  match acquire setting checkout with
  | .error error => pure [.error error]
  | .ok () => do
      change Connection.take
      let began ← runCancellable (batchExecute setting .begin .begin)
      match began with
      | .terminal (.ok ()) => do
          let replies ← holdTransaction setting commands
          pure (.ok () :: replies)
      | .terminal (.error error) =>
        if reusable (.error error : Except ResourceError Unit) then do
          change Connection.markTerminal
          pure [.error error]
        else
          pure [.error error]
      | .ambiguous => pure [.error ambiguousAfterCancel]

def probeInner (checkout : Checkout) : Wire Bool :=
  match acquire setting checkout with
  | .error _ => pure false
  | .ok () => do
      change Connection.take
      let result ← exchange setting .probe .selectOne
      match result with
      | .ok _ => do
          change Connection.markTerminal
          pure true
      | .error _ => pure false

inductive Job where
  | call (method : Method) (request : SqlRequest)
  | transaction (commands : List TxCommand)
  | probe

def Job.routine (job : Job) (checkout : Checkout) : Wire Unit :=
  match job with
  | .call method request => do
      let _ ← callInner setting checkout method request
      pure ()
  | .transaction commands => do
      let _ ← beginTransaction setting checkout commands
      pure ()
  | .probe => do
      let _ ← probeInner setting checkout
      pure ()

/-- One use of a pool slot. A job that waits keeps its connection until its
owner abandons it. -/
structure Visit where
  job : Job
  checkout : Checkout
  turns : List Turn
  abandoned : Bool

def Visit.run (visit : Visit) (session : Session) : Option Unit × Connection :=
  visit.job.routine setting visit.checkout ⟨session, visit.turns, false, none, []⟩

/-- The slot after a visit: the connection was not taken, is back as the visit
left it, or is replaced by a new one. -/
def slotStep (session : Session) (visit : Visit) : Option Session :=
  let (result, connection) := visit.run setting session
  match connection.lease with
  | none => some session
  | some lease =>
    if result.isSome || visit.abandoned then
      match lease.drop with
      | .returned => some connection.session
      | .quarantined => some Session.fresh
    else
      none

end Usai.Postgres
