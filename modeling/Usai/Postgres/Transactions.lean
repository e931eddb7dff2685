import Usai.FiniteMap
import Usai.Postgres.Leases

/-! Transactions as the manager serves them (`resource/postgres.rs`): the table
of open transactions, the calls that name one by its lease id, and the task that
holds each. One step is one access to the table or a channel, one look at a
token, or one answer of the server, so that calls, holders and cancellations
interleave between any two. -/

namespace Usai.Postgres

/-- The arguments of a call, as the two readers take them: the lease when it is
an unsigned number, and the rest as a request or what serde says against it (a
lease that is no such number included). -/
structure SqlArgs where
  lease : Option Nat
  request : Except String SqlRequest

inductive Route where
  | begin
  | command (lease : Nat) (command : TxCommand)
  | pooled (method : Method) (request : SqlRequest)
  | refused (error : ResourceError)

def Method.ofName : String → Method
  | "query" => .query
  | "one" => .one
  | "execute" => .execute
  | name => .other name

def invalidArgs (message : String) : ResourceError := .operation "invalid_args" message .terminal

def routeFinish (name : String) (commit : Bool) (args : SqlArgs) : Route :=
  match args.lease with
  | some lease => .command lease (.finish commit)
  | none => .refused (invalidArgs (name ++ " needs a lease"))

def callRoute (method : String) (args : SqlArgs) : Route :=
  match method with
  | "begin" => .begin
  | "commit" => routeFinish "commit" true args
  | "rollback" => routeFinish "rollback" false args
  | method =>
    match args.request, args.lease with
    | .error message, _ => .refused (invalidArgs message)
    -- the guard against transaction control looks at calls without a lease only
    | .ok request, some lease => .command lease (.sql (.ofName method) request)
    | .ok request, none =>
      match if request.asyncCommit then none else connectionStateStatement request.sql with
      | some word => .refused (transactionControl word)
      | none => .pooled (.ofName method) request

inductive GuestOperation where
  | resource (method : String) (args : SqlArgs)
  | publish (topic message : String) (delayMs : Option Nat) (requestId : String) (lease : Option Nat)

def publishSql : String :=
  "INSERT INTO usai_queue (topic, payload, available_at, request_id) VALUES ($1, $2::jsonb, " ++
    "now() + ($3::bigint * interval '1 millisecond'), $4) RETURNING id"

def GuestOperation.route : GuestOperation → Route
  | .resource method args =>
    callRoute method
      { args with request := args.request.map fun request => { request with asyncCommit := false } }
  | .publish topic message delayMs requestId lease =>
    callRoute "one"
      ⟨lease, .ok ⟨publishSql, [topic, message, toString (delayMs.getD 0), requestId], false⟩⟩

abbrev Reply := Except ResourceError Unit

def transactionClosed : ResourceError :=
  .operation "transaction_closed"
    "this transaction is no longer open (committed, rolled back, or ended with its world)" .terminal

/-- How a holder ended. `undone`: a `COMMIT` or `ROLLBACK` that failed was
followed by a `ROLLBACK`. The code does not look at how that one is `answered`. -/
inductive Ending where
  | committed
  | rolledBack
  | undone (answered : Bool)
  | quarantined
  deriving DecidableEq, Repr

inductive Phase where
  /-- In its `select`: `looked` once it has found the token unfired, and is about
  to look into the channel. -/
  | selecting (looked : Bool)
  | preparing (call world : Nat) (method : Method) (request : SqlRequest)
  | executing (call : Nat) (method : Method) (request : SqlRequest)
  | finishing (call : Nat) (commit : Bool)
  | undoing (call : Nat) (error : ResourceError)
  | leaving
  | ended (ending : Ending)

def endRequest (commit : Bool) : Request := if commit then .commit else .rollback

structure Sent where
  issuer : Option Nat
  request : Request
  deriving DecidableEq, Repr

/-- A transaction: its world, its connection with everything sent on it, the call
whose command is in the channel, and whether it is in the table. -/
structure Holder where
  owner : Nat
  session : Session
  terminal : Bool
  sent : List Sent
  phase : Phase
  queue : Option Nat
  listed : Bool

inductive HolderEvent where
  | poll
  | receive
  | answer (answer : Answer) (noticed : Bool)
  | giveUp

namespace Holder

variable (setting : Setting) (holder : Holder)

def send (issuer : Option Nat) (request : Request) (phase : Phase) : Holder :=
  { holder with sent := holder.sent ++ [⟨issuer, request⟩], phase }

def resume : Holder := { holder with phase := .selecting false }

def finish (ending : Ending) (replies : List (Nat × Reply)) : Holder × List (Nat × Reply) :=
  ({ holder with phase := .ended ending, queue := none, terminal := ending ≠ .quarantined },
    replies ++ holder.queue.toList.map (fun call => (call, .error transactionClosed)))

def received (request : Request) (answer : Answer) : Holder :=
  { holder with session := holder.session.receive setting request answer }

def settle (call : Nat) (reply : Reply) : Holder × List (Nat × Reply) :=
  if reusable reply then (holder.resume, [(call, reply)])
  else holder.finish .quarantined [(call, reply)]

def execute (call world : Nat) (method : Method) (request : SqlRequest) (types : List String) :
    Holder × List (Nat × Reply) :=
  match bindParams setting request types with
  | .error error => holder.settle call (.error error)
  | .ok () =>
    match method with
    | .other name => holder.settle call (.error (.unknownMethod "postgres" name))
    | method => (holder.send (some world) (.statement request.sql) (.executing call method request), [])

def serve (call world : Nat) : TxCommand → Holder × List (Nat × Reply)
  | .sql method request =>
    match holder.session.statements.lookup request.sql with
    | some types => holder.execute setting call world method request types
    | none =>
      (holder.send (some world) (.prepare request.sql) (.preparing call world method request), [])
  | .finish commit => (holder.send (some world) (endRequest commit) (.finishing call commit), [])

end Holder

def judged {Value : Type} (noticed : Bool) (result : Except DriverError Value) :
    Except ResourceError Value :=
  if noticed then afterCancel result else result.mapError sqlError

namespace Holder

variable (setting : Setting) (holder : Holder)

def answered (answer : Answer) (noticed : Bool) : Option (Holder × List (Nat × Reply)) :=
  match holder.phase with
  | .preparing call world method request =>
    let next := holder.received setting (.prepare request.sql) answer
    match answer.result with
    | .error error => some (next.settle call (.error (sqlError error)))
    | .ok success =>
      let statements := (request.sql, success.types) :: next.session.statements
      let next := { next with session := { next.session with statements } }
      some (next.execute setting call world method request success.types)
  | .executing call method request =>
    let next := holder.received setting (.statement request.sql) answer
    let result := match answer.result with
      | .error error => .error error
      | .ok success => if method.reads then success.decoded else .ok ()
    some (next.settle call (judged noticed result))
  | .finishing call commit =>
    let next := holder.received setting (endRequest commit) answer
    match judged noticed (answer.result.map fun _ => ()) with
    | .ok () => some (next.finish (if commit then .committed else .rolledBack) [(call, .ok ())])
    | .error error =>
      if reusable (.error error : Reply) then
        some (next.send none .rollback (.undoing call error), [])
      else some (next.finish .quarantined [(call, .error error)])
  | .undoing call error =>
    some ((holder.received setting .rollback answer).finish (.undone answer.result.isOk)
      [(call, .error error)])
  | .leaving =>
    let next := holder.received setting .rollback answer
    match answer.result with
    | .ok _ => some (next.finish .rolledBack [])
    | .error _ => some (next.finish .quarantined [])
  | .selecting _ | .ended _ => none

/-- One step of `hold_transaction`, with the replies it gives. `cancelled` is the
token of the world, `queued` the command in the channel with the world that sent
it. The table keeps a sender while the holder runs, so the channel stays open. -/
def step (cancelled : Bool) (queued : Option (Nat × TxCommand)) :
    HolderEvent → Option (Holder × List (Nat × Reply))
  | .poll =>
    match holder.phase with
    | .selecting false =>
      if cancelled then some (holder.send none .rollback .leaving, [])
      else some ({ holder with phase := .selecting true }, [])
    | _ => none
  | .receive =>
    match holder.phase with
    | .selecting true =>
      match holder.queue, queued with
      | some call, some (world, command) =>
        some ({ holder with queue := none }.serve setting call world command)
      | _, _ => some (holder.resume, [])
    | _ => none
  | .answer answer noticed =>
    if noticed && !cancelled then none else holder.answered setting answer noticed
  | .giveUp =>
    match cancelled, holder.phase with
    | true, .executing call _ _ | true, .finishing call _ =>
      some (holder.finish .quarantined [(call, .error ambiguousAfterCancel)])
    | true, .leaving => some (holder.finish .quarantined [])
    | _, _ => none

end Holder

inductive Stage where
  | looking
  | sending
  | handed
  | answered (reply : Reply)

structure TxCall where
  world : Nat
  lease : Nat
  command : TxCommand
  stage : Stage

/-- `holders` keeps the transactions that have ended; the table of the source
holds those that are `listed`. -/
structure Manager where
  nextTransaction : Nat
  holders : FiniteMap Nat Holder
  calls : List TxCall
  cancelled : List Nat

inductive TxLabel where
  | begin (world : Nat) (session : Session) (answer : Answer) (noticed : Bool)
  | enter (world : Nat) (operation : GuestOperation)
  | look (index : Nat)
  | send (index : Nat)
  | cancel (world : Nat)
  | holder (lease : Nat) (event : HolderEvent)
  | delist (lease : Nat)

namespace Manager

def new : Manager := ⟨1, ∅, [], []⟩

variable (setting : Setting) (manager : Manager)

def setStage (index : Nat) (stage : Stage) : Manager :=
  { manager with calls := manager.calls.modify index (fun call => { call with stage }) }

def setHolder (lease : Nat) (holder : Holder) : Manager :=
  { manager with holders := manager.holders.insert lease holder }

def reply (replies : List (Nat × Reply)) : Manager :=
  replies.foldl (fun manager answer => manager.setStage answer.1 (.answered answer.2)) manager

def queued (holder : Holder) : Option (Nat × TxCommand) :=
  holder.queue.bind fun index =>
    (manager.calls[index]?).map fun call => (call.world, call.command)

def step : TxLabel → Option Manager
  | .begin world session answer noticed =>
    if noticed && world ∉ manager.cancelled then none
    else
      match judged noticed (answer.result.map fun _ => ()) with
      | .ok () =>
        some { manager with
          nextTransaction := manager.nextTransaction + 1
          holders := manager.holders.insert manager.nextTransaction
            ⟨world, session.receive setting .begin answer, false, [⟨some world, .begin⟩],
              .selecting false, none, true⟩ }
      | .error _ => some manager
  | .enter world operation =>
    match operation.route with
    | .command lease command =>
      some { manager with calls := manager.calls ++ [⟨world, lease, command, .looking⟩] }
    -- `begin` has its own label; the rest is refused or runs on a connection of its own
    | _ => some manager
  | .look index =>
    match manager.calls[index]? with
    | some ⟨_, lease, _, .looking⟩ =>
      if (manager.holders.lookup lease).any Holder.listed then some (manager.setStage index .sending)
      else some (manager.setStage index (.answered (.error transactionClosed)))
    | _ => none
  | .send index =>
    match manager.calls[index]? with
    | some ⟨_, lease, _, .sending⟩ =>
      match manager.holders.lookup lease with
      | none => none
      | some holder =>
        match holder.phase, holder.queue with
        | .ended _, _ => some (manager.setStage index (.answered (.error transactionClosed)))
        | _, none =>
          some ((manager.setHolder lease { holder with queue := some index }).setStage index
            .handed)
        -- the channel holds one command
        | _, some _ => none
    | _ => none
  | .cancel world => some { manager with cancelled := world :: manager.cancelled }
  | .holder lease event =>
    match manager.holders.lookup lease with
    | none => none
    | some holder =>
      match holder.step setting (holder.owner ∈ manager.cancelled) (manager.queued holder) event with
      | none => none
      | some (next, replies) => some ((manager.setHolder lease next).reply replies)
  | .delist lease =>
    match manager.holders.lookup lease with
    | some holder =>
      match holder.phase with
      | .ended _ => some (manager.setHolder lease { holder with listed := false })
      | _ => none
    | none => none

end Manager

section

open Transition (exec)

def serverSetting : Setting where
  name := "db"
  endpoint := "localhost:5432"
  user := "app"
  control sql :=
    match connectionStateStatement sql with
    | some "begin" => .opens
    | some "commit" | some "rollback" => .ends
    | _ => .neutral
  encode _ _ := none

def answerOk (types : List String) : Answer := ⟨.ok ⟨types, none⟩, true⟩

namespace TxLabel

def beginBy (world : Nat) : TxLabel := .begin world Session.fresh (answerOk []) false

def execute (world lease : Nat) (sql : String) : TxLabel :=
  .enter world (.resource "execute" ⟨some lease, .ok ⟨sql, [], false⟩⟩)

def commitBy (world lease : Nat) : TxLabel :=
  .enter world (.resource "commit" ⟨some lease, .error "missing field `sql`"⟩)

end TxLabel

def takeCommand (index lease : Nat) : List TxLabel :=
  [.look index, .send index, .holder lease .poll, .holder lease .receive]

def serverAnswers (lease : Nat) (answers : List (List String)) : List TxLabel :=
  answers.map fun types => .holder lease (.answer (answerOk types) false)

def firstAfter (labels : List TxLabel) : Option (Nat × Bool × List Sent) :=
  (exec (Manager.step serverSetting) Manager.new labels).bind fun manager =>
    (manager.holders.lookup 1).map fun holder =>
      (holder.owner, holder.session.block, holder.sent)

end

end Usai.Postgres
