import Usai.Http.Encode
import Usai.Http.Router

/-! The requests of a host on their way through `HttpHost::handle`: the pipeline
up to the route, the checks before a world exists, and then one of four ways, for
a contract or a raw route, a stream and a socket. A step is what a request's
future, its world, or the task that observes a stream does between two awaits, so
that requests interleave between any two. -/

namespace Usai.Http

inductive Rejection where
  | route
  | validation
  | auth
  | capacity
  | draining
  | other
  deriving DecidableEq, Repr

def Rejection.fromCode : String → Rejection
  | "route_not_found" | "method_not_allowed" => .route
  | "validation_failed" | "invalid_body" | "invalid_json" | "unsupported_media_type"
  | "payload_too_large" => .validation
  | "unauthorized" | "forbidden" => .auth
  | "capacity_exhausted" => .capacity
  | "revision_draining" => .draining
  | _ => .other

inductive StatusClass where
  | success
  | redirect
  | client
  | server
  deriving DecidableEq, Repr

def StatusClass.of (status : Nat) : StatusClass :=
  if 100 ≤ status ∧ status < 300 then .success
  else if 300 ≤ status ∧ status < 400 then .redirect
  else if 400 ≤ status ∧ status < 500 then .client
  else .server

structure WorkloadCounters where
  classes : StatusClass → Nat
  rejections : Rejection → Nat
  latencySum : Nat
  latencyCount : Nat

def WorkloadCounters.zero : WorkloadCounters := ⟨fun _ => 0, fun _ => 0, 0, 0⟩

structure GlobalRecord where
  status : Nat
  beforeWorld : Bool
  latency : Option Nat
  rejection : Option Rejection
  deriving DecidableEq, Repr

structure WorkloadRecord where
  workload : String
  status : Nat
  latency : Nat
  rejection : Option Rejection
  deriving DecidableEq, Repr

structure HttpStats where
  requests : Nat
  responses : StatusClass → Nat
  rejectedBeforeWorld : Nat
  upgrades : Nat
  streams : Nat
  streamsFailed : Nat
  latencySum : Nat
  latencyCount : Nat
  rejections : Rejection → Nat
  byWorkload : FiniteMap String WorkloadCounters

def HttpStats.zero : HttpStats := ⟨0, fun _ => 0, 0, 0, 0, 0, 0, 0, fun _ => 0, ∅⟩

def bump {Key : Type} [DecidableEq Key] (counters : Key → Nat) (key : Key) : Key → Nat :=
  fun other => if other = key then counters other + 1 else counters other

def WorkloadCounters.add (counters : WorkloadCounters) (record : WorkloadRecord) :
    WorkloadCounters :=
  let classes := bump counters.classes (.of record.status)
  match record.rejection with
  | some reason => { counters with classes, rejections := bump counters.rejections reason }
  | none =>
    { counters with
      classes
      latencySum := counters.latencySum + record.latency
      latencyCount := counters.latencyCount + 1 }

namespace HttpStats

def recordWorkload (stats : HttpStats) (record : WorkloadRecord) : HttpStats :=
  { stats with
    byWorkload := stats.byWorkload.insert record.workload
      (((stats.byWorkload.lookup record.workload).getD .zero).add record) }

def recordWith (stats : HttpStats) (record : GlobalRecord) : HttpStats :=
  { stats with
    requests := stats.requests + 1
    responses := bump stats.responses (.of record.status)
    upgrades := if record.status = 101 then stats.upgrades + 1 else stats.upgrades
    latencySum := stats.latencySum + record.latency.getD 0
    latencyCount := if record.latency.isSome then stats.latencyCount + 1 else stats.latencyCount
    rejections :=
      match record.rejection with
      | some reason => bump stats.rejections reason
      | none => stats.rejections
    rejectedBeforeWorld :=
      if record.beforeWorld then stats.rejectedBeforeWorld + 1 else stats.rejectedBeforeWorld }

end HttpStats

inductive Recorded where
  | global (record : GlobalRecord)
  | workload (record : WorkloadRecord)
  | stream
  | streamFailed
  deriving DecidableEq, Repr

def HttpStats.apply (stats : HttpStats) : Recorded → HttpStats
  | .global record => stats.recordWith record
  | .workload record => stats.recordWorkload record
  | .stream => { stats with streams := stats.streams + 1 }
  | .streamFailed => { stats with streamsFailed := stats.streamsFailed + 1 }

section

structure Refusal where
  status : Nat
  code : String
  message : String
  details : Option Json
  beforeWorld : Bool
  headers : List (String × String)

def Refusal.error (status : Nat) (code message : String) : Refusal :=
  ⟨status, code, message, none, true, []⟩

def Refusal.afterWorld (status : Nat) (code message : String) : Refusal :=
  { Refusal.error status code message with beforeWorld := false }

def Refusal.response (refusal : Refusal) : HttpResponse :=
  (refusal.headers.filter (fun header => headerText header.2)).foldl
    (fun response header => response.insert header.1 header.2)
    (.ofJson refusal.status (errorBody refusal.code
      (("message", .string refusal.message) :: Json.given "details" refusal.details)))

def Refusal.rejection (refusal : Refusal) : Option Rejection :=
  if refusal.beforeWorld then some (.fromCode refusal.code) else none

structure Head where
  status : Nat
  headers : List (String × String)
  deriving DecidableEq, Repr

/-- The response of a committed stream. A name that the handler chose and that is
none fails the builder, and its `expect`. -/
def Head.response (head : Head) : Option HttpResponse := do
  let own ← addHeaders (head.headers.map (fun header => (header.1, [header.2])))
  let unset := fun name => own.all (fun header => header.1 ≠ name)
  return ⟨(statusCode head.status).getD 200,
    own ++ [("x-usai-lifetime", "stream")] ++
      (if unset "cache-control" then [("cache-control", "no-cache")] else []) ++
      (if unset "x-accel-buffering" then [("x-accel-buffering", "no")] else []), .chunks⟩

def upgradeResponse (protocol : Option String) : HttpResponse :=
  ⟨101, [("connection", "upgrade"), ("upgrade", "websocket")] ++
    (protocol.map (fun name => ("sec-websocket-protocol", name))).toList, .empty⟩

/-- How a world ends: with a result, or with an error of the runtime that made it,
or with a panic of its task. -/
inductive Ending where
  | result (result : WorkResult)
  | failed (text : String)
  | panicked (text : String)

variable (expose : Bool)

def Ending.outcome (failure panic : String → Refusal) : Ending → Except Refusal HttpResponse
  | .result held => .ok (encode expose held)
  | .failed text => .error (failure text)
  | .panicked text => .error (panic text)

def finiteOutcome : Ending → Except Refusal HttpResponse :=
  Ending.outcome expose
    (fun _ => .afterWorld 500 "world_creation_failed" "the request could not be executed")
    (fun _ => .afterWorld 500 "world_creation_failed" "the request could not be executed")

def streamOutcome : Ending → Except Refusal HttpResponse :=
  Ending.outcome expose (.afterWorld 500 "world_creation_failed") (.afterWorld 500 "stream_failed")

def socketOutcome : Ending → Except Refusal HttpResponse :=
  Ending.outcome expose (.error 500 "socket_world_failed") (.error 500 "socket_world_failed")

end

inductive Stage where
  | routing
  | checking
  -- at the end of a finite world, at the `select!` of a stream or a socket, or, once the sink
  -- or the link was dropped, at the end of the task
  | executing
  | selecting
  | joining
  | answered
  -- a panic after the observer was spawned; a client that went away, or a panic before
  | unwound
  | abandoned
  deriving DecidableEq, Repr

def Stage.final : Stage → Bool
  | .answered | .unwound | .abandoned => true
  | .routing | .checking | .executing | .selecting | .joining => false

inductive WorldStage where
  | absent
  | running
  | leaving (ending : Ending)
  | finished (ending : Ending)

def WorldStage.stopped : WorldStage → Bool
  | .absent | .finished _ => true
  | .running | .leaving _ => false

def WorldStage.detached : WorldStage → Bool
  | .leaving _ | .finished _ => true
  | .absent | .running => false

/-- A request. `head`, `sent` and `accepted` are what its world has sent, `observer`
the status that the task observing a stream will record; `recorded` is history. -/
structure Exchange where
  internal : Bool
  route : Option (String × RouteKind)
  stage : Stage
  world : WorldStage
  head : Option Head
  sent : List Payload
  accepted : Option (Option String)
  observer : Option Nat
  answer : Option HttpResponse
  recorded : List Recorded

inductive Arm where
  | signal
  | task
  deriving DecidableEq, Repr

/-- What happens to a request. `elapsed` is the clock when a future is polled to
its end; the refusals are those that are decided before a world exists. -/
inductive Act where
  | refuse (status : Nat) (code message : String) (details : Option Json)
      (headers : List (String × String)) (elapsed : Nat)
  | surface (response : HttpResponse)
  | route (workload : String) (kind : RouteKind)
  | admitted
  | commitHead (head : Head)
  | send (chunk : Payload)
  | accept (protocol : Option String)
  | leave (ending : Ending)
  | finish
  | poll (first : Arm) (elapsed : Nat)
  | expire (elapsed : Nat)
  | observe
  | abandon

namespace Exchange

def new (internal : Bool) : Exchange :=
  ⟨internal, none, .routing, .absent, none, [], none, none, none, []⟩

variable (exchange : Exchange)

def record (records : List Recorded) : Exchange :=
  { exchange with recorded := exchange.recorded ++ records }

def workloadRecords (recordsItself : Bool) (status : Nat) (rejection : Option Rejection)
    (elapsed : Nat) : List Recorded :=
  match exchange.route with
  | some (workload, _) =>
    if recordsItself then [] else [.workload ⟨workload, status, elapsed, rejection⟩]
  | none => []

def deferred (response : HttpResponse) : Bool :=
  response.headers.lookup "x-usai-lifetime" == some "stream"

def globalRecords (outcome : Except Refusal HttpResponse) (elapsed : Nat) : List Recorded :=
  if exchange.internal then []
  else
    match outcome with
    | .ok response =>
      if deferred response then [] else [.global ⟨response.status, false, some elapsed, none⟩]
    | .error refusal =>
      [.global ⟨refusal.status, refusal.beforeWorld,
        if refusal.beforeWorld then none else some elapsed, refusal.rejection⟩]

def settle (recordsItself : Bool) (outcome : Except Refusal HttpResponse) (elapsed : Nat) : Exchange :=
  let (response, rejection) :=
    match outcome with
    | .ok response => (response, none)
    | .error refusal => (refusal.response, refusal.rejection)
  { exchange.record (exchange.workloadRecords recordsItself response.status rejection elapsed ++
      exchange.globalRecords outcome elapsed) with
    stage := .answered
    answer := some response }

def ready (first : Arm) (signalled : Bool) : Option Arm :=
  let done := match exchange.world with
    | .finished _ => true
    | _ => false
  let signal := signalled || exchange.world.detached
  match first with
  | .signal => if signal then some .signal else if done then some .task else none
  | .task => if done then some .task else if signal then some .signal else none

def ending : Option Ending :=
  match exchange.world with
  | .finished ending => some ending
  | _ => none

variable (expose : Bool)

def commit (head : Head) (elapsed : Nat) : Exchange :=
  let observed := { exchange.record [.stream] with observer := some head.status }
  match head.response with
  | some response => observed.settle true (.ok response) elapsed
  | none => { observed with stage := .unwound }

def pollStream (first : Arm) (elapsed : Nat) : Option Exchange :=
  match exchange.ready first exchange.head.isSome with
  | some .signal =>
    match exchange.head with
    | some head => some (exchange.commit head elapsed)
    | none => some { exchange with stage := .joining }
  | some .task =>
    exchange.ending.map (fun ending => exchange.settle true (streamOutcome expose ending) elapsed)
  | none => none

def pollSocket (first : Arm) (elapsed : Nat) : Option Exchange :=
  match exchange.ready first exchange.accepted.isSome with
  | some .signal =>
    match exchange.accepted with
    | some protocol => some (exchange.settle false (.ok (upgradeResponse protocol)) elapsed)
    | none => some { exchange with stage := .joining }
  | some .task =>
    exchange.ending.map (fun ending => exchange.settle false (socketOutcome expose ending) elapsed)
  | none => none

def joinedRecord (workload : String) : Ending → Recorded
  | .result result => .workload ⟨workload, (encode expose result).status, result.duration, none⟩
  | .failed _ | .panicked _ => .workload ⟨workload, 500, 0, none⟩

def joinStream (workload : String) (elapsed : Nat) : Option Exchange :=
  exchange.ending.map (fun ending =>
    (exchange.record [joinedRecord expose workload ending]).settle true (streamOutcome expose ending)
      elapsed)

def joinSocket (elapsed : Nat) : Option Exchange :=
  exchange.ending.map (fun ending => exchange.settle false (socketOutcome expose ending) elapsed)

def execute (elapsed : Nat) : Option Exchange :=
  exchange.ending.map (fun ending => exchange.settle false (finiteOutcome expose ending) elapsed)

def poll (first : Arm) (elapsed : Nat) : Option Exchange :=
  match exchange.stage, exchange.route with
  | .executing, some _ => exchange.execute expose elapsed
  | .selecting, some (_, .stream) => exchange.pollStream expose first elapsed
  | .selecting, some (_, .socket) => exchange.pollSocket expose first elapsed
  | .joining, some (workload, .stream) => exchange.joinStream expose workload elapsed
  | .joining, some (_, .socket) => exchange.joinSocket expose elapsed
  | _, _ => none

def failedStream : Ending → Bool
  | .result result =>
    match result.termination, result.outcome with
    | .completed, some (.error _) => true
    | .completed, _ => false
    | .cancelled _, _ => false
    | .deadlineExceeded, _ => true
    | .faulted _, _ => true
  | .failed _ | .panicked _ => false

def observedRecords (workload : String) (status : Nat) (ending : Ending) : List Recorded :=
  let duration := match ending with
    | .result result => result.duration
    | .failed _ | .panicked _ => 0
  [.workload ⟨workload, status, duration, none⟩, .global ⟨status, false, some duration, none⟩] ++
    (if failedStream ending then [.streamFailed] else [])

def observe : Option Exchange :=
  match exchange.observer, exchange.world, exchange.route with
  | some status, .finished ending, some (workload, _) =>
    some { exchange.record (observedRecords workload status ending) with observer := none }
  | _, _, _ => none

def abandon : Option Exchange :=
  match exchange.stage with
  | .routing | .checking | .selecting | .joining => some { exchange with stage := .abandoned }
  | .executing => some { exchange with stage := .abandoned, world := .absent }
  | .answered | .unwound | .abandoned => none

def leaves : Ending → Option (String × RouteKind) → Bool
  | .panicked _, some (_, .stream) | .panicked _, some (_, .socket) => true
  | .panicked _, _ => false
  | .result _, _ | .failed _, _ => true

def step : Act → Option Exchange
  | .refuse status code message details headers elapsed =>
    if exchange.stage = .routing ∨ exchange.stage = .checking then
      some (exchange.settle false (.error ⟨status, code, message, details, true, headers⟩) elapsed)
    else none
  | .surface response =>
    if exchange.stage = .routing ∧ exchange.internal = true then
      some { exchange with stage := .answered, answer := some response }
    else none
  | .route workload kind =>
    if exchange.stage = .routing then
      some { exchange with stage := .checking, route := some (workload, kind) }
    else none
  | .admitted =>
    match exchange.stage, exchange.route with
    | .checking, some (_, .stream) | .checking, some (_, .socket) =>
      some { exchange with stage := .selecting, world := .running }
    | .checking, some _ => some { exchange with stage := .executing, world := .running }
    | _, _ => none
  | .commitHead head =>
    match exchange.world, exchange.head, exchange.route with
    | .running, none, some (_, .stream) => some { exchange with head := some head }
    | _, _, _ => none
  | .send chunk =>
    match exchange.world, exchange.head with
    | .running, some _ => some { exchange with sent := exchange.sent ++ [chunk] }
    | _, _ => none
  | .accept protocol =>
    match exchange.world, exchange.accepted, exchange.route with
    | .running, none, some (_, .socket) => some { exchange with accepted := some protocol }
    | _, _, _ => none
  | .leave ending =>
    match exchange.world with
    | .running =>
      if leaves ending exchange.route then some { exchange with world := .leaving ending }
      else none
    | _ => none
  | .finish =>
    match exchange.world with
    | .leaving ending => some { exchange with world := .finished ending }
    | _ => none
  | .poll first elapsed => exchange.poll expose first elapsed
  | .expire elapsed =>
    match exchange.stage, exchange.route with
    | .selecting, some (_, .socket) =>
      some (exchange.settle false (.error (.error 504 "deadline_exceeded"
        "the socket handler did not accept the connection within the deadline")) elapsed)
    | _, _ => none
  | .observe => exchange.observe
  | .abandon => exchange.abandon

variable {exchange}

theorem ending_cases {ending : Ending} (ended : exchange.ending = some ending) :
    exchange.world = .finished ending := by
  unfold Exchange.ending at ended
  split at ended <;> cases ended
  case h_1 held found => exact found

theorem ready_task {first : Arm} {signalled : Bool}
    (taken : exchange.ready first signalled = some .task) :
    first = .task ∧ ∃ ending, exchange.world = .finished ending := by
  unfold ready at taken
  cases world : exchange.world with
  | finished ending =>
    refine ⟨?_, ending, rfl⟩
    cases first with
    | task => rfl
    | signal => simp [world, WorldStage.detached] at taken
  | absent | running | leaving => cases first <;> simp [world] at taken

end Exchange

structure Hosting where
  stats : HttpStats
  exchanges : List Exchange

inductive HostAct where
  | arrive (internal : Bool)
  | act (index : Nat) (act : Act)

def HttpStats.after (stats : HttpStats) (before after : Exchange) : HttpStats :=
  (after.recorded.drop before.recorded.length).foldl HttpStats.apply stats

def Hosting.step (expose : Bool) (hosting : Hosting) : HostAct → Option Hosting
  | .arrive internal => some { hosting with exchanges := hosting.exchanges ++ [.new internal] }
  | .act index act => do
      let exchange ← hosting.exchanges[index]?
      let after ← exchange.step expose act
      return ⟨hosting.stats.after exchange after, hosting.exchanges.set index after⟩

end Usai.Http
