import Usai.Double
import Usai.Text

/-! The workload constructors of the SDK (`http.ts`, `connection.ts`,
`workloads.ts`, `queue.ts`): the options of a declaration and the workload they
make of it. A resource is its name. -/

namespace Usai.Manifest

inductive Method where
  | get
  | post
  | put
  | patch
  | delete
  | head
  | options
  deriving DecidableEq, Repr

def Method.text : Method → String
  | .get => "GET"
  | .post => "POST"
  | .put => "PUT"
  | .patch => "PATCH"
  | .delete => "DELETE"
  | .head => "HEAD"
  | .options => "OPTIONS"

inductive Duration where
  | number (value : Num)
  | text (value : String)
  deriving DecidableEq, Repr

structure Policies where
  timeout : Option Duration
  concurrency : Option Num
  maxBodyBytes : Option Num
  deriving DecidableEq, Repr

inductive OverlapPolicy where
  | allow
  | skip
  deriving DecidableEq, Repr

inductive Backoff where
  | fixed
  | exponential
  deriving DecidableEq, Repr

inductive RestartMode where
  | never
  | onFailure
  | always
  deriving DecidableEq, Repr

/-- `true`, `false`, or the database to claim a tick in. -/
inductive Exclusive where
  | flag (value : Bool)
  | database (name : String)
  deriving DecidableEq, Repr

structure CronOptions where
  schedule : String
  overlap : Option OverlapPolicy
  exclusive : Option Exclusive
  deriving DecidableEq, Repr

structure RetryOptions where
  maxAttempts : Num
  backoff : Option Backoff
  baseMs : Option Num
  deriving DecidableEq, Repr

structure ConsumeOptions where
  concurrency : Option Num
  retry : Option RetryOptions
  database : Option String
  deriving DecidableEq, Repr

structure RestartOptions where
  mode : RestartMode
  backoffMs : Option Num
  maxRestarts : Option Num
  deriving DecidableEq, Repr

structure ServiceOptions where
  restart : Option RestartOptions
  exclusive : Option Bool
  database : Option String
  leaseMs : Option Num
  timeout : Option Duration
  deriving DecidableEq, Repr

/-- A call of a constructor. A consumer has no `concurrency` policy, its own
option of that name apart. -/
inductive Declaration where
  | http (method : Method) (path : String) (policies : Policies)
  | raw (path : String) (method : Option Method) (responses : Option (List (String × String)))
      (policies : Policies)
  | stream (path : String) (method : Option Method) (contentType : Option String)
      (policies : Policies)
  | socket (path : String) (policies : Policies)
  | task (name : String) (policies : Policies)
  | cron (name : String) (options : CronOptions) (policies : Policies)
  | consume (topic : String) (options : ConsumeOptions) (timeout : Option Duration)
      (maxBodyBytes : Option Num)
  | service (name : String) (options : ServiceOptions)
  | command (name : String) (policies : Policies)
  deriving DecidableEq, Repr

inductive WorkloadKind where
  | http
  | stream
  | socket
  | task
  | cron
  | queue
  | service
  | command
  deriving DecidableEq, Repr

def WorkloadKind.text : WorkloadKind → String
  | .http => "http"
  | .stream => "stream"
  | .socket => "socket"
  | .task => "task"
  | .cron => "cron"
  | .queue => "queue"
  | .service => "service"
  | .command => "command"

structure Retry where
  maxAttempts : Num
  backoff : Backoff
  baseMs : Num
  deriving DecidableEq, Repr

structure Restart where
  mode : RestartMode
  backoffMs : Num
  maxRestarts : Num
  deriving DecidableEq, Repr

structure Settings where
  method : Option Method := none
  path : Option String := none
  raw : Option Bool := none
  responses : Option (List (String × String)) := none
  contentType : Option String := none
  schedule : Option String := none
  overlap : Option OverlapPolicy := none
  exclusive : Option Bool := none
  database : Option String := none
  topic : Option String := none
  concurrency : Option Num := none
  retry : Option Retry := none
  restart : Option Restart := none
  leaseMs : Option Num := none
  deriving DecidableEq, Repr

structure Workload where
  kind : WorkloadKind
  name : String
  trigger : Settings
  policies : Policies
  deriving DecidableEq, Repr

def refuseBodyBound (kind name : String) : Option Num → Except String Unit
  | none => .ok ()
  | some _ => .error (kind ++ " \"" ++ name ++ "\" declares maxBodyBytes, and a " ++ kind ++
      " has no request body. The bound belongs on the HTTP route that accepts the upload; " ++
      "remove it here, or declare it on the route that dispatches to this workload.")

def bodyless (policies : Policies) : Policies := { policies with maxBodyBytes := none }

def truthy (value : Option String) : Option String := value.filter (fun text => text ≠ "")

def asked (value : Option Bool) : Option Bool := value.filter id

def declare (method : Method) (path : String) (policies : Policies) : Workload where
  kind := .http
  name := method.text ++ " " ++ path
  trigger := { method := some method, path := some path, raw := some false }
  policies := policies

def raw (path : String) (method : Option Method) (responses : Option (List (String × String)))
    (policies : Policies) : Workload where
  kind := .http
  name := (method.getD .post).text ++ " " ++ path
  trigger := { method := some (method.getD .post), path := some path, raw := some true, responses }
  policies := policies

def stream (path : String) (method : Option Method) (contentType : Option String)
    (policies : Policies) : Except String Workload := do
  refuseBodyBound "stream" path policies.maxBodyBytes
  return {
    kind := .stream
    name := (method.getD .get).text ++ " " ++ path
    trigger := { method := some (method.getD .get), path, contentType := truthy contentType }
    policies := bodyless policies }

def socket (path : String) (policies : Policies) : Except String Workload := do
  refuseBodyBound "socket" path policies.maxBodyBytes
  return { kind := .socket, name := path, trigger := { path }, policies := bodyless policies }

def task (name : String) (policies : Policies) : Except String Workload := do
  refuseBodyBound "task" name policies.maxBodyBytes
  return { kind := .task, name, trigger := {}, policies := bodyless policies }

def Exclusive.asked : Exclusive → Bool
  | .flag value => value
  | .database _ => true

def Exclusive.name : Exclusive → Option String
  | .flag _ => none
  | .database name => some name

def cron (name : String) (options : CronOptions) (policies : Policies) :
    Except String Workload := do
  refuseBodyBound "cron" name policies.maxBodyBytes
  return {
    kind := .cron
    name
    trigger := {
      schedule := options.schedule
      overlap := some (options.overlap.getD .skip)
      exclusive := Manifest.asked (options.exclusive.map Exclusive.asked)
      database := options.exclusive.bind Exclusive.name }
    policies := bodyless policies }

def consume (topic : String) (options : ConsumeOptions) (timeout : Option Duration)
    (maxBodyBytes : Option Num) : Except String Workload := do
  refuseBodyBound "queue consumer" topic maxBodyBytes
  return {
    kind := .queue
    name := topic
    trigger := {
      topic
      concurrency := some (options.concurrency.getD (.finite 1))
      database := options.database
      retry := options.retry.map (fun retry =>
        ⟨retry.maxAttempts, retry.backoff.getD .fixed, retry.baseMs.getD (.finite 1000)⟩) }
    policies := ⟨timeout, none, none⟩ }

def service (name : String) (options : ServiceOptions) : Workload where
  kind := .service
  name := name
  trigger := {
    restart := options.restart.map (fun restart =>
      ⟨restart.mode, restart.backoffMs.getD (.finite 1000), restart.maxRestarts.getD (.finite 10)⟩)
    exclusive := asked options.exclusive
    database := options.database
    leaseMs := options.leaseMs }
  policies := ⟨options.timeout, none, none⟩

def command (name : String) (policies : Policies) : Except String Workload := do
  refuseBodyBound "command" name policies.maxBodyBytes
  return { kind := .command, name, trigger := {}, policies := bodyless policies }

def Declaration.workload : Declaration → Except String Workload
  | .http method path policies => .ok (declare method path policies)
  | .raw path method responses policies => .ok (Manifest.raw path method responses policies)
  | .stream path method contentType policies => Manifest.stream path method contentType policies
  | .socket path policies => Manifest.socket path policies
  | .task name policies => Manifest.task name policies
  | .cron name options policies => Manifest.cron name options policies
  | .consume topic options timeout maxBodyBytes => Manifest.consume topic options timeout maxBodyBytes
  | .service name options => .ok (Manifest.service name options)
  | .command name policies => Manifest.command name policies

end Usai.Manifest
