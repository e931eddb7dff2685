import Usai.Json
import Usai.Manifest.Declaration

/-! From the workload of the SDK to the specification of the host: `describe`
and `trigger` of `manifest.ts`, and the derived deserializers of
`definition.rs`. Of an entry this is the part that says how the workload runs. -/

namespace Usai.Manifest

/-- `JSON.stringify`: the value of the decimal it writes for a number, and the
text it writes for a string. The decimal is the shortest that reads back as the
number, so integers are written digit by digit as long as they are small. -/
structure Stringify where
  number : ℚ → ℚ
  string : String → String
  exact : ∀ value : ℕ, value ≤ 2 ^ 53 → number value = value

def Stringify.json (stringify : Stringify) : Num → Json
  | .finite value => .number (stringify.number value)
  | .infinity _ | .nan => .null

namespace Duration

def factor : List Char → Option ℕ
  | [] | ['m', 's'] => some 1
  | ['s'] => some 1000
  | ['m'] => some 60000
  | ['h'] => some 3600000
  | _ => none

def fraction : List Char → List Char × List Char
  | '.' :: rest =>
    if rest.takeWhile Text.digit = [] then ([], '.' :: rest)
    else (rest.takeWhile Text.digit, rest.dropWhile Text.digit)
  | rest => ([], rest)

def scan (text : String) : Option (ℚ × ℕ) :=
  let chars := Text.trim Text.scriptSpace text.toList
  let whole := chars.takeWhile Text.digit
  let parts := fraction (chars.dropWhile Text.digit)
  if whole = [] then none
  else (factor (parts.2.dropWhile Text.scriptSpace)).map (fun factor =>
    (Text.natural (whole ++ parts.1) / 10 ^ parts.1.length, factor))

def convert (amount : ℚ) (factor : ℕ) : Num :=
  if factor = 1 then Double.ofRat amount else Double.scale factor (Double.ofRat amount)

end Duration

section

variable (stringify : Stringify)

def parseDuration : Duration → Except String Num
  | .number value => .ok value
  | .text value =>
    match Duration.scan value with
    | none => .error ("invalid duration " ++ stringify.string value)
    | some (amount, factor) => .ok (Duration.convert amount factor)

def workloadId (workload : Workload) : String :=
  match workload.kind with
  | .http | .stream => workload.kind.text ++ ":" ++
      (workload.trigger.method.map Method.text).getD "undefined" ++ " " ++
      workload.trigger.path.getD "undefined"
  | .socket | .task | .cron | .queue | .service | .command =>
    workload.kind.text ++ ":" ++ workload.name

def OverlapPolicy.json : OverlapPolicy → Json
  | .allow => .string "allow"
  | .skip => .string "skip"

def Backoff.text : Backoff → String
  | .fixed => "fixed"
  | .exponential => "exponential"

def RestartMode.text : RestartMode → String
  | .never => "never"
  | .onFailure => "on-failure"
  | .always => "always"

def Retry.json (retry : Retry) : Json :=
  .object [("maxAttempts", stringify.json retry.maxAttempts),
    ("backoff", .string retry.backoff.text), ("baseMs", stringify.json retry.baseMs)]

def Restart.json (restart : Restart) : Json :=
  .object [("mode", .string restart.mode.text), ("backoffMs", stringify.json restart.backoffMs),
    ("maxRestarts", stringify.json restart.maxRestarts)]

def responsesJson (responses : List (String × String)) : Json :=
  .object (responses.map (fun response => (response.1, .string response.2)))

def trigger (workload : Workload) : Json :=
  let settings := workload.trigger
  let kind := [("kind", Json.string workload.kind.text)]
  match workload.kind with
  | .http => .object (kind ++
      Json.given "method" (settings.method.map (fun method => .string method.text)) ++
      Json.given "path" (settings.path.map .string) ++
      [("raw", .bool (settings.raw = some true))] ++
      Json.given "responses" (settings.responses.map responsesJson))
  | .cron => .object (kind ++
      Json.given "schedule" (settings.schedule.map .string) ++
      [("overlap", (settings.overlap.getD .skip).json)] ++
      Json.given "exclusive" ((asked settings.exclusive).map .bool) ++
      Json.given "database" ((truthy settings.database).map .string))
  | .queue => .object (kind ++
      Json.given "topic" (settings.topic.map .string) ++
      [("concurrency", stringify.json (settings.concurrency.getD (.finite 1)))] ++
      Json.given "database" (settings.database.map .string) ++
      Json.given "retry" (settings.retry.map (Retry.json stringify)))
  | .socket => .object (kind ++ Json.given "path" (settings.path.map .string))
  | .stream => .object (kind ++
      Json.given "method" (settings.method.map (fun method => .string method.text)) ++
      Json.given "path" (settings.path.map .string) ++
      Json.given "content_type" ((truthy settings.contentType).map .string))
  | .service => .object (kind ++
      Json.given "restart" (settings.restart.map (Restart.json stringify)))
  | .task | .command => .object kind

def describe (workload : Workload) : Except String Json := do
  let timeoutMs ← workload.policies.timeout.mapM (parseDuration stringify)
  return .object ([("id", .string (workloadId workload)), ("name", .string workload.name),
      ("trigger", trigger stringify workload)] ++
    Json.given "maxConcurrency" (workload.policies.concurrency.map stringify.json) ++
    Json.given "timeoutMs" (timeoutMs.map stringify.json) ++
    Json.given "maxBodyBytes" (workload.policies.maxBodyBytes.map stringify.json))

def Declaration.entry (declaration : Declaration) : Except String Json :=
  declaration.workload.bind (describe stringify)

end

structure RestartPolicy where
  mode : String
  backoffMs : Nat
  maxRestarts : Nat
  deriving DecidableEq, Repr

def RestartPolicy.default : RestartPolicy := ⟨"never", 1000, 10⟩

structure RetryPolicy where
  maxAttempts : Nat
  backoff : String
  baseMs : Nat
  deriving DecidableEq, Repr

def RetryPolicy.default : RetryPolicy := ⟨1, "fixed", 1000⟩

inductive Trigger where
  | http (method path : String) (raw : Bool) (responses : List (Nat × String))
  | task
  | cron (schedule : String) (timeoutMs : Option Nat) (overlap : OverlapPolicy) (exclusive : Bool)
      (database : Option String)
  | command
  | service (restart : RestartPolicy) (exclusive : Bool) (database : Option String)
      (leaseMs : Option Nat)
  | queue (topic : String) (concurrency : Nat) (database : Option String) (retry : RetryPolicy)
  | socket (path : String)
  | stream (method path : String) (contentType : Option String)
  deriving DecidableEq, Repr

structure WorkloadSpec where
  id : String
  name : String
  trigger : Trigger
  maxConcurrency : Option Nat
  timeoutMs : Option Nat
  maxBodyBytes : Option Nat
  deriving DecidableEq, Repr

def RestartPolicy.deserialize (json : Json) : Option RestartPolicy := do
  let mode ← json.defaulted "mode" "never" Json.text
  let backoffMs ← json.defaulted "backoffMs" 1000 (Json.unsigned 64)
  let maxRestarts ← json.defaulted "maxRestarts" 10 (Json.unsigned 32)
  some ⟨mode, backoffMs, maxRestarts⟩

def RetryPolicy.deserialize (json : Json) : Option RetryPolicy := do
  let maxAttempts ← json.defaulted "maxAttempts" 1 (Json.unsigned 32)
  let backoff ← json.defaulted "backoff" "fixed" Json.text
  let baseMs ← json.defaulted "baseMs" 1000 (Json.unsigned 64)
  some ⟨maxAttempts, backoff, baseMs⟩

def OverlapPolicy.deserialize : Json → Option OverlapPolicy
  | .string "allow" => some .allow
  | .string "skip" => some .skip
  | _ => none

/-- A `BTreeMap`: the entries by their keys, the last one of each. -/
def collected {Key : Type} [LT Key] [DecidableLT Key] (entries : List (Key × String)) :
    List (Key × String) :=
  entries.foldl (fun map entry =>
    map.filter (fun other => other.1 < entry.1) ++
      entry :: map.filter (fun other => entry.1 < other.1)) []

def statuses (responses : List (String × String)) : Option (List (Nat × String)) :=
  (collected responses).mapM (fun response => do
    let status ← Text.parseUnsigned (2 ^ 16) response.1.toList
    some (status, response.2))

def statusKeyed : Json → Option (List (Nat × String))
  | .object members => do
      let raw ← members.mapM (fun member => member.2.text.map (fun text => (member.1, text)))
      let entries ← statuses raw
      some (collected entries)
  | _ => none

def Trigger.deserialize (json : Json) : Option Trigger := do
  let kind ← json.required "kind" Json.text
  match kind with
  | "http" => do
      let method ← json.required "method" Json.text
      let path ← json.required "path" Json.text
      let raw ← json.defaulted "raw" false Json.boolean
      let responses ← json.defaulted "responses" [] statusKeyed
      some (.http method path raw responses)
  | "task" => some .task
  | "cron" => do
      let schedule ← json.required "schedule" Json.text
      let timeoutMs ← json.absent "timeout_ms" (Json.unsigned 64)
      let overlap ← json.defaulted "overlap" .skip OverlapPolicy.deserialize
      let exclusive ← json.defaulted "exclusive" false Json.boolean
      let database ← json.absent "database" Json.text
      some (.cron schedule timeoutMs overlap exclusive database)
  | "command" => some .command
  | "service" => do
      let restart ← json.defaulted "restart" .default RestartPolicy.deserialize
      let exclusive ← json.defaulted "exclusive" false Json.boolean
      let database ← json.absent "database" Json.text
      let leaseMs ← json.absent "lease_ms" (Json.unsigned 64)
      some (.service restart exclusive database leaseMs)
  | "queue" => do
      let topic ← json.required "topic" Json.text
      let concurrency ← json.defaulted "concurrency" 1 (Json.unsigned 32)
      let database ← json.absent "database" Json.text
      let retry ← json.defaulted "retry" .default RetryPolicy.deserialize
      some (.queue topic concurrency database retry)
  | "socket" => do
      let path ← json.required "path" Json.text
      some (.socket path)
  | "stream" => do
      let method ← json.required "method" Json.text
      let path ← json.required "path" Json.text
      let contentType ← json.absent "content_type" Json.text
      some (.stream method path contentType)
  | _ => none

def WorkloadSpec.deserialize (json : Json) : Option WorkloadSpec := do
  let id ← json.required "id" Json.text
  let name ← json.required "name" Json.text
  let trigger ← json.required "trigger" Trigger.deserialize
  let maxConcurrency ← json.absent "maxConcurrency" (Json.unsigned 32)
  let timeoutMs ← json.absent "timeoutMs" (Json.unsigned 64)
  let maxBodyBytes ← json.absent "maxBodyBytes" (Json.unsigned 64)
  some ⟨id, name, trigger, maxConcurrency, timeoutMs, maxBodyBytes⟩

end Usai.Manifest
