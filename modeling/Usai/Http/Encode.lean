import Mathlib.Data.List.Sort
import Usai.Execution.Driver
import Usai.Http.Host
import Usai.Json

/-! The response that a finished world gets (`HttpHost::encode`,
`application_error` and `render_output` of `http/pipeline.rs`). -/

namespace Usai.Http

open Execution (Termination)
open Text (toAsciiLowercase)

structure LifecycleViolation where
  code : String
  message : String
  sideEffectsLost : Bool
  deriving DecidableEq, Repr

structure GuestError where
  name : String
  message : String
  stack : Option String
  usai : Option Json

structure WorkResult where
  termination : Termination
  outcome : Option (Except GuestError Json)
  violations : List LifecycleViolation
  duration : Nat

inductive Payload where
  | empty
  | json (value : Json)
  | text (value : String)
  | base64 (value : String)
  | chunks

structure HttpResponse where
  status : Nat
  headers : List (String × String)
  body : Payload

def HttpResponse.insert (response : HttpResponse) (name value : String) : HttpResponse :=
  { response with
    headers := response.headers.filter (fun header => header.1 ≠ name) ++ [(name, value)] }

def HttpResponse.ofJson (status : Nat) (body : Json) : HttpResponse :=
  ⟨status, [("content-type", "application/json")], .json body⟩

def errorBody (code : String) (rest : List (String × Json)) : Json :=
  .object [("error", .object (("code", .string code) :: rest))]

def statusCode (status : Nat) : Option Nat := if 100 ≤ status ∧ status < 1000 then some status else none

def isToken (char : Char) : Bool := char.isAlphanum || char ∈ "!#$%&'*+-.^_`|~".toList

def headerName (text : String) : Option String :=
  if text ≠ "" ∧ text.length < 65536 ∧ text.toList.all isToken = true then
    some (toAsciiLowercase text)
  else none

def addHeaders (headers : List (String × List String)) : Option (List (String × String)) :=
  (headers.flatMap (fun header => (header.2.filter headerText).map (fun value => (header.1, value)))).mapM
    (fun header => (headerName header.1).map (fun name => (name, header.2)))

structure GuestHttpOutput where
  status : Nat
  headers : List (String × List String)
  json : Option Json
  text : Option String
  base64 : Option String

def headerValues : Json → Option (List String)
  | .string value => some [value]
  | .array items => items.mapM Json.text
  | _ => none

def headerEntries : Json → Option (List (String × List String))
  | .object members => do
      let entries ← members.mapM (fun member => (headerValues member.2).map (fun values => (member.1, values)))
      return entries.insertionSort (fun one two => one.1 ≤ two.1)
  | _ => none

def GuestHttpOutput.deserialize (value : Json) : Option GuestHttpOutput := do
  let status ← value.required "status" (Json.unsigned 16)
  let headers ← value.defaulted "headers" [] headerEntries
  let json ← value.absent "json" some
  let text ← value.absent "text" Json.text
  let base64 ← value.absent "base64" Json.text
  return ⟨status, headers, json, text, base64⟩

def GuestHttpOutput.body (output : GuestHttpOutput) : Payload × Option String :=
  match output.json, output.text, output.base64 with
  | some json, _, _ => (.json json, some "application/json")
  | none, some text, _ => (.text text, some "text/plain; charset=utf-8")
  | none, none, some base64 => (.base64 base64, some "application/octet-stream")
  | none, none, none => (.empty, none)

def renderOutput (output : GuestHttpOutput) (lifecycle : Option String) : HttpResponse :=
  match addHeaders output.headers with
  | none => .ofJson 500 (errorBody "invalid_response_headers" [])
  | some headers =>
    let typed := output.headers.any (fun header => toAsciiLowercase header.1 = "content-type")
    ⟨(statusCode output.status).getD 500,
      headers ++ (lifecycle.map (fun codes => ("x-usai-lifecycle", codes))).toList ++
        (if typed then [] else (output.body.2.map (fun type => ("content-type", type))).toList),
      output.body.1⟩

section

-- `expose_diagnostics`
variable (expose : Bool)

def lifecycleHeader (violations : List LifecycleViolation) : Option String :=
  if expose && !violations.isEmpty then
    some (",".intercalate (violations.map LifecycleViolation.code))
  else none

def withLifecycle (response : HttpResponse) (violations : List LifecycleViolation) : HttpResponse :=
  match lifecycleHeader expose violations with
  | some codes => response.insert "x-usai-lifecycle" codes
  | none => response

def runtime500Codes : List String :=
  ["internal", "detached_work", "response_contract_violation", "resource_not_declared",
    "unknown_task", "unknown_operation", "invalid_handler_output", "runtime_fault"]

def usaiStatus (usai : Json) : Nat :=
  (((usai.member "status").bind (Json.unsigned 64)).bind (fun status => statusCode (status % 65536))).getD 500

def usaiCode (usai : Json) : String := ((usai.member "code").bind Json.text).getD "error"

def isClientError (status : Nat) : Bool := 400 ≤ status && status < 500

def isServerError (status : Nat) : Bool := 500 ≤ status && status < 600

/-- The code of an operation's own failure stays in the log. -/
def publicCode (status : Nat) (code : String) : String :=
  if status = 500 ∧ code ∉ runtime500Codes ∧ expose = false then "internal" else code

def usaiBody (usai : Json) (message : String) : Json :=
  let status := usaiStatus usai
  let details := usai.member "details"
  errorBody (publicCode expose status (usaiCode usai))
    (if isServerError status then
      if expose then
        ("message", .string message) ::
          (match details with
            | none | some .null => []
            | some details => [("details", details)])
      else [("message", .string "internal error")]
    else
      ("message", .string message) ::
        Json.given "details" (if isClientError status then details else none))

def unexpectedBody (error : GuestError) : Json :=
  if expose then
    errorBody "internal" (("message", .string (error.name ++ ": " ++ error.message)) ::
      Json.given "stack" (error.stack.map .string))
  else errorBody "internal" [("message", .string "internal error")]

def applicationError (error : GuestError) (violations : List LifecycleViolation) : HttpResponse :=
  match error.usai with
  | some usai =>
    withLifecycle expose (.ofJson (usaiStatus usai) (usaiBody expose usai error.message)) violations
  | none => withLifecycle expose (.ofJson 500 (unexpectedBody expose error)) violations

def detail (text : String) : List (String × Json) :=
  if expose then [("detail", .string text)] else []

def lostWork (violations : List LifecycleViolation) : Option LifecycleViolation :=
  violations.find? (fun violation => violation.code = "detached_work" && violation.sideEffectsLost)

def encodeOutcome (result : WorkResult) : HttpResponse :=
  match result.outcome with
  | some (.error error) => applicationError expose error result.violations
  | some (.ok value) =>
    match lostWork result.violations with
    | some violation => detachedWork violation
    | none =>
      match GuestHttpOutput.deserialize value with
      | some output => renderOutput output (lifecycleHeader expose result.violations)
      | none =>
        .ofJson 500 (errorBody "invalid_handler_output"
          [("message", .string "the handler produced an unencodable response")])
  | none =>
    match lostWork result.violations with
    | some violation => detachedWork violation
    | none =>
      .ofJson 500 (errorBody "no_outcome" [("message", .string "the request produced no outcome")])
where
  detachedWork (violation : LifecycleViolation) : HttpResponse :=
    .ofJson 500 (errorBody "detached_work"
      (("message", .string ("the handler returned before an operation it started had completed; " ++
        "that operation was cancelled and its result is unknown")) :: detail expose violation.message))

def encode (result : WorkResult) : HttpResponse :=
  match result.termination with
  | .completed => encodeOutcome expose result
  | .deadlineExceeded =>
    .ofJson 504 (errorBody "deadline_exceeded"
      [("message", .string "the request did not complete within its deadline")])
  | .cancelled _ => .ofJson 499 (errorBody "cancelled" [])
  | .faulted text =>
    .ofJson 500 (errorBody "runtime_fault"
      (("message", .string "the request could not be completed") :: detail expose text))

end

end Usai.Http
