import Mathlib.Data.List.Infix
import Usai.Text

/-! The HTTP host (`http/pipeline.rs`, `http/server.rs`): how a request reaches
the runtime's own surfaces under `/_usai/` or the application's routes, on the
application's listener and on the listener of the surfaces. -/

namespace Usai.Http

open Text (trim unicodeSpace)

def toStr (value : List UInt8) : Option (List Char) :=
  if value.all (fun b => b == 9 || (32 ≤ b && b < 127)) then
    some (value.map (fun b => Char.ofNat b.toNat))
  else none

def toBytes (text : String) : List UInt8 := text.toByteArray.data.toList

structure Request where
  method : String
  path : String
  query : List (String × String)
  headers : List (String × List UInt8)
  body : List UInt8

def Request.header (request : Request) (name : String) : Option (List UInt8) :=
  request.headers.lookup name

inductive Profile where
  | internal
  | «public»
  deriving DecidableEq, Repr

def Profile.parse : String → Option Profile
  | "internal" => some .internal
  | "public" => some .public
  | _ => none

/-- What the OpenAPI document of a definition is made of. `contents` are its
paths, components and inventories, for the runtime's own configuration. -/
structure Definition where
  name : String
  version : Option String
  identity : String
  contents : Profile → String

structure Document where
  title : String
  version : String
  identity : Option String
  contents : String
  deriving DecidableEq, Repr

def generateWith (definition : Definition) (profile : Profile) : Document where
  title := definition.name
  version := definition.version.getD definition.identity
  identity :=
    match profile with
    | .internal => some definition.identity
    | .public => none
  contents := definition.contents profile

inductive Body where
  | error (code message : String)
  | live
  | notReady (reason : String)
  | ready (ready : Bool) (revision : String) (resources : List (String × String))
  | status (text : String)
  | metrics (text : String)
  | document (document : Document)
  | page
  | bytes (bytes : List UInt8)
  deriving DecidableEq, Repr

structure Response where
  status : Nat
  headers : List (String × String)
  body : Body
  deriving DecidableEq, Repr

def Response.insert (response : Response) (name value : String) : Response :=
  { response with
    headers := response.headers.filter (fun header => header.1 ≠ name) ++ [(name, value)] }

def jsonResponse (status : Nat) (body : Body) : Response :=
  ⟨status, [("content-type", "application/json")], body⟩

structure Reply where
  status : Nat
  body : Body
  headers : List (String × String)
  deriving DecidableEq, Repr

def Reply.error (status : Nat) (code message : String) : Reply :=
  ⟨status, .error code message, []⟩

def headerText (text : String) : Bool :=
  text.toList.all (fun c => c == '\t' || (32 ≤ c.toNat && c.toNat != 127))

/-- The status token. The command line takes an empty one for none. -/
structure Token where
  text : String
  nonempty : text ≠ ""

structure HttpConfig where
  exposeDiagnostics : Bool
  serveDocs : Bool
  serveStatus : Bool
  statusToken : Option Token
  surfacesOff : List String
  readyRequiresResources : Bool

def constantTimeEq (a b : List UInt8) : Bool :=
  if a.length ≠ b.length then false
  else (a.zip b).foldl (fun acc pair => acc ||| (pair.1 ^^^ pair.2)) 0 == 0

def stripBearer (text : List Char) : Option (List Char) :=
  if "Bearer ".toList.isPrefixOf text then some (text.drop 7) else none

def Request.credential (request : Request) : Option String :=
  ((((request.header "authorization").bind toStr).bind stripBearer).map (trim unicodeSpace)).map String.ofList

/-- The test of `internal`: a request without a credential presents the empty
text. -/
def HttpConfig.allows (config : HttpConfig) (request : Request) : Bool :=
  match config.statusToken with
  | none => true
  | some token => constantTimeEq (toBytes (request.credential.getD "")) (toBytes token.text)

structure Route where
  method : String
  catchAll : Bool
  index : Nat
  deriving DecidableEq, Repr

/-- The active revision, compiled for HTTP. The two routers are what the path
matcher answers; `answer` is what becomes of a routed request. -/
structure CompiledRevision where
  id : String
  definition : Definition
  router : String → Option (List Route)
  catchAlls : String → Option (List Route)
  headers : List (String × String)
  answer : Route → Request → Except Reply Response

def Route.accepts (method : String) (route : Route) : Bool :=
  route.method == method || (method == "HEAD" && route.method == "GET")

def routeNotFound (request : Request) : Reply :=
  .error 404 "route_not_found" ("no route matches " ++ request.method ++ " " ++ request.path)

def allowed (routes : List Route) : String :=
  let methods := routes.map Route.method
  String.intercalate ", " (if methods.contains "GET" then methods ++ ["HEAD"] else methods)

def CompiledRevision.route (compiled : CompiledRevision) (request : Request) :
    Except Reply Route :=
  match compiled.router request.path with
  | none => .error (routeNotFound request)
  | some literal =>
    let accepts := Route.accepts request.method
    -- a catch-all that takes the method serves before the 405
    let matched :=
      if literal.any accepts then literal
      else ((compiled.catchAlls request.path).filter (fun routes => routes.any accepts)).getD literal
    if !matched.any accepts && matched.all Route.catchAll then .error (routeNotFound request)
    else
      match matched.find? accepts with
      | some route => .ok route
      | none =>
        .error { Reply.error 405 "method_not_allowed"
            (request.method ++ " is not allowed on " ++ request.path) with
          headers := [("allow", allowed matched)] }

/-- The active revision as the host finds it: none, one that cannot be compiled
for HTTP, or one that serves. -/
inductive Active where
  | absent
  | broken (id : String)
  | serving (compiled : CompiledRevision)

/-- The host's state. `status` and `metrics` are the texts the counters and the
revisions would be rendered to, `failed` the probes that do not pass. -/
structure HttpHost where
  active : Active
  status : String
  metrics : String
  draining : Bool
  failed : List (String × String)

structure Moment where
  elapsed : String
  minted : String

inductive Surface where
  | status
  | metrics
  | live
  | ready
  | docs
  deriving DecidableEq, Repr

namespace Surface

def name : Surface → String
  | status => "status"
  | metrics => "metrics"
  | live => "live"
  | ready => "ready"
  | docs => "docs"

def ofPath : String → Option Surface
  | "/_usai/status" => some status
  | "/_usai/metrics" => some metrics
  | "/_usai/live" => some live
  | "/_usai/ready" => some ready
  | "/_usai/docs" | "/_usai/docs/" | "/_usai/openapi.json" => some docs
  | _ => none

def served (statusOn docsOn : Bool) : Surface → Bool
  | docs => docsOn
  | _ => statusOn

end Surface

def isInternal (path : String) : Bool := "/_usai/".toList.isPrefixOf path.toList

def takesToken (path : String) : Bool :=
  path != "/_usai/live" && path != "/_usai/ready" && path != "/_usai/docs" && path != "/_usai/docs/"

def Request.profile (request : Request) : Except String Profile :=
  match request.query.lookup "profile" with
  | none => .ok .internal
  | some text =>
    match Profile.parse text with
    | some profile => .ok profile
    | none => .error text

def contains (text : List Char) (part : String) : Bool :=
  text.tails.any (fun tail => part.toList.isPrefixOf tail)

def Request.wantsJson (request : Request) : Bool :=
  ((request.header "accept").bind toStr).any (fun accept =>
    contains accept "application/json" && !contains accept "text/html")

def surfaceNotFound (path : String) : Response :=
  jsonResponse 404 (.error "route_not_found" ("no route matches GET " ++ path))

def unauthorized : Response :=
  jsonResponse 401 (.error "unauthorized"
    "this surface requires the status token (Authorization: Bearer …; USAI_STATUS_TOKEN)")

section

-- how `{:?}` quotes a text in a message
variable (quote : String → String)

def unknownProfile (text : String) : Response :=
  jsonResponse 400 (.error "unknown_profile"
    ("unknown OpenAPI profile " ++ quote text ++ "; use internal or public"))

namespace HttpHost

variable (host : HttpHost) (config : HttpConfig)

def compiled : Except Reply CompiledRevision :=
  match host.active with
  | .absent => .error (.error 503 "no_active_revision" "no application revision is active")
  | .broken _ => .error (.error 500 "invalid_definition" "the active revision cannot serve HTTP")
  | .serving compiled => .ok compiled

def readiness : Response :=
  let ready := host.failed.isEmpty || !config.readyRequiresResources
  let answer := fun id => jsonResponse (if ready then 200 else 503) (.ready ready id host.failed)
  if host.draining then jsonResponse 503 (.notReady "draining")
  else
    match host.active with
    | .absent => jsonResponse 503 (.notReady "no active revision")
    | .broken id => answer id
    | .serving compiled => answer compiled.id

def statusSurface (path : String) : Option Response :=
  match path with
  | "/_usai/status" => some (jsonResponse 200 (.status host.status))
  | "/_usai/metrics" =>
    some ⟨200, [("content-type", "text/plain; version=0.0.4; charset=utf-8")], .metrics host.metrics⟩
  | "/_usai/live" => some (jsonResponse 200 .live)
  | "/_usai/ready" => some (host.readiness config)
  | _ => none

def docsSurface (request : Request) : Option Response :=
  match host.compiled with
  | .error _ => none
  | .ok compiled =>
    match request.profile with
    | .error other => some (unknownProfile quote other)
    | .ok profile =>
      let document := jsonResponse 200 (.document (generateWith compiled.definition profile))
      match request.path with
      | "/_usai/openapi.json" => some document
      | "/_usai/docs" | "/_usai/docs/" =>
        if request.wantsJson then some document
        else some ⟨200, [("content-type", "text/html; charset=utf-8")], .page⟩
      | _ => none

def internal (request : Request) (statusOn docsOn : Bool) : Option Response :=
  if !isInternal request.path then none
  else
    match Surface.ofPath request.path with
    | none => none
    | some surface =>
      if !surface.served statusOn docsOn then none
      else if config.surfacesOff.contains surface.name then some (surfaceNotFound request.path)
      else if takesToken request.path && !config.allows request then some unauthorized
      else
        match if statusOn then host.statusSurface config request.path else none with
        | some response => some response
        | none => if docsOn then host.docsSurface quote request else none

def notHere (request : Request) : Reply :=
  .error 404 "route_not_found"
    ("no route matches " ++ request.method ++ " " ++ request.path ++
      ": the runtime's surfaces (status, metrics, live, ready, docs) are not served on this " ++
      "listener — start with --status to put them here, or --status-addr for their own listener")

def surface (request : Request) : Option Response :=
  if request.method = "GET" then
    host.internal quote config request config.serveStatus config.serveDocs
  else none

def pipeline (request : Request) : Except Reply Response := do
  let compiled ← host.compiled
  match host.surface quote config request with
  | some response => pure response
  | none =>
    if isInternal request.path && !config.serveStatus && !config.serveDocs then
      throw (notHere request)
    else
      let route ← compiled.route request
      compiled.answer route request

end HttpHost

def requestIdFor (request : Request) (moment : Moment) : String :=
  (((request.header "x-request-id").bind toStr).filter (fun text =>
    !text.isEmpty && text.length ≤ 128 &&
      text.all (fun c => 33 ≤ c.toNat && c.toNat ≤ 126 && c != '"' && c != '\\'))).elim
    moment.minted String.ofList

def Request.tag (request : Request) (id : String) : Request :=
  { request with
    headers := request.headers.filter (fun header => header.1 ≠ "x-request-id") ++
      [("x-request-id", toBytes id)] }

def Reply.response (reply : Reply) : Response :=
  (reply.headers.filter (fun header => headerText header.2)).foldl
    (fun response header => response.insert header.1 header.2) (jsonResponse reply.status reply.body)

def Response.complete (response : Response) (headers : List (String × String)) : Response :=
  headers.foldl (fun response header =>
    if response.headers.any (fun held => held.1 == header.1) then response
    else response.insert header.1 header.2) response

namespace HttpHost

variable (host : HttpHost) (config : HttpConfig)

def handle (moment : Moment) (request : Request) : Response :=
  let id := requestIdFor request moment
  let response :=
    match host.pipeline quote config (request.tag id) with
    | .ok response =>
      if config.exposeDiagnostics then response.insert "x-usai-server-ms" moment.elapsed
      else response
    | .error reply => reply.response
  let response := if isInternal request.path then response else response.insert "x-request-id" id
  let response :=
    match host.compiled with
    | .ok compiled =>
      if isInternal request.path || response.status = 101 then response
      else response.complete compiled.headers
    | .error _ => response
  if host.draining && response.status ≠ 101 then response.insert "connection" "close"
  else response

def announced : List String :=
  let served := [Surface.status, .metrics, .live, .ready, .docs].filter
    (fun surface => !config.surfacesOff.contains surface.name)
  let paths := served.map (fun surface => "/_usai/" ++ surface.name)
  if paths.contains "/_usai/docs" then paths ++ ["/_usai/openapi.json"] else paths

def nothingHere : Response :=
  jsonResponse 404 (.error "route_not_found"
    ("this listener serves " ++ String.intercalate ", " (announced config)))

def serveInternal (request : Request) : Response :=
  let response :=
    if request.method = "GET" then host.internal quote config request true true else none
  response.getD (nothingHere config)

end HttpHost

inductive Listener where
  | application
  | surfaces
  deriving DecidableEq, Repr

def respond (listener : Listener) (config : HttpConfig) (host : HttpHost) (moment : Moment)
    (request : Request) : Response :=
  match listener with
  | .application => host.handle quote config moment request
  | .surfaces => host.serveInternal quote config request

end

end Usai.Http
