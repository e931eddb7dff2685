import Usai.Outbound.Address
import Usai.Postgres.Wire

/-! The `http.client` resource (`resource/http_client.rs`): which URLs a
`fetch` contacts. The checks are made on the first one; the HTTP library
follows redirects by itself. -/

namespace Usai.Outbound

open Postgres (ResourceError TerminalProof)

inductive Origin where
  | tuple (scheme host : String) (port : Nat)
  /-- Equal to no other origin. -/
  | isolated (serial : Nat)
  deriving DecidableEq, Repr

def defaultPort : String → Option Nat
  | "http" | "ws" => some 80
  | "https" | "wss" => some 443
  | "ftp" => some 21
  | _ => none

def Origin.asciiSerialization : Origin → String
  | .isolated _ => "null"
  | .tuple scheme host port =>
    if defaultPort scheme = some port then scheme ++ "://" ++ host
    else scheme ++ "://" ++ host ++ ":" ++ toString port

structure Url where
  scheme : String
  hostStr : Option String
  portOrKnownDefault : Option Nat
  origin : Origin
  deriving DecidableEq, Repr

def Url.isHttp (url : Url) : Bool := url.scheme == "http" || url.scheme == "https"

/-- What lies outside the runtime: the URL parser, the resolver, which headers
the HTTP library sends, and how a text is quoted in a message. -/
structure Web where
  parse : String → Except String Url
  join : Url → String → Except String Url
  lookupHost : String → Nat → Except String (List IpAddr)
  headerValid : String → String → Bool
  quote : String → String

def terminal (code message : String) : ResourceError := .operation code message .terminal

structure Counters where
  requests : Nat
  refused : Nat
  unready : Option String
  deriving DecidableEq, Repr

/-- An opened client. `slots` are the free ones of `maxConcurrent`. -/
structure HttpClient where
  name : String
  base : Option Url
  allowPrivateNetwork : Bool
  slots : Nat
  counters : Counters

structure FetchRequest where
  url : String
  method : Option String
  headers : List (String × String)

structure Response where
  status : Nat
  location : Option String

variable (web : Web)

namespace HttpClient

variable (client : HttpClient)

def resolve (raw : String) : Except ResourceError Url :=
  match client.base with
  | some base =>
    match web.join base raw with
    | .error e => .error (terminal "invalid_url" (web.quote raw ++ ": " ++ e))
    | .ok url =>
      if url.origin ≠ base.origin then
        .error (terminal "origin_refused"
          (web.quote raw ++ " leaves the declared baseUrl origin " ++
            base.origin.asciiSerialization ++
            "; declare another http client for that destination"))
      else .ok url
  | none =>
    match web.parse raw with
    | .error e => .error (terminal "invalid_url" (web.quote raw ++ ": " ++ e))
    | .ok url =>
      if url.isHttp then .ok url
      else .error (terminal "invalid_url"
        (web.quote raw ++ ": only http and https are supported"))

end HttpClient

def refused (host : String) (ip : IpAddr) : ResourceError :=
  terminal "destination_refused"
    (host ++ " resolves to " ++ ip.text ++ ", which is inside this host's own network. " ++
      "A client declared without a `baseUrl` takes its destination from the " ++
      "application's data, so it is refused there by default — that is the " ++
      "request an attacker-chosen webhook URL would make on your behalf " ++
      "(instance metadata, the runtime's own status listener, an internal " ++
      "service). Name the destination with `baseUrl`/`baseUrlEnv`, or, if " ++
      "this client really does call internal addresses chosen at runtime, " ++
      "declare `allowPrivateNetwork: true`.")

def trimBrackets (text : List Char) : List Char :=
  let inner := text.dropWhile (fun c => c == '[' || c == ']')
  (inner.reverse.dropWhile (fun c => c == '[' || c == ']')).reverse

def addresses (host : String) (port : Nat) : Except String (List IpAddr) :=
  match readIp (trimBrackets host.toList) with
  | some ip => .ok [ip]
  | none => web.lookupHost host port

namespace HttpClient

variable (client : HttpClient)

def checkDestination (url : Url) : Except ResourceError Unit :=
  if client.base.isSome || client.allowPrivateNetwork then .ok ()
  else
    match url.hostStr with
    | none => .ok ()
    | some host =>
      match addresses web host (url.portOrKnownDefault.getD 80) with
      | .error e => .error (terminal "http_connect" (host ++ ": " ++ e))
      | .ok found =>
        match found.find? IpAddr.isInternal with
        | some ip => .error (refused host ip)
        | none => .ok ()

def refusalText : ResourceError → Option String
  | .operation code message _ =>
    if code = "destination_refused" ∨ code = "origin_refused" then
      some (code ++ ": " ++ (code ++ ": " ++ message))
    else none
  | _ => none

def refusal (error : ResourceError) : HttpClient :=
  { client with
    counters :=
      { client.counters with
        refused := client.counters.refused + 1
        unready := client.counters.unready.or (refusalText error) } }

end HttpClient

def isTokenChar (c : Char) : Bool :=
  c.isAlphanum || "!#$%&'*+-.^_`|~".toList.contains c

def methodValid (method : String) : Bool :=
  !method.toList.isEmpty && method.toList.all isTokenChar

def redirectLimit : Nat := 5

/-- Where the HTTP library goes after the answer: a redirect status with a
location that can be resolved, over HTTP. -/
def redirectTo (url : Url) (response : Response) : Option Url :=
  if response.status ∈ [301, 302, 303, 307, 308] then
    match response.location with
    | none => none
    | some location =>
      match web.join url location with
      | .error _ => none
      | .ok next => if next.isHttp then some next else none
  else none

/-- The URLs the HTTP library contacts from `url` on, while the servers answer
so. It does not call back into the runtime. -/
def follow : Nat → Url → List Response → List Url
  | _, url, [] => [url]
  | 0, url, _ :: _ => [url]
  | left + 1, url, response :: responses =>
    match redirectTo web url response with
    | some next => url :: follow left next responses
    | none => [url]

theorem mem_follow (left : Nat) (url : Url) (responses : List Response) :
    url ∈ follow web left url responses := by
  fun_cases follow web left url responses <;> exact List.mem_cons_self

namespace HttpClient

variable (client : HttpClient) {url : Url} {args : Except String FetchRequest}

def prepare (method : String) (args : Except String FetchRequest) :
    HttpClient × Except ResourceError Url :=
  if method ≠ "fetch" then (client, .error (.unknownMethod client.name method))
  else
    match args with
    | .error e => (client, .error (terminal "invalid_args" e))
    | .ok request =>
      match client.resolve web request.url with
      | .error error => (client.refusal error, .error error)
      | .ok url =>
        match client.checkDestination web url with
        | .error error => (client.refusal error, .error error)
        | .ok () =>
          if !methodValid (request.method.getD "GET") then
            (client, .error (terminal "invalid_method"
              (match request.method with
                | some given => "Some(" ++ web.quote given ++ ")"
                | none => "None")))
          else if client.slots = 0 then
            ({ client with counters.refused := client.counters.refused + 1 },
              .error (.exhausted client.name))
          else
            ({ client with counters.requests := client.counters.requests + 1 }, .ok url)

/-- The URL the request is sent to. One that is cancelled first, is not for HTTP
or has a header that cannot be sent goes nowhere. -/
def sends (method : String) (args : Except String FetchRequest) (cancelled : Bool) : Option Url :=
  match args, (client.prepare web method args).2 with
  | .ok request, .ok url =>
    if !cancelled && url.isHttp &&
        request.headers.all (fun header => web.headerValid header.1 header.2) then some url
    else none
  | _, _ => none

def contacts (method : String) (args : Except String FetchRequest) (cancelled : Bool)
    (responses : List Response) : List Url :=
  match client.sends web method args cancelled with
  | some url => follow web redirectLimit url responses
  | none => []

/-- The rule of `resolve` and `check_destination`: the declared origin, or else
no address in the host's own network. -/
def Permits (url : Url) : Prop :=
  match client.base with
  | some base => url.origin = base.origin
  | none => client.allowPrivateNetwork = true ∨
      ∀ host ∈ url.hostStr, ∀ found,
        addresses web host (url.portOrKnownDefault.getD 80) = .ok found →
          ∀ ip ∈ found, ip.isInternal = false

def Stays : Nat → Url → List Response → Prop
  | left + 1, url, response :: responses =>
    ∀ next ∈ redirectTo web url response,
      client.Permits web next ∧ Stays left next responses
  | _, _, _ => True

theorem resolve_origin {raw : String} {base : Url} (declared : client.base = some base)
    (resolved : client.resolve web raw = .ok url) : url.origin = base.origin := by
  simp only [resolve, declared] at resolved
  split at resolved
  · cases resolved
  · split at resolved <;> cases resolved
    rename_i same
    exact not_not.mp same

theorem checkDestination_permits (generic : client.base = none)
    (checked : client.checkDestination web url = .ok ()) : client.Permits web url := by
  simp only [Permits, generic]
  simp only [checkDestination, generic, Option.isSome_none, Bool.false_or] at checked
  split at checked
  · rename_i allowed
    exact .inl allowed
  · right
    intro host named found resolves ip member
    rw [Option.mem_def] at named
    simp only [named, resolves] at checked
    split at checked
    · cases checked
    · rename_i none
      rw [List.find?_eq_none] at none
      exact Bool.not_eq_true _ ▸ none ip member

theorem prepare_permits {method : String}
    (prepared : (client.prepare web method args).2 = .ok url) : client.Permits web url := by
  unfold prepare at prepared
  split at prepared
  · cases prepared
  · split at prepared
    · cases prepared
    · split at prepared
      · cases prepared
      · rename_i found resolved
        split at prepared
        · cases prepared
        · rename_i checked
          have same : found = url := by
            split at prepared
            · cases prepared
            · split at prepared <;> cases prepared
              rfl
          subst found
          cases declared : client.base with
          | some =>
            simp only [Permits, declared]
            exact client.resolve_origin web declared resolved
          | none => exact client.checkDestination_permits web declared checked

theorem sends_permits {method : String} {cancelled : Bool}
    (sent : client.sends web method args cancelled = some url) :
    client.Permits web url := by
  unfold sends at sent
  split at sent
  · rename_i request found prepared
    split at sent <;> cases sent
    exact client.prepare_permits web prepared
  · cases sent

theorem follow_permits (responses : List Response) :
    ∀ (left : Nat) {url : Url}, client.Permits web url →
      ((∀ contact ∈ follow web left url responses, client.Permits web contact) ↔
        client.Stays web left url responses) := by
  induction responses with
  | nil =>
    intro left url permitted
    cases left <;> simpa [follow, Stays] using permitted
  | cons response responses ih =>
    intro left url permitted
    cases left with
    | zero => simpa [follow, Stays] using permitted
    | succ left =>
      cases moved : redirectTo web url response with
      | none => simpa [follow, Stays, moved] using permitted
      | some next =>
        simp only [follow, Stays, moved, List.mem_cons, forall_eq_or_imp, permitted, true_and,
          Option.mem_def, Option.some.injEq, forall_eq']
        constructor
        · intro all
          have first := all next (mem_follow web left next responses)
          exact ⟨first, (ih left first).mp all⟩
        · rintro ⟨first, rest⟩
          exact (ih left first).mpr rest

end HttpClient

/-- Every URL that a call contacts is permitted exactly when, if its request is
sent, every redirect that the servers answer with and the library follows leads
to a permitted URL. -/
theorem outbound_confined (client : HttpClient) (method : String)
    (args : Except String FetchRequest) (cancelled : Bool) (responses : List Response) :
    (∀ url ∈ client.contacts web method args cancelled responses, client.Permits web url) ↔
      ∀ url, client.sends web method args cancelled = some url →
        client.Stays web redirectLimit url responses := by
  unfold HttpClient.contacts
  cases sent : client.sends web method args cancelled with
  | none => simp
  | some =>
    have permitted := client.sends_permits web sent
    simp only [Option.some.injEq, forall_eq']
    exact client.follow_permits web responses redirectLimit permitted

def hooks : Url :=
  ⟨"https", some "hooks.example", some 443, .tuple "https" "hooks.example" 443⟩

def metadata : Url :=
  ⟨"http", some "169.254.169.254", some 80, .tuple "http" "169.254.169.254" 80⟩

def sampleWeb : Web where
  parse raw :=
    if raw = "https://hooks.example/" then .ok hooks else .error "relative URL without a base"
  join url location := if location = "http://169.254.169.254/" then .ok metadata else .ok url
  lookupHost _ _ := .ok [.v4 ⟨93, 184, 216, 34⟩]
  headerValid _ _ := true
  quote text := text

def sampleClient (base : Option Url) : HttpClient :=
  { name := "webhooks", base, allowPrivateNetwork := false, slots := 32, counters := ⟨0, 0, none⟩ }

def sampleRequest (url : String) : FetchRequest := ⟨url, none, []⟩

def sampleRedirect : Response := ⟨302, some "http://169.254.169.254/"⟩

/-- A client without a base URL reaches the metadata address through a redirect,
and one with a base URL leaves its origin. -/
theorem redirect_escapes :
    ¬ (∀ url ∈ (sampleClient none).contacts sampleWeb "fetch"
          (.ok (sampleRequest "https://hooks.example/")) false [sampleRedirect],
        (sampleClient none).Permits sampleWeb url) ∧
    ¬ (∀ url ∈ (sampleClient (some hooks)).contacts sampleWeb "fetch"
          (.ok (sampleRequest "/notify")) false [sampleRedirect],
        (sampleClient (some hooks)).Permits sampleWeb url) := by
  have reached : metadata ∈ (sampleClient none).contacts sampleWeb "fetch"
      (.ok (sampleRequest "https://hooks.example/")) false [sampleRedirect] := by decide
  have left : metadata ∈ (sampleClient (some hooks)).contacts sampleWeb "fetch"
      (.ok (sampleRequest "/notify")) false [sampleRedirect] := by decide
  constructor
  · intro confined
    have permitted := confined metadata reached
    simp only [HttpClient.Permits, sampleClient, Bool.false_eq_true, false_or] at permitted
    have internal := permitted "169.254.169.254" rfl [.v4 ⟨169, 254, 169, 254⟩] (by rfl) _
      List.mem_cons_self
    exact absurd internal (by decide)
  · intro confined
    exact absurd (confined metadata left) (by decide : metadata.origin ≠ hooks.origin)

end Usai.Outbound
