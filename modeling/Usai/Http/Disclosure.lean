import Usai.Http.Host
import Mathlib.Data.List.Forall2

/-! What a request without the status token learns from the operator's surfaces
about the application and the state of the runtime. -/

namespace Usai.Http

open HttpHost List Option

theorem foldl_differences (pairs : List (UInt8 × UInt8)) (acc : UInt8) :
    pairs.foldl (fun acc pair => acc ||| (pair.1 ^^^ pair.2)) acc = 0 ↔
      acc = 0 ∧ ∀ pair ∈ pairs, pair.1 = pair.2 := by
  induction pairs generalizing acc with
  | nil => simp
  | cons _ _ ih =>
    rw [foldl_cons, ih, UInt8.or_eq_zero_iff, UInt8.xor_eq_zero_iff]
    simp only [mem_cons, forall_eq_or_imp, and_assoc]

theorem zip_same {a b : List UInt8} (lengths : a.length = b.length) :
    (∀ pair ∈ a.zip b, pair.1 = pair.2) ↔ a = b := by
  rw [← forall₂_eq_eq_eq, forall₂_iff_zip]
  simp [lengths]

theorem constantTimeEq_iff (a b : List UInt8) : constantTimeEq a b = true ↔ a = b := by
  unfold constantTimeEq
  split
  · rename_i lengths
    simp only [Bool.false_eq_true, false_iff]
    exact fun same => lengths (congrArg length same)
  · rename_i lengths
    rw [beq_iff_eq, foldl_differences, zip_same (not_not.mp lengths)]
    simp

theorem toBytes_injective (same : toBytes one = toBytes two) : one = two := by
  apply String.toByteArray_inj.mp
  exact ByteArray.ext (Array.toList_inj.mp same)

theorem allows_iff {config : HttpConfig}
    (configured : config.statusToken = some token) (request : Request) :
    config.allows request = true ↔ request.credential = some token.text := by
  simp only [HttpConfig.allows, configured, constantTimeEq_iff]
  cases request.credential with
  | none =>
    simp only [getD_none, reduceCtorEq, iff_false]
    exact fun same => token.nonempty (toBytes_injective same).symm
  | some =>
    simp only [getD_some, some.injEq]
    exact ⟨toBytes_injective, congrArg toBytes⟩

section

variable {quote : String → String} {config : HttpConfig}

theorem header_tag (request : Request) (id : String) (other : name ≠ "x-request-id") :
    (request.tag id).header name = request.header name := by
  have apart : (name == "x-request-id") = false := by simpa using other
  simp only [Request.header, Request.tag]
  induction request.headers with
  | nil => simp [lookup_cons, apart]
  | cons header _ ih =>
    obtain ⟨key, _⟩ := header
    by_cases same : key = "x-request-id"
    · simpa [lookup_cons, same, apart] using ih
    · cases equal : name == key with
      | true => simp [lookup_cons, same, equal]
      | false => simpa [lookup_cons, same, equal] using ih

theorem wantsJson_tag (request : Request) (id : String) :
    (request.tag id).wantsJson = request.wantsJson := by
  simp only [Request.wantsJson, header_tag request id (by decide : "accept" ≠ "x-request-id")]

theorem internal_tag (host : HttpHost) (request : Request) (id : String) (statusOn docsOn : Bool) :
    host.internal quote config (request.tag id) statusOn docsOn =
      host.internal quote config request statusOn docsOn := by
  have path : (request.tag id).path = request.path := rfl
  have profile : (request.tag id).profile = request.profile := rfl
  have docs : host.docsSurface quote (request.tag id) = host.docsSurface quote request := by
    simp only [docsSurface, path, profile, wantsJson_tag]
  have allows : config.allows (request.tag id) = config.allows request := by
    simp only [HttpConfig.allows, Request.credential,
      header_tag request id (by decide : "authorization" ≠ "x-request-id")]
  simp only [internal, path, docs, allows]

end

variable {request : Request}

section

def guardedPaths : List String := ["/_usai/status", "/_usai/metrics", "/_usai/openapi.json"]

def pagePaths : List String := ["/_usai/docs", "/_usai/docs/"]

theorem guardedPaths_surface : ∀ path ∈ guardedPaths, isInternal path = true ∧
    takesToken path = true ∧ (Surface.ofPath path).isSome = true := by
  decide

theorem pagePaths_surface : ∀ path ∈ pagePaths, isInternal path = true ∧
    takesToken path = false ∧ Surface.ofPath path = some .docs := by
  decide

def HttpConfig.off (config : HttpConfig) (path : String) : Bool :=
  (Surface.ofPath path).any (fun surface => config.surfacesOff.contains surface.name)

def serves (statusOn docsOn : Bool) (path : String) : Bool :=
  (Surface.ofPath path).any (Surface.served statusOn docsOn)

variable (quote : String → String) (config : HttpConfig)

def pageAnswer (request : Request) (compiled : CompiledRevision) : Response :=
  match request.profile with
  | .error other => unknownProfile quote other
  | .ok profile =>
    if request.wantsJson then jsonResponse 200 (.document (generateWith compiled.definition profile))
    else ⟨200, [("content-type", "text/html; charset=utf-8")], .page⟩

variable {quote config}

theorem internal_guarded (host : HttpHost)
    (path : request.path ∈ guardedPaths) (configured : config.statusToken = some token)
    (absent : request.credential ≠ some token.text) (statusOn docsOn : Bool) :
    host.internal quote config request statusOn docsOn =
      if serves statusOn docsOn request.path then
        some (if config.off request.path then surfaceNotFound request.path else unauthorized)
      else none := by
  obtain ⟨internal, takes, known⟩ := guardedPaths_surface _ path
  obtain ⟨surface, found⟩ := isSome_iff_exists.mp known
  have refused : config.allows request = false := by
    rw [← Bool.not_eq_true, allows_iff configured]
    exact absent
  simp only [HttpHost.internal, internal, takes, found, refused, serves, HttpConfig.off,
    any_some, Bool.not_true, Bool.false_eq_true, if_false, Bool.not_false, Bool.and_self,
    if_true]
  cases surface.served statusOn docsOn with
  | false => rfl
  | true => cases config.surfacesOff.contains surface.name <;> rfl

theorem internal_page (host : HttpHost) (path : request.path ∈ pagePaths) (statusOn docsOn : Bool) :
    host.internal quote config request statusOn docsOn =
      if docsOn then
        if config.off request.path then some (surfaceNotFound request.path)
        else host.compiled.toOption.map (pageAnswer quote request)
      else none := by
  obtain ⟨internal, takes, found⟩ := pagePaths_surface _ path
  have inside : host.statusSurface config request.path = none ∧
      host.docsSurface quote request = host.compiled.toOption.map (pageAnswer quote request) := by
    simp only [pagePaths, mem_cons, not_mem_nil, or_false] at path
    rcases path with path | path
    all_goals
      refine ⟨by rw [path]; rfl, ?_⟩
      simp only [HttpHost.docsSurface, path]
      cases host.compiled with
      | error => rfl
      | ok =>
        simp only [Except.toOption, map_some, pageAnswer]
        cases request.profile with
        | error => rfl
        | ok => cases request.wantsJson <;> rfl
  simp only [HttpHost.internal, internal, takes, found, inside.1, inside.2, HttpConfig.off,
    any_some, Surface.served, Bool.not_true, Bool.false_eq_true, if_false, Bool.false_and,
    ite_self]
  cases docsOn with
  | false => rfl
  | true => cases config.surfacesOff.contains Surface.docs.name <;> rfl

end

variable {compiled : CompiledRevision}

section

def unrelated : List String := ["connection", "x-usai-server-ms"]

def Response.visible (response : Response) : Response :=
  { response with headers := response.headers.filter (fun header => header.1 ∉ unrelated) }

theorem visible_insert (response : Response) (value : String)
    (ignored : name ∈ unrelated) : (response.insert name value).visible = response.visible := by
  simp only [Response.visible, Response.insert, List.filter_append, List.filter_filter,
    filter_cons, filter_nil, ignored, not_true_eq_false, decide_false, Bool.false_eq_true,
    if_false, append_nil]
  congr 1
  apply List.filter_congr
  intro header _
  by_cases same : header.1 = name
  · simp [same, ignored]
  · simp [same]

variable {quote : String → String} {config : HttpConfig}

def settled : Except Reply Response → Response
  | .ok response => response
  | .error reply => reply.response

theorem visible_handle (host : HttpHost) (moment : Moment) (path : isInternal request.path = true) :
    (host.handle quote config moment request).visible =
      (settled (host.pipeline quote config (request.tag (requestIdFor request moment)))).visible := by
  have timed : ∀ result : Except Reply Response,
      Response.visible (match result with
        | .ok response =>
          if config.exposeDiagnostics then response.insert "x-usai-server-ms" moment.elapsed
          else response
        | .error reply => reply.response) = (settled result).visible := by
    intro result
    cases result with
    | error => rfl
    | ok response =>
      dsimp only [settled]
      split
      · exact visible_insert response moment.elapsed (by decide)
      · rfl
  have closed : ∀ response : Response,
      Response.visible (if host.draining && response.status ≠ 101 then
        response.insert "connection" "close" else response) = response.visible := by
    intro response
    split
    · exact visible_insert response "close" (by decide)
    · rfl
  simp only [handle, path, if_true, Bool.true_or]
  rw [closed]
  cases host.compiled with
  | error => exact timed _
  | ok => exact timed _

theorem pipeline_failed {host : HttpHost} (failed : host.compiled = .error reply)
    (request : Request) : host.pipeline quote config request = .error reply := by
  simp only [pipeline, failed]
  rfl

theorem surface_tag (host : HttpHost) (request : Request) (id : String) :
    host.surface quote config (request.tag id) = host.surface quote config request := by
  have method : (request.tag id).method = request.method := rfl
  simp only [surface, internal_tag, method]

theorem pipeline_serving {host : HttpHost}
    (serving : host.active = .serving compiled) (request : Request) :
    host.pipeline quote config request =
      match host.surface quote config request with
      | some response => .ok response
      | none =>
        if isInternal request.path && !config.serveStatus && !config.serveDocs then
          .error (notHere request)
        else
          match compiled.route request with
          | .ok route => compiled.answer route request
          | .error reply => .error reply := by
  have found : host.compiled = .ok compiled := by simp only [HttpHost.compiled, serving]
  simp only [pipeline, found]
  cases host.surface quote config request with
  | some => rfl
  | none =>
    dsimp only [bind, Except.bind]
    cases compiled.route request <;> rfl

end

section

inductive Health where
  | absent
  | broken
  | serving
  deriving DecidableEq, Repr

def HttpHost.health (host : HttpHost) : Health :=
  match host.active with
  | .absent => .absent
  | .broken _ => .broken
  | .serving _ => .serving

def Request.Reveals (request : Request) : Prop :=
  request.wantsJson = true ∧ request.profile.isOk = true

variable (quote : String → String) (config : HttpConfig)

def failure : Health → Option Reply
  | .absent => some (.error 503 "no_active_revision" "no application revision is active")
  | .broken => some (.error 500 "invalid_definition" "the active revision cannot serve HTTP")
  | .serving => none

/-! The answer to a request without the token, where it is a matter of the
request, the configuration and the health alone. -/

def publicPage (request : Request) : Option Response :=
  match request.profile with
  | .error other => some (unknownProfile quote other)
  | .ok _ =>
    if request.wantsJson then none
    else some ⟨200, [("content-type", "text/html; charset=utf-8")], .page⟩

def publicSurface (request : Request) : Option Response :=
  if config.off request.path then some (surfaceNotFound request.path)
  else if takesToken request.path then some unauthorized
  else publicPage quote request

def publicAnswer (listener : Listener) (request : Request) (health : Health) : Option Response :=
  match listener, health with
  | .application, .absent | .application, .broken => (failure health).map Reply.response
  | .application, .serving =>
    if request.method = "GET" ∧ serves config.serveStatus config.serveDocs request.path then
      publicSurface quote config request
    else if !config.serveStatus && !config.serveDocs then
      some (HttpHost.notHere request).response
    else none
  | .surfaces, health =>
    if request.method ≠ "GET" then some (HttpHost.nothingHere config)
    else if config.off request.path || takesToken request.path || health = .serving then
      publicSurface quote config request
    else some (HttpHost.nothingHere config)

structure Unauthorized (token : Token) (request : Request) : Prop where
  configured : config.statusToken = some token
  path : request.path ∈ guardedPaths ++ pagePaths
  absent : request.credential ≠ some token.text

variable {quote config} {token : Token} {request : Request}

theorem Unauthorized.internal (unauthorized : Unauthorized config token request) :
    isInternal request.path = true :=
  (mem_append.mp unauthorized.path).elim (fun guarded => (guardedPaths_surface _ guarded).1)
    (fun page => (pagePaths_surface _ page).1)

theorem internal_unauthorized (unauthorized : Unauthorized config token request) (host : HttpHost)
    (statusOn docsOn : Bool) :
    host.internal quote config request statusOn docsOn =
      if !serves statusOn docsOn request.path then none
      else if config.off request.path || takesToken request.path then
        publicSurface quote config request
      else host.compiled.toOption.map (pageAnswer quote request) := by
  rcases mem_append.mp unauthorized.path with guarded | page
  · have takes := (guardedPaths_surface _ guarded).2.1
    rw [internal_guarded host guarded unauthorized.configured unauthorized.absent]
    simp only [publicSurface, takes, Bool.or_true, if_true]
    cases serves statusOn docsOn request.path with
    | false => rfl
    | true => cases config.off request.path <;> rfl
  · obtain ⟨_, unguarded, docs⟩ := pagePaths_surface _ page
    rw [internal_page host page]
    simp only [publicSurface, unguarded, serves, docs, any_some, Surface.served,
      Bool.or_false]
    cases docsOn with
    | false => rfl
    | true => cases config.off request.path <;> rfl

variable {response : Response} {host : HttpHost} {listener : Listener}

theorem pageAnswer_public (answer : publicPage quote request = some response)
    (compiled : CompiledRevision) : pageAnswer quote request compiled = response := by
  unfold publicPage at answer
  unfold pageAnswer
  cases profile : request.profile with
  | error =>
    rw [profile] at answer
    exact some.inj answer
  | ok =>
    rw [profile] at answer
    cases json : request.wantsJson with
    | true => simp [json] at answer
    | false => simpa [json] using answer

theorem health_serving (health : host.health = .serving) :
    ∃ compiled, host.active = .serving compiled := by
  cases active : host.active with
  | serving compiled => exact ⟨compiled, rfl⟩
  | _ => simp [HttpHost.health, active] at health

theorem compiled_failing
    (failing : failure host.health = some reply) : host.compiled = .error reply := by
  cases active : host.active with
  | serving => simp [health, failure, active] at failing
  | _ => simpa [health, failure, compiled, active] using failing

theorem compiled_unhealthy (health : host.health ≠ .serving) :
    host.compiled.toOption = none := by
  cases active : host.active with
  | serving => simp [HttpHost.health, active] at health
  | _ => simp [compiled, active, Except.toOption]

section

variable (unauthorized : Unauthorized config token request)
include unauthorized

theorem handle_serving
    (serving : host.active = .serving compiled) (moment : Moment) :
    (host.handle quote config moment request).visible =
      (settled (match host.surface quote config request with
        | some response => .ok response
        | none =>
          if !config.serveStatus && !config.serveDocs then .error (notHere request)
          else
            match compiled.route (request.tag (requestIdFor request moment)) with
            | .ok route => compiled.answer route (request.tag (requestIdFor request moment))
            | .error reply => .error reply)).visible := by
  have inside : isInternal (request.tag (requestIdFor request moment)).path = true :=
    unauthorized.internal
  rw [visible_handle host moment unauthorized.internal,
    pipeline_serving serving, surface_tag, inside, Bool.true_and]
  rfl

theorem Unauthorized.served :
    serves true true request.path = true :=
  (by decide : ∀ path ∈ guardedPaths ++ pagePaths, serves true true path = true) _ unauthorized.path

theorem internal_public (on : serves statusOn docsOn request.path = true)
    (answers : (config.off request.path || takesToken request.path) = true ∨
      host.health = .serving)
    (answer : publicSurface quote config request = some response) :
    host.internal quote config request statusOn docsOn = some response := by
  rw [internal_unauthorized unauthorized host, on]
  cases plain : (config.off request.path || takesToken request.path) with
  | true => simpa using answer
  | false =>
    rw [plain] at answers
    obtain ⟨compiled, serving⟩ := health_serving (answers.resolve_left (by simp))
    simp only [Bool.or_eq_false_iff] at plain
    have page : publicPage quote request = some response := by
      simpa [publicSurface, plain.1, plain.2] using answer
    have found := pageAnswer_public page compiled
    simp [HttpHost.compiled, serving, Except.toOption, found]

theorem surface_unasked (host : HttpHost) (unasked : ¬ (request.method = "GET" ∧
      serves config.serveStatus config.serveDocs request.path = true)) :
    host.surface quote config request = none := by
  unfold surface
  split
  · rename_i get
    have off : serves config.serveStatus config.serveDocs request.path = false := by
      simpa [get] using unasked
    rw [internal_unauthorized unauthorized host, off]
    rfl
  · rfl

theorem handle_public
    (answer : publicAnswer quote config .application request host.health = some response)
    (moment : Moment) :
    (host.handle quote config moment request).visible = response.visible := by
  cases health : host.health with
  | serving =>
    obtain ⟨_, serving⟩ := health_serving health
    rw [handle_serving unauthorized serving]
    simp only [publicAnswer, health] at answer
    split at answer
    · rename_i asked
      have found := internal_public unauthorized asked.2 (.inr health) answer
      simp only [surface, asked.1, if_true, found]
      rfl
    · rename_i unasked
      rw [surface_unasked unauthorized host unasked]
      obtain ⟨nowhere, rfl⟩ := ite_some_none_eq_some.mp answer
      simp only [nowhere, if_true]
      rfl
  | _ =>
    simp only [publicAnswer, health, failure, map_some, some.injEq] at answer
    have failed := compiled_failing (by rw [health]; rfl : failure host.health = some _)
    rw [visible_handle host moment unauthorized.internal,
      pipeline_failed failed, ← answer]
    rfl

theorem serveInternal_public
    (answer : publicAnswer quote config .surfaces request host.health = some response) :
    host.serveInternal quote config request = response := by
  simp only [publicAnswer] at answer
  unfold serveInternal
  split at answer
  · rename_i other
    cases answer
    rw [if_neg other]
    rfl
  · rename_i get
    rw [if_pos (not_not.mp get)]
    split at answer
    · rename_i asked
      rw [internal_public unauthorized unauthorized.served (by simpa using asked) answer]
      rfl
    · rename_i unasked
      cases answer
      simp only [Bool.or_eq_true, not_or, Bool.not_eq_true, decide_eq_true_eq] at unasked
      rw [internal_unauthorized unauthorized host, unauthorized.served]
      simp [unasked.1.1, unasked.1.2, compiled_unhealthy unasked.2]

theorem respond_public
    (answer : publicAnswer quote config listener request host.health = some response)
    (moment : Moment) :
    (respond quote listener config host moment request).visible = response.visible := by
  cases listener with
  | application => exact handle_public unauthorized answer moment
  | surfaces => exact congrArg Response.visible (serveInternal_public unauthorized answer)

end

/-! Where there is no public answer, two definitions are told apart. -/

def plainRevision (name : String) : CompiledRevision where
  id := name
  definition := ⟨name, none, "", fun _ => ""⟩
  router _ := none
  catchAlls _ := none
  headers := []
  answer _ _ := .ok ⟨200, [], .bytes []⟩

def otherMethod (request : Request) : CompiledRevision :=
  { plainRevision "other" with
    router := fun path =>
      if path = request.path then
        some [⟨if request.method = "GET" ∨ request.method = "HEAD" then "POST" else "GET", false, 0⟩]
      else none }

def hostOf (active : Active) : HttpHost := ⟨active, "", "", false, []⟩

theorem response_status (reply : Reply) : reply.response.status = reply.status := by
  have kept : ∀ (headers : List (String × String)) (response : Response),
      (headers.foldl (fun response header => response.insert header.1 header.2) response).status =
        response.status := by
    intro headers
    induction headers with
    | nil => exact fun _ => rfl
    | cons header _ ih => exact fun response => ih (response.insert header.1 header.2)
  exact kept _ _

theorem route_plain (request : Request) (name : String) :
    (plainRevision name).route request = .error (routeNotFound request) := rfl

theorem route_refused (literal : compiled.router request.path = some [route])
    (alone : compiled.catchAlls request.path = none) (plain : route.catchAll = false)
    (refuses : route.accepts request.method = false) :
    ∃ reply, compiled.route request = .error reply ∧ reply.status = 405 := by
  refine ⟨{ Reply.error 405 "method_not_allowed"
      (request.method ++ " is not allowed on " ++ request.path) with
    headers := [("allow", allowed [route])] }, ?_, rfl⟩
  simp [CompiledRevision.route, literal, alone, plain, refuses]

theorem route_otherMethod (request : Request) (id : String) :
    ∃ reply, (otherMethod request).route (request.tag id) = .error reply ∧ reply.status = 405 := by
  have path : (request.tag id).path = request.path := rfl
  refine route_refused (by simp only [otherMethod, path, if_true]; rfl) rfl rfl ?_
  have method : (request.tag id).method = request.method := rfl
  by_cases get : request.method = "GET"
  · simp [Route.accepts, method, get]
  · by_cases head : request.method = "HEAD"
    · simp [Route.accepts, method, head]
    · simp [Route.accepts, method, get, head, Ne.symm get]

theorem publicSurface_eq_none (unanswered : publicSurface quote config request = none) :
    (config.off request.path || takesToken request.path) = false ∧ request.wantsJson = true ∧
      ∃ profile, request.profile = .ok profile := by
  unfold publicSurface at unanswered
  split at unanswered
  · cases unanswered
  · rename_i on
    split at unanswered
    · cases unanswered
    · rename_i unguarded
      unfold publicPage at unanswered
      split at unanswered
      · cases unanswered
      · rename_i profile found
        split at unanswered
        · rename_i json
          exact ⟨by simp [on, unguarded], json, profile, found⟩
        · cases unanswered

theorem internal_reveals (unauthorized : Unauthorized config token request)
    (unanswered : publicSurface quote config request = none)
    (on : serves statusOn docsOn request.path = true) :
    ∃ profile, ∀ compiled, (hostOf (.serving compiled)).internal quote config request statusOn docsOn =
      some (jsonResponse 200 (.document (generateWith compiled.definition profile))) := by
  obtain ⟨page, json, profile, found⟩ := publicSurface_eq_none unanswered
  refine ⟨profile, fun compiled => ?_⟩
  rw [internal_unauthorized unauthorized, on, page]
  simp [hostOf, HttpHost.compiled, Except.toOption, pageAnswer, found, json]

theorem told_apart (unauthorized : Unauthorized config token request)
    {health : Health} (unanswered : publicAnswer quote config listener request health = none)
    (moment : Moment) :
    ∃ one two : CompiledRevision, health = .serving ∧
      (respond quote listener config (hostOf (.serving one)) moment request).visible ≠
        (respond quote listener config (hostOf (.serving two)) moment request).visible := by
  have revealed : ∀ profile, (jsonResponse 200
      (.document (generateWith (plainRevision "one").definition profile))).visible ≠
      (jsonResponse 200 (.document (generateWith (plainRevision "two").definition profile))).visible := by
    intro profile same
    have bodies : Body.document _ = Body.document _ := congrArg Response.body same
    have titles := congrArg Document.title (Body.document.inj bodies)
    exact absurd titles (by decide : "one" ≠ "two")
  cases listener with
  | application =>
    have serving : health = .serving := by
      cases health <;> first | rfl | simp [publicAnswer, failure] at unanswered
    subst serving
    have answers := fun compiled =>
      @handle_serving compiled quote _ _ _ (hostOf (.serving compiled)) unauthorized rfl moment
    simp only [publicAnswer] at unanswered
    split at unanswered
    · rename_i asked
      obtain ⟨profile, shown⟩ := internal_reveals unauthorized unanswered asked.2
      refine ⟨plainRevision "one", plainRevision "two", rfl, ?_⟩
      simp only [respond, answers, surface, asked.1, if_true, shown]
      exact revealed profile
    · rename_i unasked
      split at unanswered
      · cases unanswered
      · rename_i routed
        obtain ⟨reply, refused, status⟩ :=
          route_otherMethod request (requestIdFor request moment)
        refine ⟨plainRevision "one", otherMethod request, rfl, ?_⟩
        simp only [respond, answers, surface_unasked unauthorized _ unasked, routed,
          Bool.false_eq_true, if_false, route_plain, refused]
        intro same
        have statuses := congrArg Response.status same
        change (routeNotFound _).response.status = reply.response.status at statuses
        rw [response_status, response_status, status] at statuses
        exact absurd statuses (by simp [routeNotFound, Reply.error])
  | surfaces =>
    simp only [publicAnswer] at unanswered
    split at unanswered
    · cases unanswered
    · rename_i get
      split at unanswered
      · rename_i asked
        obtain ⟨page, -⟩ := publicSurface_eq_none unanswered
        have serving : health = .serving := by simpa [page] using asked
        obtain ⟨profile, shown⟩ :=
          internal_reveals unauthorized unanswered unauthorized.served
        refine ⟨plainRevision "one", plainRevision "two", serving, ?_⟩
        simp only [respond, serveInternal, not_not.mp get, if_true, shown]
        exact revealed profile
      · cases unanswered

def hostWith : Health → HttpHost
  | .absent => hostOf .absent
  | .broken => hostOf (.broken "")
  | .serving => hostOf (.serving (plainRevision "one"))

theorem hostWith_health (health : Health) : (hostWith health).health = health := by
  cases health <;> rfl

variable (quote) in
def Indistinct (config : HttpConfig) (listener : Listener) (request : Request)
    (first second : Health) : Prop :=
  ∀ one two : HttpHost, one.health = first → two.health = second →
    ∀ before after : Moment,
      (respond quote listener config one before request).visible =
        (respond quote listener config two after request).visible

theorem indistinct_iff_public (unauthorized : Unauthorized config token request)
    (listener : Listener) (first second : Health) :
    Indistinct quote config listener request first second ↔
      ∃ one two, publicAnswer quote config listener request first = some one ∧
        publicAnswer quote config listener request second = some two ∧ one.visible = two.visible := by
  have moment : Moment := ⟨"", ""⟩
  constructor
  · intro indistinct
    cases answered : publicAnswer quote config listener request first with
    | none =>
      obtain ⟨one, two, rfl, differ⟩ := told_apart unauthorized answered moment
      have other := hostWith_health second
      exact absurd ((indistinct _ _ rfl other moment moment).trans
        (indistinct _ _ rfl other moment moment).symm) differ
    | some one =>
      cases answers : publicAnswer quote config listener request second with
      | none =>
        obtain ⟨left, right, rfl, differ⟩ := told_apart unauthorized answers moment
        have other := hostWith_health first
        exact absurd ((indistinct _ _ other rfl moment moment).symm.trans
          (indistinct _ _ other rfl moment moment)) differ
      | some two =>
        refine ⟨one, two, rfl, rfl, ?_⟩
        have here := respond_public unauthorized
          (by rw [hostWith_health]; exact answered) moment
        have there := respond_public unauthorized
          (by rw [hostWith_health]; exact answers) moment
        rw [← here, ← there]
        exact indistinct _ _ (hostWith_health first) (hostWith_health second) moment moment
  · rintro ⟨_, _, answered, answers, same⟩ _ _ rfl rfl before after
    rw [respond_public unauthorized answered before,
      respond_public unauthorized answers after, same]

def Blind (config : HttpConfig) (listener : Listener) (request : Request)
    (first second : Health) : Prop :=
  match listener with
  | .surfaces =>
    request.method ≠ "GET" ∨ config.off request.path = true ∨ takesToken request.path = true ∨
      ((first = .serving ↔ second = .serving) ∧ (first = .serving → ¬ request.Reveals))
  | .application =>
    first = second ∧ (first = .serving →
      if request.method = "GET" ∧ serves config.serveStatus config.serveDocs request.path = true then
        config.off request.path = true ∨ takesToken request.path = true ∨ ¬ request.Reveals
      else config.serveStatus = false ∧ config.serveDocs = false)

theorem visible_status {one two : Response} (same : one.visible = two.visible) :
    one.status = two.status := by
  have statuses := congrArg Response.status same
  exact statuses

theorem publicPage_isSome : (publicPage quote request).isSome = true ↔ ¬ request.Reveals := by
  unfold publicPage Request.Reveals
  cases request.profile with
  | error => simp [Except.isOk, Except.toBool]
  | ok => cases request.wantsJson <;> simp [Except.isOk, Except.toBool]

theorem publicSurface_isSome : (publicSurface quote config request).isSome = true ↔
    config.off request.path = true ∨ takesToken request.path = true ∨ ¬ request.Reveals := by
  unfold publicSurface
  cases config.off request.path with
  | true => simp
  | false =>
    cases takesToken request.path with
    | true => simp
    | false => simpa using publicPage_isSome

theorem publicAnswer_status {health : Health}
    (answer : publicAnswer quote config .application request health = some response) :
    (response.status = 503 ↔ health = .absent) ∧ (response.status = 500 ↔ health = .broken) := by
  cases health with
  | serving =>
    have known : response.status ∈ [404, 401, 400, 200] := by
      simp only [publicAnswer] at answer
      split at answer
      · unfold publicSurface publicPage at answer
        repeat' split at answer
        all_goals cases answer
        all_goals simp [surfaceNotFound, unauthorized, unknownProfile, jsonResponse]
      · obtain ⟨_, rfl⟩ := ite_some_none_eq_some.mp answer
        exact mem_cons_self
    simp only [mem_cons, not_mem_nil, or_false] at known
    rcases known with known | known | known | known <;> simp [known]
  | _ =>
    simp only [publicAnswer, failure, map_some, some.injEq] at answer
    rw [← answer, response_status]
    simp [Reply.error]

theorem application_blind (first second : Health) :
    (∃ one two, publicAnswer quote config .application request first = some one ∧
      publicAnswer quote config .application request second = some two ∧
        one.visible = two.visible) ↔ Blind config .application request first second := by
  have answered : (publicAnswer quote config .application request .serving).isSome = true ↔
      if request.method = "GET" ∧ serves config.serveStatus config.serveDocs request.path = true then
        config.off request.path = true ∨ takesToken request.path = true ∨ ¬ request.Reveals
      else config.serveStatus = false ∧ config.serveDocs = false := by
    simp only [publicAnswer]
    split
    · exact publicSurface_isSome
    · cases config.serveStatus <;> cases config.serveDocs <;> simp
  constructor
  · rintro ⟨one, _, left, right, same⟩
    have status := visible_status same
    have here := publicAnswer_status left
    have there := publicAnswer_status right
    have equal : first = second := by
      cases first <;> cases second <;> simp_all
    subst equal
    refine ⟨rfl, ?_⟩
    rintro rfl
    exact answered.mp (by rw [left]; rfl)
  · rintro ⟨rfl, shown⟩
    have found : (publicAnswer quote config .application request first).isSome = true := by
      cases first with
      | serving => exact answered.mpr (shown rfl)
      | _ => rfl
    obtain ⟨one, left⟩ := isSome_iff_exists.mp found
    exact ⟨one, one, left, left, rfl⟩

theorem publicPage_status (answer : publicPage quote request = some response) :
    response.status ≠ 404 := by
  unfold publicPage at answer
  repeat' split at answer
  all_goals cases answer
  all_goals simp [unknownProfile, jsonResponse]

theorem page_blind {answer : Health → Option Response}
    (serving : answer .serving = publicPage quote request)
    (failing : ∀ health, health ≠ .serving → answer health = some (nothingHere config))
    (first second : Health) :
    (∃ one two, answer first = some one ∧ answer second = some two ∧ one.visible = two.visible) ↔
      (first = .serving ↔ second = .serving) ∧ (first = .serving → ¬ request.Reveals) := by
  have apart : ∀ {response}, publicPage quote request = some response →
      response.visible ≠ (nothingHere config).visible :=
    fun page same => publicPage_status page (visible_status same)
  by_cases left : first = .serving
  · subst left
    by_cases right : second = .serving
    · subst right
      rw [serving, ← publicPage_isSome, isSome_iff_exists]
      constructor
      · rintro ⟨one, two, found, -, -⟩
        exact ⟨Iff.rfl, fun _ => ⟨one, found⟩⟩
      · rintro ⟨-, shown⟩
        obtain ⟨one, found⟩ := shown rfl
        exact ⟨one, one, found, found, rfl⟩
    · rw [serving, failing second right]
      refine iff_of_false ?_ (fun both => right (both.1.mp rfl))
      rintro ⟨one, two, page, ⟨⟩, same⟩
      exact apart page same
  · by_cases right : second = .serving
    · subst right
      rw [serving, failing first left]
      refine iff_of_false ?_ (fun both => left (both.1.mpr rfl))
      rintro ⟨_, _, ⟨⟩, page, same⟩
      exact apart page same.symm
    · rw [failing first left, failing second right]
      exact iff_of_true ⟨_, _, rfl, rfl, rfl⟩ ⟨iff_of_false left right, fun serves => absurd serves left⟩

theorem surfaces_blind (first second : Health) :
    (∃ one two, publicAnswer quote config .surfaces request first = some one ∧
      publicAnswer quote config .surfaces request second = some two ∧
        one.visible = two.visible) ↔ Blind config .surfaces request first second := by
  by_cases other : request.method ≠ "GET"
  · have answer : ∀ health, publicAnswer quote config .surfaces request health =
        some (nothingHere config) := fun health => by simp only [publicAnswer, if_pos other]
    exact iff_of_true ⟨_, _, answer first, answer second, rfl⟩ (.inl other)
  · by_cases plain : (config.off request.path || takesToken request.path) = true
    · have answer : ∀ health, publicAnswer quote config .surfaces request health =
          publicSurface quote config request := fun health => by
        simp only [publicAnswer, if_neg other, plain, Bool.true_or, if_true]
      have blind : config.off request.path = true ∨ takesToken request.path = true := by
        simpa using plain
      have known : (publicSurface quote config request).isSome = true :=
        publicSurface_isSome.mpr (blind.imp id .inl)
      obtain ⟨response, found⟩ := isSome_iff_exists.mp known
      exact iff_of_true ⟨response, response, (answer first).trans found, (answer second).trans found, rfl⟩
        (.inr (blind.imp id .inl))
    · -- the page: the only surface that looks at the health
      have unplain := plain
      simp only [Bool.or_eq_true, not_or, Bool.not_eq_true] at unplain
      have serving : publicAnswer quote config .surfaces request .serving =
          publicPage quote request := by
        simp [publicAnswer, other, publicSurface, unplain.1, unplain.2]
      have failing : ∀ health, health ≠ .serving →
          publicAnswer quote config .surfaces request health = some (nothingHere config) := by
        intro health failing
        simp [publicAnswer, other, unplain.1, unplain.2, failing]
      have blind : Blind config .surfaces request first second ↔
          (first = .serving ↔ second = .serving) ∧ (first = .serving → ¬ request.Reveals) := by
        simp [Blind, other, unplain.1, unplain.2]
      rw [blind]
      exact page_blind serving failing first second

variable (quote) in
/-- Two hosts cannot be told apart by a request to the operator's surfaces
without the token exactly when the request, the configuration and the health of
the two meet the condition, whatever the definitions and the counters are. -/
theorem operator_surfaces_blind (unauthorized : Unauthorized config token request)
    (listener : Listener) (first second : Health) :
    Indistinct quote config listener request first second ↔
      Blind config listener request first second := by
  rw [indistinct_iff_public unauthorized]
  cases listener with
  | application => exact application_blind first second
  | surfaces => exact surfaces_blind first second

def sampleToken : Token := ⟨"s3cret", by decide⟩

def sampleConfig : HttpConfig :=
  { exposeDiagnostics := false, serveDocs := true, serveStatus := true,
    statusToken := some sampleToken, surfacesOff := [], readyRequiresResources := false }

def getRequest (path : String) (headers : List (String × List UInt8)) : Request :=
  { method := "GET", path, query := [], headers, body := [] }

/-- The counters and the definition stay hidden: the status asked for without a
token, on the listener of the surfaces. -/
theorem operator_surfaces_blind_status :
    Indistinct id sampleConfig .surfaces (getRequest "/_usai/status" []) .serving .absent := by
  have unauthorized : Unauthorized sampleConfig sampleToken (getRequest "/_usai/status" []) :=
    ⟨rfl, by decide, by decide⟩
  have takes : takesToken "/_usai/status" = true := by decide
  exact (operator_surfaces_blind id unauthorized .surfaces .serving .absent).mpr
    (.inr (.inr (.inl takes)))

/-- The page of the reference, asked for as JSON without the token, is the
OpenAPI document of the application. -/
theorem docs_reveal_document :
    (respond id .surfaces sampleConfig (hostOf (.serving (plainRevision "one"))) ⟨"", ""⟩
        (getRequest "/_usai/docs" [("accept", toBytes "application/json")])).visible ≠
      (respond id .surfaces sampleConfig (hostOf (.serving (plainRevision "two"))) ⟨"", ""⟩
        (getRequest "/_usai/docs" [("accept", toBytes "application/json")])).visible := by
  decide

end

end Usai.Http
