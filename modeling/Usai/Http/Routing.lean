import Usai.Http.Disclosure
import Usai.Http.Patterns

/-! Which requests reach a workload: what the routing of a built revision makes
of every method and path. -/

namespace Usai.Http

open List Option

variable {request : Request}

section

variable {Schema : Type} (matchit : Matchit) (workloads : List (RoutedWorkload Schema))

structure Foremost (inserted : List String) (path pattern : String) : Prop where
  member : pattern ∈ inserted
  covers : matchit.covers pattern path = true
  beats : ∀ other ∈ inserted, other ≠ pattern → matchit.covers other path = true →
    matchit.beats pattern other = true

/-- The pattern is the most specific one that covers the path, or the most
specific catch-all that does. -/
def Consulted (path pattern : String) : Prop :=
  Foremost matchit (patterns workloads) path pattern ∨
    Foremost matchit ((patterns workloads).filter isCatchAll) path pattern

variable {matchit workloads}

variable {pattern path : String} {matched : List Route}

theorem mem_routesAt :
    route ∈ routesAt workloads pattern ↔ ⟨pattern, route⟩ ∈ entries workloads := by
  unfold routesAt
  rw [List.mem_map]
  constructor
  · rintro ⟨_, member, rfl⟩
    obtain ⟨declared, same⟩ := mem_filter.mp member
    rw [← of_decide_eq_true same]
    exact declared
  · intro declared
    exact ⟨_, mem_filter.mpr ⟨declared, decide_eq_true rfl⟩, rfl⟩

theorem foremost_iff (formed : ∀ pattern ∈ inserted, matchit.formed pattern = true)
    (apart : inserted.Pairwise (fun one two => matchit.clashes one two = false)) :
    matchit.best inserted path = some pattern ↔ Foremost matchit inserted path pattern := by
  constructor
  · intro answered
    obtain ⟨member, covers, beats⟩ := matchit.best_some inserted path pattern formed apart answered
    exact ⟨member, covers, beats⟩
  · intro foremost
    cases answered : matchit.best inserted path with
    | none =>
      have never := (matchit.best_none inserted path).mp answered pattern foremost.member
      exact absurd (never.symm.trans foremost.covers) Bool.false_ne_true
    | some found =>
      by_contra differ
      have distinct : found ≠ pattern := fun same => differ (congrArg some same)
      obtain ⟨member, covers, beats⟩ := matchit.best_some inserted path found formed apart answered
      have wins := beats pattern foremost.member distinct.symm foremost.covers
      have loses := foremost.beats found member distinct covers
      exact absurd ((matchit.beats_asymm _ _ wins).symm.trans loses) Bool.false_ne_true

variable (matchit workloads) in
/-- What the router makes of a request: a route of the most specific pattern, or
of the most specific catch-all when that one takes the method, or a refusal. -/
inductive Routed (request : Request) : Except Reply Route → Prop where
  | served {pattern : String} {route : Route}
      (foremost : Foremost matchit (patterns workloads) request.path pattern)
      (first : (routesAt workloads pattern).find? (Route.accepts request.method) = some route) :
      Routed request (.ok route)
  | fallback {pattern : String} {route : Route}
      (foremost : Foremost matchit ((patterns workloads).filter isCatchAll) request.path pattern)
      (first : (routesAt workloads pattern).find? (Route.accepts request.method) = some route) :
      Routed request (.ok route)
  | unknown
      (refused : ∀ pattern, Consulted matchit workloads request.path pattern →
        (routesAt workloads pattern).any (Route.accepts request.method) = false) :
      Routed request (.error (routeNotFound request))
  | notAllowed {pattern : String}
      (foremost : Foremost matchit (patterns workloads) request.path pattern)
      (plain : isCatchAll pattern = false)
      (refused : ∀ pattern, Consulted matchit workloads request.path pattern →
        (routesAt workloads pattern).any (Route.accepts request.method) = false) :
      Routed request (.error { Reply.error 405 "method_not_allowed"
          (request.method ++ " is not allowed on " ++ request.path) with
        headers := [("allow", allowed (routesAt workloads pattern))] })

theorem routesAt_all_catchAll (member : pattern ∈ patterns workloads) :
    (routesAt workloads pattern).all Route.catchAll = isCatchAll pattern := by
  obtain ⟨entry, declared, same⟩ := mem_patterns.mp member
  have marked : ∀ route ∈ routesAt workloads pattern, route.catchAll = isCatchAll pattern := by
    intro route listed
    obtain ⟨_, -, made⟩ := mem_filterMap.mp (mem_routesAt.mp listed)
    obtain ⟨_, -, made⟩ := map_eq_some_iff.mp made
    rw [Endpoint.entry, Entry.mk.injEq] at made
    rw [← made.1, ← made.2]
  have listed : entry.route ∈ routesAt workloads pattern :=
    mem_routesAt.mpr (same ▸ declared)
  cases wild : isCatchAll pattern with
  | true => exact all_eq_true.mpr (fun route listed => (marked route listed).trans wild)
  | false =>
    refine all_eq_false.mpr ⟨entry.route, listed, ?_⟩
    rw [marked entry.route listed, wild]
    exact Bool.false_ne_true

def settleOn (request : Request) (matched : List Route) : Except Reply Route :=
  if !matched.any (Route.accepts request.method) && matched.all Route.catchAll then
    .error (routeNotFound request)
  else
    match matched.find? (Route.accepts request.method) with
    | some route => .ok route
    | none =>
      .error { Reply.error 405 "method_not_allowed"
          (request.method ++ " is not allowed on " ++ request.path) with
        headers := [("allow", allowed matched)] }

theorem settleOn_taken (taken : matched.any (Route.accepts request.method) = true) :
    ∃ route, matched.find? (Route.accepts request.method) = some route ∧
      settleOn request matched = .ok route := by
  obtain ⟨route, first⟩ := isSome_iff_exists.mp
    (show (matched.find? (Route.accepts request.method)).isSome = true by
      rwa [List.find?_isSome, ← List.any_eq_true])
  refine ⟨route, first, ?_⟩
  unfold settleOn
  rw [taken, first, Bool.not_true, Bool.false_and]
  exact if_neg Bool.false_ne_true

theorem settleOn_refused (refused : matched.any (Route.accepts request.method) = false) :
    settleOn request matched =
      if matched.all Route.catchAll then .error (routeNotFound request)
      else .error { Reply.error 405 "method_not_allowed"
          (request.method ++ " is not allowed on " ++ request.path) with
        headers := [("allow", allowed matched)] } := by
  have absent : matched.find? (Route.accepts request.method) = none := by
    rw [find?_eq_none]
    exact any_eq_false.mp refused
  unfold settleOn
  rw [refused, absent, Bool.not_false, Bool.true_and]

variable (fits : PathsFit matchit workloads)
include fits

theorem best_patterns :
    matchit.best (patterns workloads) path = some pattern ↔
      Foremost matchit (patterns workloads) path pattern := by
  obtain ⟨formed, apart⟩ := pathsFit_iff.mp fits
  exact foremost_iff formed apart

theorem best_catchAlls :
    matchit.best ((patterns workloads).filter isCatchAll) path = some pattern ↔
      Foremost matchit ((patterns workloads).filter isCatchAll) path pattern := by
  obtain ⟨formed, apart⟩ := pathsFit_iff.mp fits
  exact foremost_iff (fun pattern member => formed pattern (mem_of_mem_filter member))
    (apart.sublist filter_sublist)

theorem consulted_refused (takes : Route → Bool)
    (router : ∀ pattern ∈ matchit.best (patterns workloads) path,
      (routesAt workloads pattern).any takes = false)
    (catchAlls : ∀ pattern ∈ matchit.best ((patterns workloads).filter isCatchAll) path,
      (routesAt workloads pattern).any takes = false) :
    ∀ pattern, Consulted matchit workloads path pattern →
      (routesAt workloads pattern).any takes = false := by
  intro pattern consulted
  rcases consulted with foremost | foremost
  · exact router pattern ((best_patterns fits).mpr foremost)
  · exact catchAlls pattern ((best_catchAlls fits).mpr foremost)

theorem route_routed {compiled : CompiledRevision} (router : ∀ path, compiled.router path =
      (matchit.best (patterns workloads) path).map (routesAt workloads))
    (catchAlls : ∀ path, compiled.catchAlls path =
      (matchit.best ((patterns workloads).filter isCatchAll) path).map (routesAt workloads))
    (request : Request) : Routed matchit workloads request (compiled.route request) := by
  unfold CompiledRevision.route
  rw [router, catchAlls]
  cases matched : matchit.best (patterns workloads) request.path with
  | none =>
    refine Routed.unknown (consulted_refused fits _ ?_ ?_)
    · rw [matched]
      nofun
    · rw [(matchit.best_none _ _).mpr]
      · nofun
      · intro pattern member
        exact (matchit.best_none _ _).mp matched pattern (mem_of_mem_filter member)
  | some pattern =>
    have foremost := (best_patterns fits).mp matched
    show Routed matchit workloads request (settleOn request
      (if (routesAt workloads pattern).any (Route.accepts request.method) then
          routesAt workloads pattern
        else ((matchit.best ((patterns workloads).filter isCatchAll) request.path).map
          (routesAt workloads)).filter
            (fun routes => routes.any (Route.accepts request.method)) |>.getD
              (routesAt workloads pattern)))
    split
    · rename_i taken
      obtain ⟨route, first, settled⟩ := settleOn_taken taken
      rw [settled]
      exact Routed.served foremost first
    · rename_i refused
      have refused := Bool.eq_false_iff.mpr refused
      cases fallback : ((matchit.best ((patterns workloads).filter isCatchAll) request.path).map
          (routesAt workloads)).filter
            (fun routes => routes.any (Route.accepts request.method)) with
      | some =>
        -- a catch-all that takes the method
        obtain ⟨found, taken⟩ := filter_eq_some_iff.mp fallback
        obtain ⟨wild, asked, rfl⟩ := map_eq_some_iff.mp found
        obtain ⟨_, first, settled⟩ := settleOn_taken taken
        rw [getD_some, settled]
        exact Routed.fallback ((best_catchAlls fits).mp asked) first
      | none =>
        have lacks := consulted_refused fits (Route.accepts request.method)
          (by
            rw [matched]
            intro found same
            exact some.inj same ▸ refused)
          (by
            intro wild asked
            rw [asked] at fallback
            exact Bool.eq_false_iff.mpr (filter_eq_none_iff.mp fallback _ rfl))
        rw [getD_none, settleOn_refused refused, routesAt_all_catchAll foremost.member]
        cases plain : isCatchAll pattern with
        | true => exact Routed.unknown lacks
        | false => exact Routed.notAllowed foremost plain lacks

end

section

variable {Schema : Type} {matchit : Matchit} {workloads : List (RoutedWorkload Schema)}

theorem entries_ordered :
    (entries workloads).Pairwise (fun one two => one.route.index < two.route.index) := by
  have numbered : workloads.zipIdx.Pairwise (fun one two => one.2 < two.2) := by
    have ordered : (range' 0 workloads.length).Pairwise (· < ·) := pairwise_lt_range'
    rw [← zipIdx_map_snd, pairwise_map] at ordered
    exact ordered
  unfold entries
  rw [pairwise_filterMap]
  refine numbered.imp ?_
  intro one two before first made second made'
  obtain ⟨_, -, rfl⟩ := map_eq_some_iff.mp made
  obtain ⟨_, -, rfl⟩ := map_eq_some_iff.mp made'
  exact before

theorem entry_of_route (first : one ∈ entries workloads)
    (second : two ∈ entries workloads) (same : one.route = two.route) : one = two := by
  have symmetric : Std.Symm (fun one two : Entry => one.route.index ≠ two.route.index) :=
    ⟨fun _ _ => Ne.symm⟩
  by_contra differ
  have apart := (entries_ordered.imp (fun before => Nat.ne_of_lt before)).forall first second differ
  exact apart (congrArg Route.index same)

theorem routesAt_ordered (pattern : String) :
    (routesAt workloads pattern).Pairwise (fun one two => one.index < two.index) := by
  unfold routesAt
  rw [pairwise_map]
  exact entries_ordered.sublist filter_sublist

variable (matchit workloads) in
structure Complete (request : Request) (outcome : Except Reply Route) : Prop where
  /-- A declared method of the most specific pattern, or of the most specific
  catch-all, reaches a workload. -/
  dispatched : ∀ entry ∈ entries workloads, Consulted matchit workloads request.path entry.pattern →
    entry.route.method = request.method →
      ∃ served ∈ entries workloads, matchit.covers served.pattern request.path = true ∧
        served.route.accepts request.method = true ∧ outcome = .ok served.route
  /-- A `HEAD` route that stands before the `GET` routes of its pattern wins. -/
  head : request.method = "HEAD" → ∀ served ∈ entries workloads, outcome = .ok served.route →
    ∀ head ∈ entries workloads, head.pattern = served.pattern → head.route.method = "HEAD" →
      (∀ get ∈ entries workloads, get.pattern = served.pattern → get.route.method = "GET" →
        head.route.index < get.route.index) →
      served.route.method = "HEAD"
  /-- A 405 is about a pattern that is no catch-all, and names its methods. -/
  refused : ∀ reply, outcome = .error reply → reply.status = 405 →
    ∃ pattern methods, Foremost matchit (patterns workloads) request.path pattern ∧
      isCatchAll pattern = false ∧ reply.headers = [("allow", ", ".intercalate methods)] ∧
      ∀ method, method ∈ methods ↔ ∃ entry ∈ entries workloads, entry.pattern = pattern ∧
        (entry.route.method = method ∨ method = "HEAD" ∧ entry.route.method = "GET")

variable {route : Route}

theorem accepts_iff :
    route.accepts method = true ↔ route.method = method ∨ method = "HEAD" ∧ route.method = "GET" := by
  unfold Route.accepts
  rw [Bool.or_eq_true, Bool.and_eq_true, beq_iff_eq, beq_iff_eq, beq_iff_eq]

theorem head_of_find? {head : Route}
    (listed : head ∈ routesAt workloads pattern) (method : head.method = "HEAD")
    (before : ∀ get ∈ routesAt workloads pattern, get.method = "GET" → head.index < get.index)
    (first : (routesAt workloads pattern).find? (Route.accepts "HEAD") = some route) :
    route.method = "HEAD" := by
  obtain ⟨taken, _, _, split, skipped⟩ := find?_eq_some_iff_append.mp first
  rcases accepts_iff.mp taken with named | ⟨-, get⟩
  · exact named
  · -- the found route stands before the `HEAD` route, or is that route
    have later := before route (mem_of_find?_eq_some first) get
    rw [split, mem_append, mem_cons] at listed
    rcases listed with earlier | same | behind
    · have refused := skipped head earlier
      rw [accepts_iff.mpr (.inl method)] at refused
      cases refused
    · exact same ▸ method
    · have ordered : (routesAt workloads pattern).Pairwise _ := routesAt_ordered pattern
      rw [split] at ordered
      have sooner := (pairwise_cons.mp (pairwise_append.mp ordered).2.1).1 head behind
      exact absurd later (Nat.lt_asymm sooner)

def allowedMethods (routes : List Route) : List String :=
  if (routes.map Route.method).contains "GET" then routes.map Route.method ++ ["HEAD"]
  else routes.map Route.method

theorem mem_allowedMethods :
    method ∈ allowedMethods routes ↔
      ∃ route ∈ routes, route.method = method ∨ method = "HEAD" ∧ route.method = "GET" := by
  have got : (routes.map Route.method).contains "GET" = true ↔ ∃ route ∈ routes, route.method = "GET" := by
    rw [List.contains_iff_mem, List.mem_map]
  unfold allowedMethods
  split
  · rename_i gets
    obtain ⟨get, listed, named⟩ := got.mp gets
    rw [List.mem_append, List.mem_map, List.mem_singleton]
    constructor
    · rintro (⟨route, member, same⟩ | same)
      · exact ⟨route, member, .inl same⟩
      · exact ⟨get, listed, .inr ⟨same, named⟩⟩
    · rintro ⟨route, member, same | ⟨same, -⟩⟩
      · exact .inl ⟨route, member, same⟩
      · exact .inr same
  · rename_i never
    rw [List.mem_map]
    constructor
    · rintro ⟨route, member, same⟩
      exact ⟨route, member, .inl same⟩
    · rintro ⟨route, member, same | ⟨-, named⟩⟩
      · exact ⟨route, member, same⟩
      · exact absurd (got.mpr ⟨route, member, named⟩) never

theorem routed_complete {outcome : Except Reply Route}
    (routed : Routed matchit workloads request outcome) :
    Complete matchit workloads request outcome := by
  have served {pattern : String} {route : Route} (covers : matchit.covers pattern request.path = true)
      (first : (routesAt workloads pattern).find? (Route.accepts request.method) = some route) :
      Complete matchit workloads request (.ok route) := by
    have declared := mem_routesAt.mp (mem_of_find?_eq_some first)
    have taken := find?_some first
    refine ⟨fun _ _ _ _ => ⟨_, declared, covers, taken, rfl⟩, ?_, nofun⟩
    intro method entry member same head listed under named before
    cases entry_of_route declared member (Except.ok.inj same)
    have under : head.pattern = pattern := under
    rw [method] at first
    refine head_of_find? (mem_routesAt.mpr (under ▸ listed)) named ?_ first
    intro get within
    exact before ⟨pattern, get⟩ (mem_routesAt.mp within) rfl
  have refused (lacks : ∀ pattern, Consulted matchit workloads request.path pattern →
      (routesAt workloads pattern).any (Route.accepts request.method) = false) :
      ∀ entry ∈ entries workloads, Consulted matchit workloads request.path entry.pattern →
        entry.route.method ≠ request.method := by
    intro entry declared consulted same
    have never := any_eq_false.mp (lacks _ consulted) entry.route (mem_routesAt.mpr declared)
    exact never (accepts_iff.mpr (.inl same))
  cases routed with
  | served foremost first | fallback foremost first => exact served foremost.covers first
  | unknown lacks =>
    refine ⟨fun entry declared consulted same => ?_, nofun, ?_⟩
    · exact absurd same (refused lacks entry declared consulted)
    · intro reply same status
      rw [← Except.error.inj same] at status
      cases status
  | @notAllowed pattern foremost plain lacks =>
    refine ⟨fun entry declared consulted same => ?_, nofun, ?_⟩
    · exact absurd same (refused lacks entry declared consulted)
    · intro reply same status
      refine ⟨pattern, allowedMethods (routesAt workloads pattern), foremost, plain, ?_, ?_⟩
      · rw [← Except.error.inj same]
        simp only [allowed, allowedMethods]
      · intro method
        rw [mem_allowedMethods]
        constructor
        · rintro ⟨route, listed, named⟩
          exact ⟨⟨pattern, route⟩, mem_routesAt.mp listed, rfl, named⟩
        · rintro ⟨entry, declared, rfl, named⟩
          exact ⟨entry.route, mem_routesAt.mpr declared, named⟩

-- how `{:?}` quotes a text in a message
variable {quote : String → String} {config : HttpConfig} {host : HttpHost}
  {refuses : Schema → Option String} {routers : Routers}

theorem surface_outside (outside : isInternal request.path = false) :
    host.surface quote config request = none := by
  unfold HttpHost.surface
  split
  · unfold HttpHost.internal
    rw [outside]
    exact if_pos rfl
  · rfl

/-- Outside of `/_usai/`, the pipeline of a revision that was built dispatches by
the most specific patterns. -/
theorem routing_complete (built : build matchit refuses workloads = .ok routers) (id : String)
    (definition : Definition) (headers : List (String × String))
    (answer : Route → Request → Except Reply Response) (compiled : CompiledRevision)
    (made : compiled = compiledFrom matchit workloads routers id definition headers answer)
    (serving : host.active = .serving compiled) (request : Request)
    (outside : isInternal request.path = false) :
    host.pipeline quote config request =
        (match compiled.route request with
          | .ok route => answer route request
          | .error reply => .error reply) ∧
      Complete matchit workloads request (compiled.route request) := by
  obtain ⟨⟨-, fits⟩, rfl⟩ := build_ok_iff.mp built
  subst made
  constructor
  · rw [pipeline_serving serving, surface_outside outside, outside]
    exact if_neg Bool.false_ne_true
  · exact routed_complete (route_routed fits (fun _ => rfl) (fun _ => rfl) request)

def plain (method path : String) : RoutedWorkload Unit :=
  ⟨"http:" ++ method ++ " " ++ path, .http method path false [], ⟨none, none, none, none⟩⟩

def compiledSample (workloads : List (RoutedWorkload Unit)) : CompiledRevision :=
  compiledFrom segmentMatcher workloads (.holding (patterns workloads)) "rev-1"
    ⟨"app", none, "app@1", fun _ => ""⟩ [] (fun _ _ => .ok ⟨200, [], .bytes []⟩)

def bodiless (method path : String) : Request := ⟨method, path, [], [], []⟩

def profiles : List (RoutedWorkload Unit) := [plain "GET" "/users/me", plain "DELETE" "/users/:id"]

def accounts : List (RoutedWorkload Unit) := [plain "GET" "/account", plain "HEAD" "/account"]

def preflight : List (RoutedWorkload Unit) := [plain "OPTIONS" "/*any"]

def publicListener : HttpConfig := ⟨false, false, false, none, [], true⟩

/-- Methods of a pattern with a parameter are not served on a literal path, a
`HEAD` route behind the `GET` route never is, and a catch-all does not reach below
`/_usai/`. -/
theorem routing_by_pattern :
    (∃ entry ∈ entries profiles, entry.route.method = "DELETE" ∧
        segmentMatcher.covers entry.pattern "/users/me" = true) ∧
      (compiledSample profiles).route (bodiless "DELETE" "/users/me") = .error
        ⟨405, .error "method_not_allowed" "DELETE is not allowed on /users/me",
          [("allow", "GET, HEAD")]⟩ ∧
      (∃ entry ∈ entries accounts, entry.route = ⟨"HEAD", false, 1⟩) ∧
      (compiledSample accounts).route (bodiless "HEAD" "/account") = .ok ⟨"GET", false, 0⟩ ∧
      (compiledSample preflight).route (bodiless "OPTIONS" "/_usai/x") = .ok ⟨"OPTIONS", true, 0⟩ ∧
      (hostOf (.serving (compiledSample preflight))).pipeline id publicListener
          (bodiless "OPTIONS" "/_usai/x") =
        .error (HttpHost.notHere (bodiless "OPTIONS" "/_usai/x")) := by
  refine ⟨?_, ?_, ?_, ?_, ?_, ?_⟩ <;> decide +kernel

theorem routing_complete_profiles :
    (hostOf (.serving (compiledSample profiles))).pipeline id publicListener
          (bodiless "GET" "/users/me") =
        (match (compiledSample profiles).route (bodiless "GET" "/users/me") with
          | .ok _ => .ok ⟨200, [], .bytes []⟩
          | .error reply => .error reply) ∧
      Complete segmentMatcher profiles (bodiless "GET" "/users/me")
        ((compiledSample profiles).route (bodiless "GET" "/users/me")) :=
  have built : build segmentMatcher (fun _ => none) profiles = .ok (.holding (patterns profiles)) := by
    decide +kernel
  routing_complete built "rev-1" ⟨"app", none, "app@1", fun _ => ""⟩ []
    (fun _ _ => .ok ⟨200, [], .bytes []⟩) (compiledSample profiles) rfl rfl
    (bodiless "GET" "/users/me") (by decide +kernel)

end

end Usai.Http
