import Mathlib.Data.List.Dedup
import Mathlib.Data.List.Pairwise
import Mathlib.Data.List.Sort
import Usai.Fallible
import Usai.Http.Host
import Usai.Manifest.Describe

/-! The routing table of a revision (`http/router.rs`): how the declared paths
become patterns of the route matcher, what is compiled with them, and which
route a request is dispatched to. -/

namespace Usai.Http

open Fallible List

open Manifest (Trigger)

section

structure Contracts (Schema : Type) where
  params : Option Schema
  query : Option Schema
  headers : Option Schema
  body : Option Schema
  deriving DecidableEq, Repr

structure RoutedWorkload (Schema : Type) where
  id : String
  trigger : Trigger
  contracts : Contracts Schema
  deriving DecidableEq, Repr

inductive RouteKind where
  | contract
  | raw
  | stream
  | socket
  deriving DecidableEq, Repr

structure Endpoint where
  method : String
  path : String
  kind : RouteKind
  deriving DecidableEq, Repr

def endpoint : Trigger → Option Endpoint
  | .http method path raw _ => some ⟨method, path, if raw then .raw else .contract⟩
  | .stream method path _ => some ⟨method, path, .stream⟩
  | .socket path => some ⟨"GET", path, .socket⟩
  | .task | .cron _ _ _ _ _ | .command | .service _ _ _ _ | .queue _ _ _ _ => none

def toMatchitSegment (segment : List Char) : List Char :=
  match segment with
  | ':' :: name => '{' :: name ++ ['}']
  | '*' :: name => if name = [] then segment else '{' :: '*' :: name ++ ['}']
  | _ => segment

/-- The matcher writes `{name}` for a parameter, the developer `:name`. -/
def toMatchitPath (path : String) : String :=
  String.ofList (['/'].intercalate ((path.toList.splitOn '/').map toMatchitSegment))

def toAsciiUppercase (text : String) : String := String.ofList (text.toList.map Char.toUpper)

def isCatchAll (pattern : String) : Bool := contains pattern.toList "\x7b*"

structure Entry where
  pattern : String
  route : Route
  deriving DecidableEq, Repr

def Endpoint.entry (endpoint : Endpoint) (index : Nat) : Entry :=
  let pattern := toMatchitPath endpoint.path
  ⟨pattern, ⟨toAsciiUppercase endpoint.method, isCatchAll pattern, index⟩⟩

variable {Schema : Type} (workloads : List (RoutedWorkload Schema))

def entries : List Entry :=
  workloads.zipIdx.filterMap (fun numbered =>
    (endpoint numbered.1.trigger).map (fun endpoint => endpoint.entry numbered.2))

def patterns : List String := ((entries workloads).map Entry.pattern).dedup.insertionSort (· ≤ ·)

def routesAt (pattern : String) : List Route :=
  ((entries workloads).filter (fun entry => entry.pattern = pattern)).map Entry.route

end

section

/-- What is relied on of the route matcher. It takes a pattern that is well
formed and does not have the shape of one it has, and it answers a path with the
single most specific of its patterns that cover the path. -/
structure Matchit where
  formed : String → Bool
  clashes : String → String → Bool
  refusal : List String → String → String
  covers : String → String → Bool
  beats : String → String → Bool
  best : List String → String → Option String
  clashes_symm : ∀ one two, clashes one two = clashes two one
  beats_asymm : ∀ one two, beats one two = true → beats two one = false
  best_none : ∀ inserted path, best inserted path = none ↔
    ∀ pattern ∈ inserted, covers pattern path = false
  best_some : ∀ inserted path found, (∀ pattern ∈ inserted, formed pattern = true) →
    inserted.Pairwise (fun one two => clashes one two = false) → best inserted path = some found →
      found ∈ inserted ∧ covers found path = true ∧
        ∀ other ∈ inserted, other ≠ found → covers other path = true → beats found other = true

variable (matchit : Matchit)

def Matchit.insert (inserted : List String) (pattern : String) : Except String (List String) :=
  if matchit.formed pattern = true ∧ ∀ other ∈ inserted, matchit.clashes other pattern = false then
    .ok (inserted ++ [pattern])
  else .error (matchit.refusal inserted pattern)

structure Routers where
  router : List String
  catchAlls : List String
  deriving DecidableEq, Repr

def Matchit.insertCatchAll (catchAlls : List String) (pattern : String) :
    Except String (List String) :=
  if isCatchAll pattern then matchit.insert catchAlls pattern else .ok catchAlls

def Routers.insert (routers : Routers) (pattern : String) : Except String Routers := do
  let catchAlls ← matchit.insertCatchAll routers.catchAlls pattern
  let router ← matchit.insert routers.router pattern
  return ⟨router, catchAlls⟩

end

inductive RouteBuildError where
  | path (workload path detail : String)
  | schema (workload slot detail : String)
  deriving DecidableEq, Repr

section

-- `refuses` says what the schema library has against a schema
variable {Schema : Type} (matchit : Matchit) (refuses : Schema → Option String)

def RoutedWorkload.slots (workload : RoutedWorkload Schema) : List (String × Option Schema) :=
  match endpoint workload.trigger with
  | none => []
  | some endpoint =>
    if endpoint.kind = .raw then []
    else
      [("params", workload.contracts.params), ("query", workload.contracts.query),
        ("headers", workload.contracts.headers), ("body", workload.contracts.body)]

def compile (workload : RoutedWorkload Schema) (slot : String × Option Schema) :
    Except RouteBuildError Unit :=
  match slot.2.bind refuses with
  | none => .ok ()
  | some detail => .error (.schema workload.id slot.1 detail)

def owner (workloads : List (RoutedWorkload Schema)) (pattern : String) : String :=
  ((((routesAt workloads pattern).head?).bind (fun route => workloads[route.index]?)).map
    RoutedWorkload.id).getD ""

def Routers.add (workloads : List (RoutedWorkload Schema)) (routers : Routers) (pattern : String) :
    Except RouteBuildError Routers :=
  (routers.insert matchit pattern).mapError (.path (owner workloads pattern) pattern)

def build (workloads : List (RoutedWorkload Schema)) : Except RouteBuildError Routers := do
  workloads.forM (fun workload => workload.slots.forM (compile refuses workload))
  (patterns workloads).foldlM (Routers.add matchit workloads) ⟨[], []⟩

def compiledFrom (workloads : List (RoutedWorkload Schema)) (routers : Routers) (id : String)
    (definition : Definition) (headers : List (String × String))
    (answer : Route → Request → Except Reply Response) : CompiledRevision where
  id := id
  definition := definition
  router path := (matchit.best routers.router path).map (routesAt workloads)
  catchAlls path := (matchit.best routers.catchAlls path).map (routesAt workloads)
  headers := headers
  answer := answer

end

section

variable {Schema : Type} (matchit : Matchit) (refuses : Schema → Option String)
  (workloads : List (RoutedWorkload Schema))

def SchemasFit : Prop :=
  ∀ workload ∈ workloads, ∀ slot ∈ workload.slots, slot.2.bind refuses = none

/-- The declared paths are well formed, and no two of them differ in the names of
their parameters only. -/
structure PathsFit : Prop where
  formed : ∀ entry ∈ entries workloads, matchit.formed entry.pattern = true
  apart : ∀ one ∈ entries workloads, ∀ two ∈ entries workloads,
    one.pattern ≠ two.pattern → matchit.clashes one.pattern two.pattern = false

def Routers.holding (inserted : List String) : Routers := ⟨inserted, inserted.filter isCatchAll⟩

variable {matchit refuses workloads}

variable {inserted : List String} {after : Routers} {pattern : String}

theorem insert_ok_iff {after : List String} :
    matchit.insert inserted pattern = .ok after ↔
      (matchit.formed pattern = true ∧ ∀ other ∈ inserted, matchit.clashes other pattern = false) ∧
        after = inserted ++ [pattern] := by
  unfold Matchit.insert
  split
  · rename_i fits
    rw [and_iff_right fits, Except.ok.injEq, eq_comm]
  · rename_i unfit
    exact iff_of_false nofun (fun fits => unfit fits.1)

theorem insertCatchAll_filter (formed : matchit.formed pattern = true)
    (apart : ∀ other ∈ inserted, matchit.clashes other pattern = false) :
    matchit.insertCatchAll (inserted.filter isCatchAll) pattern =
      .ok ((inserted ++ [pattern]).filter isCatchAll) := by
  rw [filter_append, filter_singleton]
  unfold Matchit.insertCatchAll
  split
  · rename_i wild
    rw [wild]
    exact insert_ok_iff.mpr
      ⟨⟨formed, fun other member => apart other (mem_of_mem_filter member)⟩, rfl⟩
  · rename_i plain
    rw [Bool.eq_false_iff.mpr plain, cond_false, append_nil]

theorem routers_insert_ok_iff :
    (Routers.holding inserted).insert matchit pattern = .ok after ↔
      (matchit.formed pattern = true ∧ ∀ other ∈ inserted, matchit.clashes other pattern = false) ∧
        after = .holding (inserted ++ [pattern]) := by
  constructor
  · intro done
    obtain ⟨_, first, done⟩ := bind_ok_cases done
    obtain ⟨_, second, done⟩ := bind_ok_cases done
    obtain ⟨fits, rfl⟩ := insert_ok_iff.mp second
    refine ⟨fits, ?_⟩
    have same := first.symm.trans (insertCatchAll_filter fits.1 fits.2)
    rw [← Except.ok.inj done, Except.ok.inj same]
    rfl
  · rintro ⟨fits, rfl⟩
    have first := insertCatchAll_filter fits.1 fits.2
    have second := insert_ok_iff.mpr ⟨fits, rfl⟩
    simp only [Routers.insert, Routers.holding, first, second]
    rfl

theorem add_ok_iff :
    (Routers.holding inserted).add matchit workloads pattern = .ok after ↔
      (matchit.formed pattern = true ∧ ∀ other ∈ inserted, matchit.clashes other pattern = false) ∧
        after = .holding (inserted ++ [pattern]) := by
  rw [← routers_insert_ok_iff]
  unfold Routers.add
  cases (Routers.holding inserted).insert matchit pattern with
  | ok => exact ⟨fun done => congrArg Except.ok (Except.ok.inj done),
      fun done => congrArg Except.ok (Except.ok.inj done)⟩
  | error => exact iff_of_false nofun nofun

theorem foldlM_add_ok_iff {later : List String} :
    later.foldlM (Routers.add matchit workloads) (.holding inserted) = .ok after ↔
      ((∀ pattern ∈ later, matchit.formed pattern = true) ∧
          later.Pairwise (fun one two => matchit.clashes one two = false) ∧
          ∀ other ∈ inserted, ∀ pattern ∈ later, matchit.clashes other pattern = false) ∧
        after = .holding (inserted ++ later) := by
  induction later generalizing inserted with
  | nil =>
    rw [foldlM_nil, append_nil, and_iff_right ⟨nofun, List.Pairwise.nil, nofun⟩]
    exact ⟨fun done => (Except.ok.inj done).symm, fun same => congrArg Except.ok same.symm⟩
  | cons pattern _ ih =>
    rw [foldlM_cons, pairwise_cons, forall_mem_cons]
    constructor
    · intro done
      obtain ⟨_, first, done⟩ := bind_ok_cases done
      obtain ⟨fits, rfl⟩ := add_ok_iff.mp first
      obtain ⟨⟨formed, apart, before⟩, rfl⟩ := ih.mp done
      refine ⟨⟨⟨fits.1, formed⟩, ⟨?_, apart⟩, ?_⟩, by rw [append_assoc, singleton_append]⟩
      · exact before pattern (mem_append_right _ (mem_singleton_self _))
      · intro other member
        exact forall_mem_cons.mpr
          ⟨fits.2 other member, before other (mem_append_left _ member)⟩
    · rintro ⟨⟨⟨formed, rest⟩, ⟨here, apart⟩, before⟩, rfl⟩
      have first : (Routers.holding inserted).add matchit workloads pattern =
          .ok (.holding (inserted ++ [pattern])) :=
        add_ok_iff.mpr
          ⟨⟨formed, fun other member => before other member pattern mem_cons_self⟩, rfl⟩
      rw [first]
      refine ih.mpr ⟨⟨rest, apart, ?_⟩, by rw [append_assoc, singleton_append]⟩
      intro other member next within
      rcases mem_append.mp member with member | member
      · exact before other member next (mem_cons_of_mem _ within)
      · exact mem_singleton.mp member ▸ here next within

theorem mem_patterns :
    pattern ∈ patterns workloads ↔ ∃ entry ∈ entries workloads, entry.pattern = pattern := by
  unfold patterns
  rw [mem_insertionSort, mem_dedup, mem_map]

theorem patterns_nodup : (patterns workloads).Nodup :=
  (perm_insertionSort _ _).nodup_iff.mpr (nodup_dedup _)

theorem pathsFit_iff : PathsFit matchit workloads ↔
    (∀ pattern ∈ patterns workloads, matchit.formed pattern = true) ∧
      (patterns workloads).Pairwise (fun one two => matchit.clashes one two = false) := by
  constructor
  · rintro ⟨formed, apart⟩
    refine ⟨?_, ?_⟩
    · intro pattern member
      obtain ⟨entry, declared, rfl⟩ := mem_patterns.mp member
      exact formed entry declared
    · refine patterns_nodup.pairwise_of_forall_ne ?_
      intro one first two second differ
      obtain ⟨one, declared, rfl⟩ := mem_patterns.mp first
      obtain ⟨two, declared', rfl⟩ := mem_patterns.mp second
      exact apart one declared two declared' differ
  · rintro ⟨formed, apart⟩
    have listed {entry : Entry} (declared : entry ∈ entries workloads) :
        entry.pattern ∈ patterns workloads := mem_patterns.mpr ⟨entry, declared, rfl⟩
    refine ⟨fun entry declared => formed _ (listed declared), ?_⟩
    intro one first two second differ
    have symmetric : Std.Symm (fun one two => matchit.clashes one two = false) :=
      ⟨fun one two distinct => (matchit.clashes_symm two one).trans distinct⟩
    exact apart.forall (listed first) (listed second) differ

theorem build_ok_iff {routers : Routers} :
    build matchit refuses workloads = .ok routers ↔
      (SchemasFit refuses workloads ∧ PathsFit matchit workloads) ∧
        routers = .holding (patterns workloads) := by
  have schemas : workloads.forM (fun workload => workload.slots.forM (compile refuses workload)) =
      .ok () ↔ SchemasFit refuses workloads := by
    rw [forM_ok_iff]
    refine forall₂_congr (fun workload _ => ?_)
    rw [forM_ok_iff]
    refine forall₂_congr (fun slot _ => ?_)
    unfold compile
    cases slot.2.bind refuses with
    | none => exact iff_of_true rfl rfl
    | some => exact iff_of_false nofun nofun
  have paths : (patterns workloads).foldlM (Routers.add matchit workloads) (.holding []) =
      .ok routers ↔ _ := foldlM_add_ok_iff
  unfold build
  constructor
  · intro done
    obtain ⟨_, first, done⟩ := bind_ok_cases done
    obtain ⟨⟨formed, apart, -⟩, same⟩ := paths.mp done
    exact ⟨⟨schemas.mp first, pathsFit_iff.mpr ⟨formed, apart⟩⟩, same⟩
  · rintro ⟨⟨fit, fits⟩, same⟩
    rw [schemas.mpr fit]
    obtain ⟨formed, apart⟩ := pathsFit_iff.mp fits
    exact paths.mpr ⟨⟨formed, apart, nofun⟩, same⟩

end

end Usai.Http
