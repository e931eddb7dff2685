import Usai.Json
import Usai.Manifest.Declaration
import Usai.Resources.Registry

/-! What a handler sees of an optional resource. `bind` leaves such a resource
unconfigured when its environment says nothing; each trigger writes an envelope
for the world (`workloads/mod.rs`, `http/pipeline.rs`), and the guest decides
from one member of it (`runtime/sdk.ts`, `runtime/context.ts`). -/

namespace Usai.Resources

open Manifest (WorkloadKind)

def Process.unconfigured {Config : Type} (process : Process Config)
    (specs : List (ResourceSpec Config)) : List String :=
  specs.filterMap (fun spec =>
    match process.need spec with
    | .unconfigured => some spec.name
    | .unknownKind | .manager _ => none)

/-- The resources of a definition. A second one of a name is `DuplicateResource`. -/
structure Declared (Config : Type) where
  specs : List (ResourceSpec Config)
  distinct : (specs.map ResourceSpec.name).Nodup

/-- A revision after `bind`: its resolved environment and the optional resources
it left out. -/
structure BoundRevision where
  env : List (String × String)
  unconfigured : List String
  deriving DecidableEq, Repr

def Process.bind {Config : Type} (process : Process Config) (declared : Declared Config)
    (env : List (String × String)) : BoundRevision :=
  ⟨env, process.unconfigured declared.specs⟩

abbrev Envelope := FiniteMap String Json

def envJson (env : List (String × String)) : Json :=
  .object (env.map (fun entry => (entry.1, .string entry.2)))

def opening (revision : BoundRevision) (kind : WorkloadKind) : Envelope :=
  ((∅ : Envelope).insert "kind" (.string kind.text)).insert "env" (envJson revision.env)

def nameUnconfigured (revision : BoundRevision) (envelope : Envelope) : Envelope :=
  if revision.unconfigured.isEmpty then envelope
  else envelope.insert "unconfigured" (.array (revision.unconfigured.map .string))

def input (revision : BoundRevision) (kind : WorkloadKind) (fields : List (String × Json)) :
    Envelope :=
  fields.foldl (fun envelope field => envelope.insert field.1 field.2)
    (nameUnconfigured revision (opening revision kind))

/-- What starts a world, with what the trigger knows. A `requestId` is a member of
its own when the trigger writes one, be it `null`. -/
inductive Invocation where
  | http (request : Json)
  | stream (request : Json)
  | socket (request : Json)
  | task (input : Json) (requestId : Option Json)
  | cron (scheduledAt : String)
  | queue (message : Json) (id : String) (attempt : Nat) (requestId : Option Json)
  | service
  | command (args : List Json)

def Invocation.kind : Invocation → WorkloadKind
  | .http _ => .http
  | .stream _ => .stream
  | .socket _ => .socket
  | .task _ _ => .task
  | .cron _ => .cron
  | .queue _ _ _ _ => .queue
  | .service => .service
  | .command _ => .command

/-- The envelope each trigger writes. `HttpHost` has three sites of its own: the
pipeline names what is unconfigured, `run_stream` and `upgrade_socket` write only
the request. -/
def Invocation.envelope (revision : BoundRevision) : Invocation → Envelope
  | .http request => nameUnconfigured revision ((opening revision .http).insert "request" request)
  | .stream request =>
    ((∅ : Envelope).insert "kind" (.string WorkloadKind.stream.text)).insert "request" request
  | .socket request =>
    ((∅ : Envelope).insert "kind" (.string WorkloadKind.socket.text)).insert "request" request
  | .task value requestId =>
    input revision .task (("input", value) :: Json.given "requestId" requestId)
  | .cron scheduledAt => input revision .cron [("scheduledAt", .string scheduledAt)]
  | .queue message id attempt requestId =>
    input revision .queue
      ([("message", message), ("id", .string id), ("attempt", .number attempt)] ++
        Json.given "requestId" requestId)
  | .service => input revision .service []
  | .command args => input revision .command [("args", .array args)]

def executeOpts (revision : BoundRevision) (envelope : Envelope) : Envelope :=
  envelope.insert "env" (envJson revision.env)

structure ResourceDeclaration where
  name : String
  kind : String
  methods : List String
  deriving DecidableEq, Repr

def ResourceDeclaration.handle (declaration : ResourceDeclaration) : List String :=
  if declaration.kind = "cache.local" then ["get", "set", "delete", "increment", "clear"]
  else if declaration.kind = "postgres" then ["query", "one", "execute", "transaction"]
  else if declaration.kind = "http.client" then ["fetch"]
  else declaration.methods

/-- The object `out` of `makeResources`: its own properties, and the handle that
became its prototype, if one did. -/
structure ResourceTable where
  own : FiniteMap String (Option ResourceDeclaration)
  prototype : Option ResourceDeclaration

/-- `out[name] = value`. An assignment to `__proto__` reaches the accessor of
`Object.prototype`: an object becomes the prototype, `undefined` is ignored. -/
def ResourceTable.assign (out : ResourceTable) (name : String) (value : Option ResourceDeclaration) :
    ResourceTable :=
  if name = "__proto__" then { out with prototype := value.or out.prototype }
  else { out with own := out.own.insert name value }

def includes (unconfigured : Option Json) (name : String) : Bool :=
  match unconfigured with
  | some (.array items) => items.any (fun item => item.text = some name)
  | _ => false

def place (unconfigured : Option Json) (out : ResourceTable) (declaration : ResourceDeclaration) :
    ResourceTable :=
  out.assign declaration.name
    (if includes unconfigured declaration.name then none else some declaration)

def makeResources (declarations : List ResourceDeclaration) (unconfigured : Option Json) :
    ResourceTable :=
  declarations.foldl (place unconfigured) ⟨∅, none⟩

inductive Seen where
  | undefined
  | handle (declaration : ResourceDeclaration)
  | inherited
  | refused
  deriving DecidableEq, Repr

def ResourceTable.get (out : ResourceTable) (name : String) : Seen :=
  if name = "__proto__" then
    match out.prototype with
    | some declaration => .handle declaration
    | none => .inherited
  else
    match out.own.lookup name with
    | some (some declaration) => .handle declaration
    | some none => .undefined
    | none =>
      if name ∈ Text.objectMethods ∨
          (out.prototype.any fun declaration => name ∈ declaration.handle) then .inherited
      else if name = "then" ∨ name = "toJSON" then .undefined
      else .refused

def workloadKinds : List WorkloadKind :=
  [.http, .task, .cron, .command, .service, .queue, .stream, .socket]

/-- `invoke`: what the context of the world has as its resources. A kind the
switch does not know ends in `unknown_input_kind`. -/
def invoke (declarations : List ResourceDeclaration) (envelope : Envelope) : Option ResourceTable := do
  let text ← (← envelope.lookup "kind").text
  let _ ← workloadKinds.find? (fun kind => kind.text = text)
  return makeResources declarations (envelope.lookup "unconfigured")

def sees (revision : BoundRevision) (declarations : List ResourceDeclaration)
    (invocation : Invocation) (name : String) : Option Seen :=
  (invoke declarations (executeOpts revision (invocation.envelope revision))).map
    (fun resources => resources.get name)

def isConnection : WorkloadKind → Bool
  | .stream | .socket => true
  | .http | .task | .cron | .queue | .service | .command => false

section

variable (revision : BoundRevision) {fields : List (String × Json)} {kind : WorkloadKind}

def BoundRevision.names : Option Json :=
  if revision.unconfigured.isEmpty then none
  else some (.array (revision.unconfigured.map .string))

theorem includes_names (name : String) :
    includes revision.names name = true ↔ name ∈ revision.unconfigured := by
  unfold BoundRevision.names
  split
  · rename_i empty
    rw [List.isEmpty_iff.mp empty]
    simp [includes]
  · simp [includes, Json.text]

theorem lookup_nameUnconfigured (envelope : Envelope) (key : String) :
    (nameUnconfigured revision envelope).lookup key =
      if key = "unconfigured" then revision.names.or (envelope.lookup key)
      else envelope.lookup key := by
  unfold nameUnconfigured BoundRevision.names
  split
  · simp
  · rw [FiniteMap.lookup_insert_eq]
    simp

theorem lookup_input (other : ∀ field ∈ fields, field.1 ≠ key) :
    (input revision kind fields).lookup key =
      (nameUnconfigured revision (opening revision kind)).lookup key :=
  FiniteMap.lookup_foldl_insert other

theorem opening_kind (kind : WorkloadKind) :
    (opening revision kind).lookup "kind" = some (.string kind.text) :=
  rfl

theorem opening_unconfigured (kind : WorkloadKind) :
    (opening revision kind).lookup "unconfigured" = none :=
  rfl

theorem input_members (other : ∀ field ∈ fields, field.1 ≠ "kind" ∧ field.1 ≠ "unconfigured") :
    (input revision kind fields).lookup "kind" = some (.string kind.text) ∧
      (input revision kind fields).lookup "unconfigured" = revision.names := by
  constructor
  · rw [lookup_input revision (fun field member => (other field member).1),
      lookup_nameUnconfigured, if_neg (by decide), opening_kind]
  · rw [lookup_input revision (fun field member => (other field member).2),
      lookup_nameUnconfigured, if_pos rfl, opening_unconfigured, Option.or_none]

theorem given_other :
    ∀ field ∈ Json.given "requestId" value, field.1 ≠ "kind" ∧ field.1 ≠ "unconfigured" := by
  intro field member
  cases value with
  | none => cases member
  | some =>
    rw [List.mem_singleton.mp member]
    simp

theorem envelope_members (invocation : Invocation) :
    (invocation.envelope revision).lookup "kind" = some (.string invocation.kind.text) ∧
      (invocation.envelope revision).lookup "unconfigured" =
        if isConnection invocation.kind then none else revision.names := by
  cases invocation with
  | http =>
    constructor
    · simp [Invocation.envelope, lookup_nameUnconfigured, opening_kind, Invocation.kind]
    · simp [Invocation.envelope, lookup_nameUnconfigured, opening_unconfigured, Invocation.kind,
        isConnection]
  | stream | socket => exact ⟨rfl, rfl⟩
  | task =>
    exact input_members revision (List.forall_mem_cons.mpr ⟨by simp, given_other⟩)
  | cron | service | command => exact input_members revision (by simp)
  | queue =>
    exact input_members revision (List.forall_mem_append.mpr ⟨by simp, given_other⟩)

theorem kind_known (kind : WorkloadKind) :
    (workloadKinds.find? (fun known => known.text = kind.text)).isSome = true := by
  cases kind <;> decide

theorem invoke_envelope (declarations : List ResourceDeclaration) (invocation : Invocation) :
    invoke declarations (executeOpts revision (invocation.envelope revision)) =
      some (makeResources declarations
        (if isConnection invocation.kind then none else revision.names)) := by
  obtain ⟨kind, names⟩ := envelope_members revision invocation
  have known := kind_known invocation.kind
  obtain ⟨_, search⟩ := Option.isSome_iff_exists.mp known
  simp [invoke, executeOpts, kind, names, Json.text, search]

end

section

def ResourceTable.Holds (unconfigured : Option Json) (name : String) (out : ResourceTable) : Prop :=
  ∃ value, out.own.lookup name = some value ∧ (value = none ↔ includes unconfigured name = true)

variable {unconfigured : Option Json} {name : String}

theorem place_holds (plain : name ≠ "__proto__")
    (holds : declaration.name = name ∨ out.Holds unconfigured name) :
    (place unconfigured out declaration).Holds unconfigured name := by
  unfold place ResourceTable.assign
  split
  · rename_i accessor
    refine holds.resolve_left (fun same => plain (same ▸ accessor))
  · by_cases same : declaration.name = name
    · subst same
      refine ⟨_, by rw [FiniteMap.lookup_insert_eq, if_pos rfl], ?_⟩
      split <;> simp_all
    · obtain ⟨value, found, meaning⟩ := holds.resolve_left same
      refine ⟨value, ?_, meaning⟩
      rw [FiniteMap.lookup_insert_eq, if_neg (Ne.symm same)]
      exact found

theorem foldl_holds (plain : name ≠ "__proto__") (declarations : List ResourceDeclaration)
    (out : ResourceTable)
    (holds : name ∈ declarations.map ResourceDeclaration.name ∨ out.Holds unconfigured name) :
    (declarations.foldl (place unconfigured) out).Holds unconfigured name := by
  induction declarations generalizing out with
  | nil => exact holds.resolve_left List.not_mem_nil
  | cons _ _ ih =>
    rw [List.map_cons, List.mem_cons, or_assoc] at holds
    refine ih _ ?_
    rcases holds with here | later | before
    · exact .inr (place_holds plain (.inl here.symm))
    · exact .inl later
    · exact .inr (place_holds plain (.inr before))

theorem get_undefined_iff (declared : name ∈ declarations.map ResourceDeclaration.name) :
    (makeResources declarations unconfigured).get name = .undefined ↔
      includes unconfigured name = true ∧ name ≠ "__proto__" := by
  by_cases accessor : name = "__proto__"
  · have never : (makeResources declarations unconfigured).get name ≠ .undefined := by
      unfold ResourceTable.get
      rw [if_pos accessor]
      split <;> nofun
    exact iff_of_false never (fun both => both.2 accessor)
  · obtain ⟨value, found, meaning⟩ := foldl_holds accessor declarations ⟨∅, none⟩ (.inl declared)
    rw [and_iff_left accessor, ← meaning]
    unfold ResourceTable.get makeResources
    rw [if_neg accessor, found]
    cases value with
    | none => exact iff_of_true rfl rfl
    | some => exact iff_of_false nofun nofun

end

section

variable {Config : Type} (process : Process Config)

theorem mem_unconfigured_iff (declared : Declared Config) (member : spec ∈ declared.specs) :
    spec.name ∈ process.unconfigured declared.specs ↔ process.need spec = .unconfigured := by
  unfold Process.unconfigured
  rw [List.mem_filterMap]
  constructor
  · rintro ⟨other, present, named⟩
    split at named
    · rename_i left
      have same : other = spec :=
        List.inj_on_of_nodup_map declared.distinct present member (Option.some.inj named)
      exact same ▸ left
    · cases named
    · cases named
  · intro left
    exact ⟨spec, member, by rw [left]⟩

/-- The handler of a workload that declares an optional resource sees it as
`undefined` exactly when `bind` left it unconfigured, except for a resource left
unconfigured that a stream or a socket declares or whose name is `__proto__`. -/
theorem optional_seen_undefined_iff (declared : Declared Config) (env : List (String × String))
    (declarations : List ResourceDeclaration) (invocation : Invocation)
    (spec : ResourceSpec Config) (member : spec ∈ declared.specs)
    (_optional : process.serde.optional spec.config = true)
    (listed : spec.name ∈ declarations.map ResourceDeclaration.name) :
    (sees (process.bind declared env) declarations invocation spec.name = some .undefined ↔
        process.need spec = .unconfigured) ↔
      (process.need spec = .unconfigured →
        isConnection invocation.kind = false ∧ spec.name ≠ "__proto__") := by
  have left := mem_unconfigured_iff process declared member
  have seen : sees (process.bind declared env) declarations invocation spec.name = some .undefined ↔
      (isConnection invocation.kind = false ∧ process.need spec = .unconfigured) ∧
        spec.name ≠ "__proto__" := by
    unfold sees
    rw [invoke_envelope, Option.map_some, Option.some.injEq, get_undefined_iff listed]
    refine and_congr_left' ?_
    cases isConnection invocation.kind with
    | true => simp [includes]
    | false =>
      rw [if_neg Bool.false_ne_true, includes_names]
      simpa [Process.bind] using left
  rw [seen]
  tauto

def collectorText : List Char :=
  "\x7b\"baseUrlEnv\":\"COLLECTOR_URL\",\"optional\":true\x7d".toList

def collectorObjects : Serde Unit where
  toVec _ := collectorText
  front text := if text.take collectorText.length = collectorText then
    some ((), text.drop collectorText.length) else none
  front_toVec _ _ := by simp
  optional _ := true
  postgres _ := none
  httpClient _ :=
    some ⟨none, some "COLLECTOR_URL", none, ⟨none, none, none, none, none, none⟩⟩

def lab : Process Unit where
  serde := collectorObjects
  digest _ := ""
  env _ := none
  providers kind := if kind = "http.client" then some 1 else none

def collector : ResourceSpec Unit := ⟨"collector", "http.client", (), ["COLLECTOR_URL"]⟩

def collectorOnly : Declared Unit := ⟨[collector], List.nodup_singleton _⟩

def collectorHandle : ResourceDeclaration := ⟨"collector", "http.client", ["fetch"]⟩

def eventsRequest : Json :=
  .object [("method", .string "GET"), ("path", .string "/events"), ("url", .string "/events"),
    ("params", .object []), ("query", .object []), ("headers", .object []), ("body", .null),
    ("validated", .array [])]

/-- A stream and a socket get a handle of a collector that the lab does not have,
where an HTTP request gets `undefined`. -/
theorem connection_sees_unconfigured_handle :
    lab.need collector = .unconfigured ∧
      sees (lab.bind collectorOnly []) [collectorHandle] (.http eventsRequest) "collector" =
        some .undefined ∧
      sees (lab.bind collectorOnly []) [collectorHandle] (.stream eventsRequest) "collector" =
        some (.handle collectorHandle) ∧
      sees (lab.bind collectorOnly []) [collectorHandle] (.socket eventsRequest) "collector" =
        some (.handle collectorHandle) :=
  ⟨rfl, rfl, rfl, rfl⟩

theorem optional_seen_undefined_iff_service :
    (sees (lab.bind collectorOnly []) [collectorHandle] .service "collector" = some .undefined ↔
        lab.need collector = .unconfigured) ↔
      (lab.need collector = .unconfigured →
        isConnection Invocation.service.kind = false ∧ collector.name ≠ "__proto__") :=
  optional_seen_undefined_iff lab collectorOnly [] [collectorHandle] .service collector
    (List.mem_singleton_self _) rfl (List.mem_singleton_self _)

end

end Usai.Resources
