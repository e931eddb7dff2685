import Usai.Build.Definition
import Usai.Environment.Activate
import Usai.Http.Routing
import Usai.Resources.Registry
import Usai.Revisions.Calls

/-! Whether a revision that was installed and activated can serve HTTP: what
`ApplicationDefinition::new`, `install` and `activate` check of a definition, and
what the host compiles of it on its first request. -/

namespace Usai.Http

open Build (ApplicationDefinition Code)
open Environment (EnvRequirement)
open Resources (ResourceSpec)
open Revisions (RevisionId RevisionState RuntimeError)

section

structure DeclaredWorkload (Schema : Type) where
  id : String
  name : String
  trigger : Manifest.Trigger
  contracts : Contracts Schema
  auth : Option String
  resources : List String
  maxBodyBytes : Option Nat
  deriving DecidableEq, Repr

structure DeclaredManifest (Config Schema : Type) where
  manifestVersion : Nat
  name : String
  workloads : List (DeclaredWorkload Schema)
  resources : List (ResourceSpec Config)
  auth : List String
  env : List EnvRequirement
  codeSha256 : String
  builtWith : Option Build.BuiltWith

def triggerKind : Manifest.Trigger → Build.Trigger
  | .http _ _ _ _ => .http
  | .task => .task
  | .cron _ _ _ _ _ => .cron
  | .command => .command
  | .service _ _ _ _ => .service
  | .queue _ _ _ _ => .queue
  | .socket _ => .socket
  | .stream _ _ _ => .stream

variable {Config Schema : Type} (manifest : DeclaredManifest Config Schema)

def DeclaredWorkload.checked (workload : DeclaredWorkload Schema) : Build.WorkloadSpec :=
  ⟨workload.id, workload.name, triggerKind workload.trigger, workload.auth, workload.resources,
    workload.maxBodyBytes⟩

def DeclaredManifest.checked : Build.Manifest Unit where
  manifestVersion := manifest.manifestVersion
  modules := []
  workloads := manifest.workloads.map DeclaredWorkload.checked
  resources := manifest.resources.map ResourceSpec.name
  auth := manifest.auth
  codeSha256 := manifest.codeSha256
  builtWith := manifest.builtWith
  other := ()

def DeclaredManifest.routed : List (RoutedWorkload Schema) :=
  manifest.workloads.map (fun workload => ⟨workload.id, workload.trigger, workload.contracts⟩)

end

section

/-- The process that a definition is installed in. `compile` is the engine's
answer, `schedule` whether the cron library reads a schedule, `opens` what the
provider says when it opens a resource. -/
structure Platform (Config Schema : Type) where
  maxRevisions : Nat
  compile : DeclaredManifest Config Schema → Except String Unit
  schedule : String → Bool
  library : Environment.Library
  resources : Resources.Process Config
  opens : ResourceSpec Config → Except String Unit

variable {Config Schema : Type} (platform : Platform Config Schema)
  (manifest : DeclaredManifest Config Schema)

def claimsThrough (resources : List (ResourceSpec Config)) (database : Option String) : Bool :=
  resources.any (fun spec => spec.kind = "postgres" ∧ ∀ name ∈ database, spec.name = name)

def validSchedule (resources : List (ResourceSpec Config)) : Manifest.Trigger → Bool
  | .cron schedule _ _ exclusive database =>
    platform.schedule schedule && (!exclusive || claimsThrough resources database)
  | .http _ _ _ _ | .task | .command | .service _ _ _ _ | .queue _ _ _ _ | .socket _
  | .stream _ _ _ => true

def install (held : Nat) : Except RuntimeError Unit := do
  if platform.maxRevisions ≤ held then throw (.tooManyRevisions held platform.maxRevisions)
  (platform.compile manifest).mapError .engine
  if !manifest.workloads.all (fun workload =>
      validSchedule platform manifest.resources workload.trigger) then
    throw .invalidDefinition

def openResource (spec : ResourceSpec Config) : Except RuntimeError Unit :=
  match platform.resources.need spec with
  | .unconfigured => .ok ()
  | .unknownKind => .error (.resource (spec.name ++ " (kind " ++ spec.kind ++ ")"))
  | .manager _ => (platform.opens spec).mapError .resource

def bindEnv : Except RuntimeError (FiniteMap String (List Char)) :=
  (Environment.bind platform.library (fun name => (platform.resources.env name).map String.toList)
    manifest.env).mapError (fun
      | .missingEnv names => .missingEnv names
      | .invalidEnv problems => .invalidEnv problems)

/-- `Runtime::activate` on a revision in this state, up to the swap of the active
revision; what follows cannot fail. -/
def activate (id : RevisionId) (state : RevisionState) : Except RuntimeError Unit := do
  if state = .active then throw (.notActive id .active "already active")
  let _ ← bindEnv platform manifest
  manifest.resources.forM (openResource platform)

end

section

variable {Config Schema : Type} (matchit : Matchit) (refuses : Schema → Option String)
  (manifest : DeclaredManifest Config Schema)

def activeOf (id : String) (definition : Definition) (headers : List (String × String))
    (answer : Route → Request → Except Reply Response) : Active :=
  match build matchit refuses manifest.routed with
  | .ok routers =>
    .serving (compiledFrom matchit manifest.routed routers id definition headers answer)
  | .error _ => .broken id

def invalidDefinition : Reply :=
  .error 500 "invalid_definition" "the active revision cannot serve HTTP"

/-- The table of the revision can be built, and no host whose active revision it
is answers `invalid_definition`. -/
def CanServe : Prop :=
  (∃ routers, build matchit refuses manifest.routed = .ok routers) ∧
    ∀ id definition headers answer (host : HttpHost),
      host.active = activeOf matchit refuses manifest id definition headers answer →
        host.compiled ≠ .error invalidDefinition

variable {matchit refuses manifest}

/-- A revision can serve HTTP exactly when its schemas are ones that the schema library
takes and its paths ones that the route matcher takes side by side. Neither is looked at
before the first request, so that installation and activation do not help. -/
theorem activated_can_serve_iff : CanServe matchit refuses manifest ↔
    SchemasFit refuses manifest.routed ∧ PathsFit matchit manifest.routed := by
  constructor
  · rintro ⟨⟨_, built⟩, -⟩
    exact (build_ok_iff.mp built).1
  · intro fits
    have built := build_ok_iff.mpr ⟨fits, rfl⟩
    refine ⟨⟨_, built⟩, ?_⟩
    intro id definition headers answer host active failed
    unfold activeOf at active
    rw [built] at active
    unfold HttpHost.compiled at failed
    rw [active] at failed
    cases failed

def usersManifest (paths : List (String × String)) : DeclaredManifest Unit Unit where
  manifestVersion := 1
  name := "app"
  workloads := paths.map (fun path =>
    ⟨"http:" ++ path.1 ++ " " ++ path.2, path.1 ++ " " ++ path.2, .http path.1 path.2 false [],
      ⟨none, none, none, none⟩, none, [], none⟩)
  resources := []
  auth := []
  env := []
  codeSha256 := ""
  builtWith := none

def usersCode : Code := ⟨"", ""⟩

def lenient : Platform Unit Unit where
  maxRevisions := 8
  compile _ := .ok ()
  schedule _ := true
  library := ⟨String.ofList, fun _ => .error ""⟩
  resources := ⟨Resources.emptyObjects, fun _ => "", fun _ => none, fun _ => none⟩
  opens _ := .ok ()

def clashing : DeclaredManifest Unit Unit :=
  usersManifest [("GET", "/users/:id"), ("DELETE", "/users/:name")]

/-- Two methods of one path that name its parameter differently: the definition is
accepted, installed and activated, and every request is answered 500. -/
theorem activated_answers_invalid_definition :
    (∃ definition : ApplicationDefinition Unit Unit,
        ApplicationDefinition.new clashing.checked usersCode = .ok definition) ∧
      install lenient clashing 0 = .ok () ∧ activate lenient clashing ⟨1⟩ .installed = .ok () ∧
      build segmentMatcher (fun _ => none) clashing.routed = .error (.path
        "http:DELETE /users/:name" "/users/\x7bname\x7d"
        "insertion failed due to conflict with previously registered route: /users/\x7bname\x7d") ∧
      ∀ request, (hostOf (activeOf segmentMatcher (fun _ => none) clashing "rev-1"
          ⟨"app", none, "app@1", fun _ => ""⟩ [] (fun _ _ => .ok ⟨200, [], .bytes []⟩))).pipeline id
            publicListener request = .error invalidDefinition := by
  have refused : build segmentMatcher (fun _ => none) clashing.routed = .error (.path
      "http:DELETE /users/:name" "/users/\x7bname\x7d"
      "insertion failed due to conflict with previously registered route: /users/\x7bname\x7d") := by
    decide +kernel
  refine ⟨⟨_, rfl⟩, by decide +kernel, by decide +kernel, refused, ?_⟩
  intro request
  rfl

end

end Usai.Http
