import Usai.Manifest.Describe

/-! The application of the SDK (`declarations.ts`, `manifest.ts`, `runtime/sdk.ts`): how
`flatten` lists the workloads of the modules and of the application itself, and what
`describe` on the build side and `invoke` in the world make of that list. -/

namespace Usai.Manifest

structure Resource where
  name : String
  kind : String
  config : String
  env : String
  deriving DecidableEq, Repr

structure Auth where
  name : String
  entry : String
  deriving DecidableEq, Repr

structure Declared (Body : Type) where
  workload : Workload
  resources : List Resource
  auth : Option Auth
  body : Body
  deriving DecidableEq, Repr

-- A hole in a list of declarations is the type of what stands there.
abbrev Slot (Value : Type) := Except String Value

structure Module (Body : Type) where
  name : String
  workloads : List (Slot (Declared Body))
  resources : List (Slot Resource)

/-- Modules are told apart by identity, so they are listed by reference. -/
structure App (Body : Type) where
  name : String
  object : Nat → Module Body
  modules : List (Slot Nat)
  workloads : List (Slot (Declared Body))
  resources : List (Slot Resource)

structure Listed (Value : Type) where
  value : Value
  module : Option String
  deriving DecidableEq, Repr

structure Flattened (Body : Type) where
  workloads : List (Listed (Declared Body))
  resources : List (Listed Resource)
  modules : List Nat

variable {Body : Type}

def moduleText (name : String) : String := "module \"" ++ name ++ "\""

def owner (module : Option String) : String := (module.map moduleText).getD "the application"

def add (place : String) (module : Option String) (resources : List (Listed Resource))
    (resource : Resource) : Except String (List (Listed Resource)) :=
  match resources.find? (fun listed => listed.value.name = resource.name) with
  | none => .ok (resources ++ [⟨resource, module⟩])
  | some existing =>
    if existing.value.kind = resource.kind ∧ existing.value.config = resource.config ∧
        existing.value.env = resource.env then .ok resources
    else .error ("resource \"" ++ resource.name ++
      "\" is declared twice with different configuration (" ++ owner existing.module ++ " and " ++
      place ++ "). A resource is shared by name, so every declarer must configure it " ++
      "identically — a consumer cannot widen a module's pool without the module agreeing")

def check {Value : Type} (what place : String) (list : List (Slot Value)) :
    Except String (List Value) :=
  list.zipIdx.mapM (fun entry => entry.1.mapError (fun type =>
    place ++ ": " ++ what ++ "[" ++ toString entry.2 ++ "] is " ++ type ++
      " — is it declared after the `defineModule`/`defineApp` that lists it, " ++
      "or imported from a module that imports this one?"))

def App.list (app : App Body) (listed : List Nat) : Slot Nat → Except String (List Nat)
  | .error type => .error ("defineApp: modules contains " ++ type ++
      " — declared after use or a circular import?")
  | .ok reference =>
    let name := (app.object reference).name
    match listed.find? (fun other => (app.object other).name = name) with
    | none => .ok (listed ++ [reference])
    | some already =>
      if already = reference then .ok listed
      else .error ("two different modules are both called \"" ++ name ++ "\"; a module's name is " ++
        "what `usai inspect` and the OpenAPI tags attribute its workloads to, so it has to be " ++
        "unique in an application")

def declarations (place : String) (module : Option String) (owned : String)
    (workloads : List (Slot (Declared Body))) (resources : List (Slot Resource))
    (flat : Flattened Body) : Except String (Flattened Body) := do
  let workloads ← check "workloads" place workloads
  let resources ← check "resources" place resources
  let resources ← resources.foldlM (add owned module) flat.resources
  return { flat with
    workloads := flat.workloads ++ workloads.map (⟨·, module⟩), resources := resources }

def implied (resources : List (Listed Resource)) (listed : Listed (Declared Body)) :
    Except String (List (Listed Resource)) :=
  let name := "workload " ++ listed.value.workload.name
  listed.value.resources.foldlM (add (((truthy listed.module).map fun module =>
    name ++ " in " ++ moduleText module).getD name) none) resources

def addId (ids : List (String × String)) (listed : Listed (Declared Body)) :
    Except String (List (String × String)) :=
  let id := workloadId listed.value.workload
  match ids.lookup id with
  | none => .ok (ids ++ [(id, owner listed.module)])
  | some previous => .error ("duplicate workload id " ++ id ++ ": declared by " ++ previous ++
      " and by " ++ owner listed.module ++ ". A module is organisation, not a namespace — ids " ++
      "are global to the application, so rename one of them")

def flatten (app : App Body) : Except String (Flattened Body) := do
  let modules ← app.modules.foldlM app.list []
  let flat ← modules.foldlM (fun flat reference =>
    let module := app.object reference
    declarations (moduleText module.name) (some module.name) (moduleText module.name)
      module.workloads module.resources flat) ⟨[], [], modules⟩
  let flat ← declarations ("app \"" ++ app.name ++ "\"") none "the application" app.workloads
    app.resources flat
  let resources ← flat.workloads.foldlM implied flat.resources
  let _ ← flat.workloads.foldlM addId []
  return { flat with resources := resources }

structure ManifestWorkload (Contracts : Type) where
  run : Json
  contracts : Contracts
  resources : List String
  auth : Option String

section

-- `contracts` is what the schema provider writes of a workload's contracts
variable {Contracts : Type} (stringify : Stringify) (contracts : Body → Contracts)

def addAuth (schemes : List (Auth × String)) (listed : Listed (Declared Body)) :
    Except String (List (Auth × String)) :=
  match listed.value.auth with
  | none => .ok schemes
  | some auth =>
    match schemes.find? (fun scheme => scheme.1.name = auth.name) with
    | none => .ok (schemes ++ [(auth, owner listed.module)])
    | some existing =>
      if existing.1.entry = auth.entry then .ok schemes
      else .error ("auth scheme \"" ++ auth.name ++
        "\" is declared twice with different configuration (" ++ existing.2 ++ " and " ++
        owner listed.module ++ "); the name is the OpenAPI security scheme, so it has to mean " ++
        "one thing in an application")

def describeWorkloads (schemes : List (Auth × String)) :
    List (Listed (Declared Body)) → Except String (List (ManifestWorkload Contracts))
  | [] => .ok []
  | listed :: rest => do
    let schemes ← addAuth schemes listed
    let run ← describe stringify listed.value.workload
    let entries ← describeWorkloads schemes rest
    return ⟨run, contracts listed.value.body, listed.value.resources.map Resource.name,
      listed.value.auth.map Auth.name⟩ :: entries

def describeApp (app : App Body) : Except String (List (ManifestWorkload Contracts)) := do
  let flat ← flatten app
  describeWorkloads stringify contracts [] flat.workloads

end

def App.dispatch (app : App Body) (index : Nat) : Except String (Listed (Declared Body)) := do
  let flat ← flatten app
  match flat.workloads[index]? with
  | some entry => .ok entry
  | none => .error ("no workload at index " ++ toString index)

end Usai.Manifest
