import Usai.FiniteMap

/-! The definition of an application (`definition.rs`): a manifest together with
the code it describes, checked against each other. -/

namespace Usai.Build

abbrev Bytes := List UInt8

inductive Trigger where
  | http
  | task
  | cron
  | command
  | service
  | queue
  | socket
  | stream
  deriving DecidableEq, Repr

structure WorkloadSpec where
  id : String
  name : String
  trigger : Trigger
  auth : Option String
  resources : List String
  maxBodyBytes : Option Nat
  deriving DecidableEq, Repr

structure ModuleSpec where
  name : String
  migrations : List String
  sourceDir : Option String
  deriving DecidableEq, Repr

structure BuiltWith where
  sdk : Option String
  runtime : Option String
  abi : Option Nat
  deriving DecidableEq, Repr

/-- `auth` and `resources` are the names of the declarations; `other` is the rest
of the manifest. -/
structure Manifest (Value : Type) where
  manifestVersion : Nat
  modules : List ModuleSpec
  workloads : List WorkloadSpec
  resources : List String
  auth : List String
  codeSha256 : String
  builtWith : Option BuiltWith
  other : Value
  deriving DecidableEq, Repr

structure Code where
  source : String
  sha256 : String
  deriving DecidableEq, Repr

def Code.new (digest : Bytes → String) (source : String) : Code :=
  ⟨source, digest source.toUTF8.toList⟩

def manifestVersion : Nat := 1

def guestAbi : Nat := 1

def runtimeVersion : String := "0.1.0"

inductive DefinitionError where
  | unsupportedVersion (found : Nat) (sdk runtime : String)
  | unsupportedAbi (found : Nat) (sdk : String)
  | codeMismatch (expected found : String)
  | duplicateWorkload (id : String)
  | duplicateResource (name : String)
  | unknownAuth (workload auth : String)
  | unknownResource (workload resource : String)
  | emptyName (id : String)
  | bodyBoundWithoutABody (id : String)
  deriving DecidableEq, Repr

structure Precompiled where
  engine : String
  fingerprint : String
  bytes : Bytes
  deriving DecidableEq, Repr

/-- `precompiled` and `sourceMap` are attached later and are not part of what the
application is. -/
structure ApplicationDefinition (Value Map : Type) where
  manifest : Manifest Value
  code : Code
  index : FiniteMap String Nat
  precompiled : Option Precompiled
  sourceMap : Option Map

section

variable {Value Map : Type} (manifest : Manifest Value)

def checkWorkload (index : FiniteMap String Nat) (workload : WorkloadSpec) (ordinal : Nat) :
    Except DefinitionError (FiniteMap String Nat) := do
  if workload.name = "" then throw (.emptyName workload.id)
  if (index.lookup workload.id).isSome then throw (.duplicateWorkload workload.id)
  if workload.maxBodyBytes.isSome ∧ workload.trigger ≠ .http then
    throw (.bodyBoundWithoutABody workload.id)
  match workload.auth.filter (fun auth => auth ∉ manifest.auth) with
  | some auth => throw (.unknownAuth workload.id auth)
  | none => pure ()
  match workload.resources.find? (fun resource => resource ∉ manifest.resources) with
  | some resource => throw (.unknownResource workload.id resource)
  | none => pure (index.insert workload.id ordinal)

def firstRepeated : List String → List String → Option String
  | _, [] => none
  | seen, name :: names => if name ∈ seen then some name else firstRepeated (name :: seen) names

def ApplicationDefinition.new (code : Code) :
    Except DefinitionError (ApplicationDefinition Value Map) := do
  let built := manifest.builtWith.getD ⟨none, none, none⟩
  if manifest.manifestVersion ≠ manifestVersion then
    throw (.unsupportedVersion manifest.manifestVersion (built.sdk.getD "unknown")
      (built.runtime.getD "unknown"))
  -- an artifact without a stamp speaks the first ABI
  let abi := built.abi.getD 1
  if abi ≠ guestAbi then throw (.unsupportedAbi abi (built.sdk.getD "unknown"))
  if manifest.codeSha256 ≠ code.sha256 then
    throw (.codeMismatch manifest.codeSha256 code.sha256)
  let index ← manifest.workloads.zipIdx.foldlM
    (fun index entry => checkWorkload manifest index entry.1 entry.2) ∅
  match firstRepeated [] manifest.resources with
  | some name => throw (.duplicateResource name)
  | none => pure ⟨manifest, code, index, none, none⟩

end

end Usai.Build
