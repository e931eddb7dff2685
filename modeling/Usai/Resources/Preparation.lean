import Usai.Environment.Activate
import Usai.Resources.Registry
import Usai.Revisions.Revision

/-! What `prepare`, `verify_revision` and `activate` write to a revision. `bind` publishes the
resolved environment as soon as it is complete, and the resources and the names it left out
only after the last of them was opened. -/

namespace Usai.Resources

open Revisions (RevisionState)

structure Host (Config Manager : Type) where
  process : Process Config
  library : Environment.Library
  manager : ResourceSpec Config → ResourceIdentity → Except String Manager

structure Prepared (Config Manager : Type) where
  requirements : List Environment.EnvRequirement
  specs : List (ResourceSpec Config)
  state : RevisionState
  env : FiniteMap String (List Char)
  resources : List (String × Manager)
  unconfigured : List String

inductive PrepareError where
  | unknownRevision (id : Nat)
  | alreadyActive (id : Nat)
  | environment (error : Environment.BindError)
  | resource (message : String)
  deriving DecidableEq, Repr

def PrepareError.ofBind : PrepareError → Bool
  | .environment _ | .resource _ => true
  | .unknownRevision _ | .alreadyActive _ => false

structure Deployment (Config Manager : Type) where
  revisions : FiniteMap Nat (Prepared Config Manager)
  active : Option Nat

namespace Host

variable {Config Manager : Type} (host : Host Config Manager)

def openAll : List (ResourceSpec Config) → List (String × Manager) → List String →
    Except PrepareError (List (String × Manager) × List String)
  | [], bound, unconfigured => .ok (bound, unconfigured)
  | spec :: rest, bound, unconfigured =>
    match host.process.need spec with
    | .unconfigured => openAll rest bound (unconfigured ++ [spec.name])
    | .unknownKind => .error (.resource (spec.name ++ " (kind " ++ spec.kind ++ ")"))
    | .manager identity =>
      match host.manager spec identity with
      | .error message => .error (.resource message)
      | .ok manager => openAll rest (bound ++ [(spec.name, manager)]) unconfigured

def resolve (revision : Prepared Config Manager) :
    Except Environment.BindError (FiniteMap String (List Char)) :=
  Environment.bind host.library (fun name => (host.process.env name).map String.toList)
    revision.requirements

def bind (revision : Prepared Config Manager) :
    Prepared Config Manager × Except PrepareError Unit :=
  match host.resolve revision with
  | .error error => (revision, .error (.environment error))
  | .ok env =>
    let published := { revision with env }
    match host.openAll revision.specs [] [] with
    | .error error => (published, .error error)
    | .ok (resources, unconfigured) => ({ published with resources, unconfigured }, .ok ())

def prepare (deployment : Deployment Config Manager) (id : Nat) :
    Deployment Config Manager × Except PrepareError Unit :=
  match deployment.revisions.lookup id with
  | none => (deployment, .error (.unknownRevision id))
  | some revision =>
    ({ deployment with revisions := deployment.revisions.insert id (host.bind revision).1 },
      (host.bind revision).2)

def activate (deployment : Deployment Config Manager) (id : Nat) :
    Deployment Config Manager × Except PrepareError Unit :=
  match deployment.revisions.lookup id with
  | some { state := .active, .. } => (deployment, .error (.alreadyActive id))
  | _ =>
    match host.prepare deployment id with
    | (prepared, .error error) => (prepared, .error error)
    | (prepared, .ok ()) =>
      ({ active := some id
         revisions := prepared.revisions.modify id fun revision =>
           { revision with state := .active } }, .ok ())

def call (activates : Bool) (deployment : Deployment Config Manager) (id : Nat) :
    Deployment Config Manager × Except PrepareError Unit :=
  if activates then host.activate deployment id else host.prepare deployment id

def Unmoved (revision : Prepared Config Manager) : Prop :=
  ∀ env, host.resolve revision = .ok env → env = revision.env

variable {host} {deployment after : Deployment Config Manager} {id : Nat}
  {revision : Prepared Config Manager} {error : PrepareError}

theorem bind_error_iff (failed : (host.bind revision).2 = .error error) :
    (host.bind revision).1 = revision ↔ host.Unmoved revision := by
  unfold bind Unmoved at *
  cases resolved : host.resolve revision with
  | error => simp
  | ok env =>
    simp only [resolved] at failed ⊢
    cases opened : host.openAll revision.specs [] [] with
    | ok =>
      rw [opened] at failed
      cases failed
    | error =>
      simp only [Except.ok.injEq, forall_eq']
      constructor
      · intro same
        exact congrArg Prepared.env same
      · intro same
        rw [same]

theorem call_error {activates : Bool}
    (failed : host.call activates deployment id = (after, .error error))
    (ofBind : error.ofBind = true) : host.prepare deployment id = (after, .error error) := by
  cases activates with
  | false => exact failed
  | true =>
    simp only [call, if_true, activate] at failed
    split at failed
    · cases failed
      cases ofBind
    · split at failed <;> cases failed
      rename_i prepared problem same
      exact same

/-- A failed preparation leaves everything as it was exactly if the environment was refused or
is the one that the revision had. -/
theorem failed_preparation_iff {activates : Bool}
    (failed : host.call activates deployment id = (after, .error error))
    (ofBind : error.ofBind = true) :
    after.active = deployment.active ∧
      ((∀ other, after.revisions.lookup other = deployment.revisions.lookup other) ↔
        ∀ revision ∈ deployment.revisions.lookup id, host.Unmoved revision) := by
  have prepared := call_error failed ofBind
  cases found : deployment.revisions.lookup id with
  | none =>
    simp only [prepare, found] at prepared
    cases prepared
    cases ofBind
  | some =>
    simp only [prepare, found] at prepared
    obtain ⟨rfl, result⟩ := Prod.mk.inj prepared
    simp only [Option.mem_def, Option.some.injEq, forall_eq', ← bind_error_iff result,
      FiniteMap.lookup_insert_eq, true_and]
    constructor
    · intro same
      have here := same id
      rw [if_pos rfl, found] at here
      exact Option.some.inj here
    · intro same other
      split
      · rename_i here
        rw [here, found, same]
      · rfl

end Host

def unreachable (env : Env) : Host Unit Unit where
  process := ⟨emptyObjects, fun _ => "", env, fun _ => some 1⟩
  library := ⟨fun _ => "", fun _ => .error ""⟩
  manager _ _ := .error "connection refused"

def installedOnly : Deployment Unit Unit where
  revisions := (∅ : FiniteMap Nat (Prepared Unit Unit)).insert 1
    ⟨[⟨"DATABASE_URL", .url, true, [], none, none, none⟩], [mainDatabase], .installed, ∅, [], []⟩
  active := none

theorem failed_preparation_iff_unset : ∃ after,
    (unreachable fun _ => none).call true installedOnly 1 =
        (after, .error (.environment (.missingEnv "DATABASE_URL"))) ∧
      ∀ other, after.revisions.lookup other = installedOnly.revisions.lookup other := by
  have failed : (unreachable fun _ => none).call true installedOnly 1 =
      (_, .error (.environment (.missingEnv "DATABASE_URL"))) := rfl
  refine ⟨_, failed, (Host.failed_preparation_iff failed rfl).2.mpr ?_⟩
  rintro _ ⟨⟩ _ ⟨⟩

/-- The database does not open, and the revision has an environment that it had not. -/
theorem failed_preparation_publishes_env :
    ((unreachable (deployment none)).call true installedOnly 1).2 =
        .error (.resource "connection refused") ∧
      (installedOnly.revisions.lookup 1).map (fun revision => revision.env.keys) = some [] ∧
      (((unreachable (deployment none)).call true installedOnly 1).1.revisions.lookup 1).map
        (fun revision => revision.env.keys) = some ["DATABASE_URL"] := by
  decide +kernel

end Usai.Resources
