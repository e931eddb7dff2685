import Usai.Build.Artifact

/-! What a build that fails leaves of the artifact that was in its output
directory. -/

namespace Usai.Build

open Builder Fallible Function

open Fallible (Ensures)
open Migrations (MigrationFile)

variable {Value Map : Type}

section

def File.published : File → Bool
  | .code | .manifest | .signature | .migration _ => true
  | .map | .image | .imageMeta | .inputs => false

def Unchanged (before after : Dir) : Prop :=
  ∀ file, file.published = true → after file = before file

def ApplicationDefinition.plain (definition : ApplicationDefinition Value Map) :
    ApplicationDefinition Value Map :=
  { definition with precompiled := none, sourceMap := none }

/-- A build that returns an error leaves the artifact, and `load_artifact` gives
the definition it gave before. -/
def Builder.Atomic (build : Builder Value Map) (dir : Dir) : Prop :=
  ∀ error after, build.buildLocked.run.run dir = (.error error, after) →
    Unchanged dir after ∧
      ∀ usePrecompiled, (loadArtifact build.libraries usePrecompiled after).map
        ApplicationDefinition.plain =
          (loadArtifact build.libraries usePrecompiled dir).map ApplicationDefinition.plain

inductive Late where
  | map
  | manifest
  | image
  | migrations
  | definition
  deriving DecidableEq, Repr

def Disk.succeeds (disk : Disk) (operation : Operation) : Bool := (disk.fails operation).isNone

variable (build : Builder Value Map) (staged : Staged Value)

def Builder.mapFails : Bool := staged.map.isSome && !build.disk.succeeds (.rename .map)

def Builder.imageFails : Bool :=
  (build.engine.precompile staged.code).isSome &&
    !(build.disk.succeeds (.createDir .cache) && build.disk.succeeds (.write .image) &&
      build.disk.succeeds (.write .imageMeta))

def Builder.copies (file : MigrationFile) : Bool := build.disk.succeeds (.write (.migration file.name))

def Builder.migrationsFail : Bool :=
  match build.migrations staged with
  | .error _ => true
  | .ok files => !files.isEmpty &&
      !(build.disk.succeeds (.createDir .migrations) && files.all build.copies)

def Builder.refused (_ : Builder Value Map) : Bool :=
  match (ApplicationDefinition.new staged.manifest staged.code :
    Except DefinitionError (ApplicationDefinition Value Map)) with
  | .error _ => true
  | .ok _ => false

def Builder.late : Option Late :=
  if build.mapFails staged then some .map
  else if !build.disk.succeeds (.write .manifest) then some .manifest
  else if build.imageFails staged then some .image
  else if build.migrationsFail staged then some .migrations
  else if build.refused staged then some .definition
  else none

def Builder.copied (name : String) : List MigrationFile → Option Bytes → Option Bytes
  | [], was => was
  | file :: files, was =>
    if build.copies file then
      Builder.copied name files
        (if file.name = name then some (build.project.contents file.path) else was)
    else if file.name = name then build.disk.cut (.migration name)
    else was

def Builder.remaining (name : String) (was : Option Bytes) : Option Bytes :=
  let kept := if build.disk.keeps (.migration name) then was else none
  match build.migrations staged with
  | .error _ => kept
  | .ok files =>
    if !files.isEmpty && build.disk.succeeds (.createDir .migrations) then
      build.copied name files kept
    else kept

def Builder.Republishes (dir : Dir) : Late → Prop
  | .map => dir .code = some staged.bytes
  | .manifest => dir .code = some staged.bytes ∧ dir .manifest = build.disk.cut .manifest
  | .image =>
    dir .code = some staged.bytes ∧
      dir .manifest = some (build.libraries.toVecPretty staged.manifest) ∧
      (build.disk.keeps .signature = false → dir .signature = none)
  | .migrations | .definition =>
    dir .code = some staged.bytes ∧
      dir .manifest = some (build.libraries.toVecPretty staged.manifest) ∧
      (build.disk.keeps .signature = false → dir .signature = none) ∧
      ∀ name, dir (.migration name) = build.remaining staged name (dir (.migration name))

end

section

variable {disk : Disk} {file : File} {bytes : Bytes} {dir : Dir} {returned : Unit → Dir → Prop}
  {spared : Dir → Prop}

@[simp] theorem ensures_createDirAll {folder : Folder} :
    Ensures (createDirAll disk folder) returned (fun _ => spared) dir ↔
      if disk.succeeds (.createDir folder) then returned () dir else spared dir := by
  unfold createDirAll Disk.succeeds
  cases disk.fails (.createDir folder) <;> simp

@[simp] theorem ensures_rename :
    Ensures (rename disk file bytes) returned (fun _ => spared) dir ↔
      if disk.succeeds (.rename file) then returned () (update dir file (some bytes))
      else spared dir := by
  unfold rename Disk.succeeds
  cases disk.fails (.rename file) <;> simp

@[simp] theorem ensures_write :
    Ensures (write disk file bytes) returned (fun _ => spared) dir ↔
      if disk.succeeds (.write file) then returned () (update dir file (some bytes))
      else spared (update dir file (disk.cut file)) := by
  unfold write Disk.succeeds
  cases disk.fails (.write file) <;> simp

variable {failed : BuildError → Dir → Prop}

@[simp] theorem ensures_tryWrite :
    Ensures (tryWrite disk file bytes) returned failed dir ↔
      returned () (update dir file
        (if disk.succeeds (.write file) then some bytes else disk.cut file)) := by
  unfold tryWrite Disk.succeeds
  cases disk.fails (.write file) <;> simp

@[simp] theorem ensures_tryRemove :
    Ensures (tryRemove disk file) returned failed dir ↔
      returned () (update dir file (if disk.keeps file then dir file else none)) := by
  unfold tryRemove
  cases disk.keeps file <;> simp

@[simp] theorem ensures_lift {Result : Type} {result : Except BuildError Result}
    {returned : Result → Dir → Prop} :
    Ensures (lift result) returned failed dir ↔
      match result with
      | .ok value => returned value dir
      | .error error => failed error dir := by
  cases result <;> rfl

end

theorem loadArtifact_plain (libraries : Libraries Value Map) (usePrecompiled : Bool) (dir : Dir) :
    (loadArtifact libraries usePrecompiled dir).map ApplicationDefinition.plain =
      (readDefinition libraries dir).map ApplicationDefinition.plain := by
  unfold loadArtifact
  cases readDefinition libraries dir <;> rfl

theorem atomic_iff_ensures (build : Builder Value Map) (dir : Dir) :
    build.Atomic dir ↔
      Ensures build.buildLocked (fun _ _ => True) (fun _ => Unchanged dir) dir := by
  unfold Builder.Atomic Ensures
  constructor
  · intro atomic
    cases same : build.buildLocked.run.run dir with
    | mk result after =>
      cases result with
      | ok => trivial
      | error error => exact (atomic error after same).1
  · intro ensures error after same
    rw [same] at ensures
    refine ⟨ensures, fun usePrecompiled => ?_⟩
    rw [loadArtifact_plain, loadArtifact_plain]
    unfold readDefinition
    rw [ensures .manifest rfl, ensures .code rfl]

section

variable (build : Builder Value Map) (staged : Staged Value) {start dir : Dir}

theorem unchanged_iff : Unchanged start dir ↔
    start .code = dir .code ∧ start .manifest = dir .manifest ∧ start .signature = dir .signature ∧
      ∀ name, start (.migration name) = dir (.migration name) := by
  constructor
  · intro unchanged
    exact ⟨(unchanged .code rfl).symm, (unchanged .manifest rfl).symm, (unchanged .signature rfl).symm,
      fun name => (unchanged (.migration name) rfl).symm⟩
  · rintro ⟨code, manifest, signature, migrations⟩ file published
    cases file with
    | code => exact code.symm
    | manifest => exact manifest.symm
    | signature => exact signature.symm
    | migration name => exact (migrations name).symm
    | _ => cases published

def Builder.copiedInto (files : List MigrationFile) : Dir → Dir :=
  onMigrations (fun name => build.copied name files)

theorem copiedInto_nil (dir : Dir) : build.copiedInto [] dir = dir := by
  funext file
  cases file <;> rfl

theorem copiedInto_cons (file : MigrationFile) (files : List MigrationFile) (dir : Dir) :
    build.copiedInto (file :: files) dir =
      if build.copies file then
        build.copiedInto files
          (update dir (.migration file.name) (some (build.project.contents file.path)))
      else update dir (.migration file.name) (build.disk.cut (.migration file.name)) := by
  funext other
  cases other with
  | migration name =>
    simp only [copiedInto, onMigrations, copied]
    by_cases same : file.name = name
    · subst same
      cases build.copies file <;> simp [onMigrations]
    · have differs : File.migration name ≠ .migration file.name := by
        intro equal
        exact same (File.migration.inj equal).symm
      cases build.copies file <;> simp [onMigrations, same, update_of_ne differs]
  | _ => cases build.copies file <;> simp [copiedInto, onMigrations]

variable {done spared : Dir → Prop}

theorem ensures_copyFiles (files : List MigrationFile) (dir : Dir) :
    Ensures (build.copyFiles files) (fun _ => done) (fun _ => spared) dir ↔
      if files.all build.copies then done (build.copiedInto files dir)
      else spared (build.copiedInto files dir) := by
  induction files generalizing dir with
  | nil => simp [copyFiles, copiedInto_nil]
  | cons file _ ih =>
    rw [copyFiles, ensures_bind, copiedInto_cons]
    have here : build.disk.succeeds (.write (.migration file.name)) = build.copies file := rfl
    simp only [ensures_write, here, ih, List.all_cons]
    by_cases copies : build.copies file = true <;> simp [copies]

def Builder.replaced : Dir → Dir := onMigrations (build.remaining staged)

theorem ensures_publishMigrations (dir : Dir) :
    Ensures (build.publishMigrations staged) (fun _ => done) (fun _ => spared) dir ↔
      if build.migrationsFail staged then spared (build.replaced staged dir)
      else done (build.replaced staged dir) := by
  let cleared := onMigrations
    (fun name was => if build.disk.keeps (.migration name) then was else none) dir
  unfold publishMigrations tryRemoveMigrations
  simp only [ensures_bind, ensures_modify, ensures_lift]
  cases found : build.migrations staged with
  | error =>
    have same : build.replaced staged dir = cleared := by
      funext file
      cases file <;> simp [replaced, remaining, onMigrations, cleared, found]
    simp [migrationsFail, found, same, cleared]
  | ok files =>
    simp only [migrationsFail, found]
    by_cases copying : (!files.isEmpty && build.disk.succeeds (.createDir .migrations)) = true
    · have same : build.replaced staged dir = build.copiedInto files cleared := by
        funext file
        cases file <;>
          simp [replaced, remaining, copiedInto, onMigrations, cleared, found, copying]
      simp only [Bool.and_eq_true, Bool.not_eq_true'] at copying
      simp only [copying, Bool.false_eq_true, if_false, if_true, ensures_bind,
        ensures_createDirAll, ensures_copyFiles, ensures_pure, same]
      cases files.all build.copies <;> simp [cleared]
    · have same : build.replaced staged dir = cleared := by
        funext file
        cases file <;>
          simp [replaced, remaining, onMigrations, cleared, found, copying]
      rw [same]
      cases empty : files.isEmpty with
      | true => simp [cleared]
      | false =>
        simp only [empty, Bool.not_false, Bool.true_and, Bool.not_eq_true] at copying
        simp [copying, cleared]

theorem ensures_publishMap (dir : Dir) :
    Ensures (build.publishMap staged) (fun _ => done) (fun _ => spared) dir ↔
      if build.mapFails staged then spared dir
      else done (update dir .map
        (staged.map.or (if build.disk.keeps .map then dir .map else none))) := by
  unfold publishMap mapFails
  cases staged.map with
  | none => simp
  | some map => cases published : build.disk.succeeds (.rename .map) <;> simp [published]

theorem ensures_publishImage (dir : Dir) (done_update : ∀ file value dir, file.published = false →
      (done (update dir file value) ↔ done dir))
    (spared_update : ∀ file value dir, file.published = false →
      (spared (update dir file value) ↔ spared dir)) :
    Ensures (build.publishImage staged) (fun _ => done) (fun _ => spared) dir ↔
      if build.imageFails staged then spared dir else done dir := by
  have image : File.image.published = false := rfl
  have imageMeta : File.imageMeta.published = false := rfl
  unfold publishImage imageFails
  cases build.engine.precompile staged.code with
  | none => simp
  | some =>
    simp only [ensures_bind, ensures_createDirAll, ensures_write, ensures_pure,
      done_update _ _ _ image, done_update _ _ _ imageMeta, spared_update _ _ _ image,
      spared_update _ _ _ imageMeta]
    cases build.disk.succeeds (.createDir .cache) <;> cases build.disk.succeeds (.write .image) <;>
      cases build.disk.succeeds (.write .imageMeta) <;> simp

def Builder.EndsSpared (start dir : Dir) : Prop :=
  build.migrationsFail staged = true ∨ build.refused staged = true →
    Unchanged start (build.replaced staged dir)

theorem ensures_ending (precompiled : Option Precompiled) :
    Ensures (do
        let files ← build.publishMigrations staged
        build.conclude staged precompiled files)
      (fun _ _ => True) (fun _ => Unchanged start) = build.EndsSpared staged start := by
  funext dir
  refine propext (ensures_bind _ _ |>.trans ?_)
  have last : (fun files => Ensures (build.conclude staged precompiled files) (fun _ _ => True)
      (fun _ => Unchanged start)) =
      fun _ dir => build.refused staged = true → Unchanged start dir := by
    funext files dir
    apply propext
    unfold conclude refused
    simp only [ensures_bind, ensures_tryWrite, ensures_lift]
    cases (ApplicationDefinition.new staged.manifest staged.code :
        Except DefinitionError (ApplicationDefinition Value Map)) with
    | ok => simp [Except.mapError]
    | error => simp [Except.mapError, unchanged_iff]
  rw [last, ensures_publishMigrations]
  unfold Builder.EndsSpared
  cases build.migrationsFail staged <;> simp

attribute [local simp] onMigrations replaced unchanged_iff Builder.Republishes

theorem ensures_publish (dir : Dir) :
    Ensures (build.publish staged) (fun _ _ => True) (fun _ => Unchanged dir) dir ↔
      (build.disk.succeeds (.createDir .out) = true → build.disk.succeeds (.rename .code) = true →
        ∀ step ∈ build.late staged, build.Republishes staged dir step) := by
  unfold publish
  simp only [ensures_bind, ensures_ending, ensures_createDirAll, ensures_rename,
    ensures_publishMap, ensures_write, ensures_tryRemove]
  rw [ensures_publishImage]
  · unfold late
    cases build.disk.succeeds (.createDir .out) with
    | false => simp [Unchanged]
    | true =>
    cases build.disk.succeeds (.rename .code) with
    | false => simp [Unchanged]
    | true =>
    cases build.mapFails staged with
    | true => simp
    | false =>
    cases build.disk.succeeds (.write .manifest) with
    | false => simp
    | true =>
    cases build.imageFails staged with
    | true => simp
    | false =>
      unfold Builder.EndsSpared
      cases build.migrationsFail staged with
      | true => simp
      | false =>
      cases build.refused staged with
      | true => simp
      | false => simp
  · intro file value dir outside
    unfold Builder.EndsSpared
    cases file <;> simp_all [File.published, unchanged_iff, replaced, onMigrations]
  · intro file value dir outside
    cases file <;> simp_all [File.published, unchanged_iff]

/-- A build that fails leaves the artifact exactly when it fails before the new
bundle is in place, or has put there only what was there. -/
theorem failed_build_spares_artifact (dir : Dir) :
    build.Atomic dir ↔ ∀ staged, build.stage = .ok staged →
      build.disk.succeeds (.createDir .out) = true → build.disk.succeeds (.rename .code) = true →
        ∀ step ∈ build.late staged, build.Republishes staged dir step := by
  rw [atomic_iff_ensures]
  unfold buildLocked
  cases staging : build.stage with
  | error => simp [Unchanged]
  | ok staged =>
    change Ensures (build.publish staged) (fun _ _ => True) (fun _ => Unchanged dir) dir ↔ _
    rw [ensures_publish]
    constructor
    · rintro published _ same
      cases same
      exact published
    · intro published
      exact published staged rfl

end

def twoModules : Manifest Unit where
  manifestVersion := 1
  modules := [⟨"billing", ["src/billing/migrations/*.sql"], none⟩,
    ⟨"users", ["src/users/migrations/*.sql"], none⟩]
  workloads := [⟨"http:GET /", "GET /", .http, none, [], none⟩]
  resources := ["main"]
  auth := []
  codeSha256 := "2a"
  builtWith := some ⟨none, some runtimeVersion, some 1⟩
  other := ()

def sampleLibraries : Libraries Unit Unit where
  null := ()
  string _ := ()
  number _ := ()
  object _ := ()
  get _ _ := none
  set value _ _ := value
  fromValue _ := .ok twoModules
  toVecPretty _ := [123, 125]
  fromSlice _ := .ok twoModules
  imageMetaToVec _ := []
  imageMetaFromSlice _ := none
  pathsToVec _ := [91, 93]
  utf8 _ := .ok "export default app"
  parseMap _ := none
  digest _ := "2a"

def clashingFiles : Migrations.Directory where
  globs := []
  glob
    | "src/billing/migrations/*.sql" =>
      .ok [⟨["src", "billing", "migrations", "001_init.sql"], true, .ok [49]⟩]
    | "src/users/migrations/*.sql" =>
      .ok [⟨["src", "users", "migrations", "001_init.sql"], true, .ok [50]⟩]
    | _ => .ok []
  readToString _ := .ok ""
  digest _ := "00"

def clashingBuild : Builder Unit Unit where
  libraries := sampleLibraries
  engine :=
    { name := "wasm", fingerprint := "1", compileCode := fun _ => .ok (), describe := fun _ => .ok (),
      precompile := fun _ => none }
  project :=
    { bundle := .ok [["src", "app.ts"]], stagedCode := .ok [2], stagedMap := none, configPath := none,
      migrationGlobs := [], files := clashingFiles, contents := fun _ => [] }
  disk := { fails := fun _ => none, cut := fun _ => none, keeps := fun _ => false }

def signedArtifact : Dir
  | .code => some [1]
  | .manifest => some [123, 32, 125]
  | .signature => some [7]
  | .migration "001_init.sql" => some [49]
  | _ => none

/-- Two migrations of one name end the build after it has replaced the bundle and
the manifest and removed the signature and the migrations. -/
theorem duplicate_migration_bricks_artifact :
    ∃ error after, clashingBuild.buildLocked.run.run signedArtifact = (.error error, after) ∧
      after .code = some [2] ∧ after .manifest = some [123, 125] ∧ after .signature = none ∧
      after (.migration "001_init.sql") = none ∧ ¬ clashingBuild.Atomic signedArtifact := by
  have ends : ∃ error after, clashingBuild.buildLocked.run.run signedArtifact = (.error error, after) ∧
      after .code = some [2] ∧ after .manifest = some [123, 125] ∧ after .signature = none ∧
      after (.migration "001_init.sql") = none := by
    refine ⟨_, _, rfl, ?_, ?_, ?_, ?_⟩ <;> decide
  obtain ⟨error, after, result, code, rest⟩ := ends
  refine ⟨error, after, result, code, rest.1, rest.2.1, rest.2.2, ?_⟩
  intro atomic
  have unchanged := (atomic error after result).1 .code rfl
  rw [code] at unchanged
  cases unchanged

end Usai.Build
