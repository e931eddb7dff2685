import Usai.Build.Definition
import Usai.Fallible
import Usai.Migrations.Migrate

/-! `usai build` (`build.rs`): `build_locked`, which stages an artifact and
publishes it into the output directory, and `load_artifact`. The file system
answers each operation as it likes. -/

namespace Usai.Build

open Migrations (Path MigrationFile)

/-- The files of an output directory. `.staging` is not one of them: nobody but
the build reads it. -/
inductive File where
  | code
  | map
  | manifest
  | image
  | imageMeta
  | signature
  | migration (name : String)
  | inputs
  deriving DecidableEq, Repr

abbrev Dir := File → Option Bytes

inductive Folder where
  | out
  | cache
  | migrations
  deriving DecidableEq, Repr

inductive Operation where
  | createDir (folder : Folder)
  | rename (file : File)
  | write (file : File)
  deriving DecidableEq, Repr

/-- How the file system answers. A write that fails may have cut the file; a
removal may leave it. -/
structure Disk where
  fails : Operation → Option String
  cut : File → Option Bytes
  keeps : File → Bool

inductive BuildError where
  | nodeMissing
  | sdkMissing (detail : String)
  | notAProject
  | unfilledTemplate
  | bundle (detail : String)
  | migrations (error : Migrations.DbError)
  | io (detail : String)
  | ioAt (op : String) (file : File) (detail : String)
  | engine (detail : String)
  | manifest (detail : String)
  | definition (error : DefinitionError)
  deriving DecidableEq, Repr

structure ImageMeta where
  engine : String
  fingerprint : String
  codeSha256 : String
  sha256 : String
  deriving DecidableEq, Repr

structure Libraries (Value Map : Type) where
  null : Value
  string : String → Value
  number : Nat → Value
  object : List (String × Value) → Value
  get : Value → String → Option Value
  set : Value → String → Value → Value
  fromValue : Value → Except String (Manifest Value)
  toVecPretty : Manifest Value → Bytes
  fromSlice : Bytes → Except String (Manifest Value)
  imageMetaToVec : ImageMeta → Bytes
  imageMetaFromSlice : Bytes → Option ImageMeta
  pathsToVec : List Path → Bytes
  utf8 : Bytes → Except String String
  parseMap : String → Option Map
  digest : Bytes → String

structure Engine (Value : Type) where
  name : String
  fingerprint : String
  compileCode : Code → Except String Unit
  describe : Code → Except String Value
  precompile : Code → Option Bytes

/-- What a build reads outside the output directory. `bundle` is the answer of
the bundler, which has then written `stagedCode` and `stagedMap`. -/
structure Project where
  bundle : Except BuildError (List Path)
  stagedCode : Except String Bytes
  stagedMap : Option Bytes
  configPath : Option Path
  migrationGlobs : List String
  files : Migrations.Directory
  contents : Path → Bytes

structure Builder (Value Map : Type) where
  libraries : Libraries Value Map
  engine : Engine Value
  project : Project
  disk : Disk

section

variable (disk : Disk)

abbrev Publishing := Fallible BuildError Dir

def createDirAll (folder : Folder) : Publishing Unit :=
  match disk.fails (.createDir folder) with
  | some error => throw (.io error)
  | none => pure ()

def rename (file : File) (bytes : Bytes) : Publishing Unit :=
  match disk.fails (.rename file) with
  | some error => throw (.io error)
  | none => modify (fun dir => Function.update dir file (some bytes))

def write (file : File) (bytes : Bytes) : Publishing Unit :=
  match disk.fails (.write file) with
  | some error => do
      modify (fun dir => Function.update dir file (disk.cut file))
      throw (.io error)
  | none => modify (fun dir => Function.update dir file (some bytes))

def tryWrite (file : File) (bytes : Bytes) : Publishing Unit :=
  match disk.fails (.write file) with
  | some _ => modify (fun dir => Function.update dir file (disk.cut file))
  | none => modify (fun dir => Function.update dir file (some bytes))

def tryRemove (file : File) : Publishing Unit :=
  modify (fun dir => if disk.keeps file then dir else Function.update dir file none)

def onMigrations (change : String → Option Bytes → Option Bytes) (dir : Dir) : Dir
  | .migration name => change name (dir (.migration name))
  | file => dir file

def tryRemoveMigrations : Publishing Unit :=
  modify (onMigrations (fun name was => if disk.keeps (.migration name) then was else none))

end

def trimDotSlash : List Char → List Char
  | '.' :: '/' :: rest => trimDotSlash rest
  | text => text

def moduleRelative (spec : ModuleSpec) (glob : String) : Option String :=
  match spec.sourceDir with
  | none => none
  | some dir =>
    let trimmed := trimDotSlash glob.toList
    if dir = "" ∨ trimmed.head? = some '/' ∨ dir.toList.isPrefixOf trimmed then none
    else some (dir ++ "/" ++ String.ofList trimmed)

def moduleGlobs (spec : ModuleSpec) : List (String × String) :=
  spec.migrations.flatMap (fun glob =>
    (glob, "module " ++ spec.name) ::
      (moduleRelative spec glob).toList.map
        (fun relative => (relative, "module " ++ spec.name ++ " (module-relative)")))

def migrationGlobsFor (modules : List ModuleSpec) (configGlobs : List String) :
    List (String × String) :=
  configGlobs.map (fun glob => (glob, "usai.config.ts")) ++ modules.flatMap moduleGlobs

structure Staged (Value : Type) where
  inputs : List Path
  bytes : Bytes
  map : Option Bytes
  code : Code
  manifest : Manifest Value

structure BuildOutput (Value Map : Type) where
  definition : ApplicationDefinition Value Map
  inputs : List Path

section

variable {Value Map : Type} (build : Builder Value Map)

def stamp (libraries : Libraries Value Map) (described : Value) (code : Code) : Value :=
  let value := libraries.set described "codeSha256" (libraries.string code.sha256)
  let built := libraries.get value "builtWith"
  let sdk := (built.bind (fun built => libraries.get built "sdk")).getD libraries.null
  let abi := (built.bind (fun built => libraries.get built "abi")).getD (libraries.number 1)
  libraries.set value "builtWith"
    (libraries.object [("sdk", sdk), ("runtime", libraries.string runtimeVersion), ("abi", abi)])

def Builder.stage : Except BuildError (Staged Value) := do
  let bundled ← build.project.bundle
  let inputs := bundled ++ build.project.configPath.toList
  let bytes ← build.project.stagedCode.mapError .io
  let source ← (build.libraries.utf8 bytes).mapError .io
  let code := Code.new build.libraries.digest source
  (build.engine.compileCode code).mapError .engine
  let described ← (build.engine.describe code).mapError .engine
  let manifest ← (build.libraries.fromValue (stamp build.libraries described code)).mapError .manifest
  pure ⟨inputs, bytes, build.project.stagedMap, code, manifest⟩

def Builder.publishMap (staged : Staged Value) : Publishing Unit :=
  match staged.map with
  | some map => rename build.disk .map map
  | none => tryRemove build.disk .map

def Builder.publishImage (staged : Staged Value) : Publishing (Option Precompiled) :=
  match build.engine.precompile staged.code with
  | none => pure none
  | some bytes => do
      createDirAll build.disk .cache
      write build.disk .image bytes
      let imageMeta : ImageMeta :=
        ⟨build.engine.name, build.engine.fingerprint, staged.code.sha256, build.libraries.digest bytes⟩
      write build.disk .imageMeta (build.libraries.imageMetaToVec imageMeta)
      pure (some ⟨imageMeta.engine, imageMeta.fingerprint, bytes⟩)

def Builder.migrations (staged : Staged Value) : Except BuildError (List MigrationFile) :=
  let globs := migrationGlobsFor staged.manifest.modules build.project.migrationGlobs
  if globs.isEmpty then .ok []
  else
    { build.project.files with globs }.discover.mapError .migrations

def Builder.copyFiles : List MigrationFile → Publishing Unit
  | [] => pure ()
  | file :: files => do
      write build.disk (.migration file.name) (build.project.contents file.path)
      Builder.copyFiles files

def Builder.publishMigrations (staged : Staged Value) : Publishing (List MigrationFile) := do
  tryRemoveMigrations build.disk
  let files ← Fallible.lift (build.migrations staged)
  if files.isEmpty then pure files
  else
    createDirAll build.disk .migrations
    build.copyFiles files
    pure files

def readSourceMap (libraries : Libraries Value Map) (dir : Dir) : Option Map := do
  let bytes ← dir .map
  let text ← (libraries.utf8 bytes).toOption
  libraries.parseMap text

def Builder.conclude (staged : Staged Value) (precompiled : Option Precompiled)
    (files : List MigrationFile) : Publishing (BuildOutput Value Map) := do
  let inputs := staged.inputs ++ files.map MigrationFile.path
  tryWrite build.disk .inputs (build.libraries.pathsToVec inputs)
  let definition : ApplicationDefinition Value Map ← Fallible.lift
    ((ApplicationDefinition.new staged.manifest staged.code).mapError .definition)
  let dir ← get
  pure ⟨{ definition with precompiled, sourceMap := readSourceMap build.libraries dir }, inputs⟩

def Builder.publish (staged : Staged Value) : Publishing (BuildOutput Value Map) := do
  createDirAll build.disk .out
  rename build.disk .code staged.bytes
  build.publishMap staged
  write build.disk .manifest (build.libraries.toVecPretty staged.manifest)
  tryRemove build.disk .image
  tryRemove build.disk .imageMeta
  tryRemove build.disk .signature
  let precompiled ← build.publishImage staged
  let files ← build.publishMigrations staged
  build.conclude staged precompiled files

def Builder.buildLocked : Publishing (BuildOutput Value Map) := do
  let staged ← Fallible.lift build.stage
  build.publish staged

end

section

variable {Value Map : Type} (libraries : Libraries Value Map)

def loadImage (dir : Dir) (code : Code) : Option Precompiled := do
  let bytes ← dir .imageMeta
  let imageMeta ← libraries.imageMetaFromSlice bytes
  if imageMeta.codeSha256 ≠ code.sha256 then none
  else
    let image ← dir .image
    if libraries.digest image ≠ imageMeta.sha256 then none
    else some ⟨imageMeta.engine, imageMeta.fingerprint, image⟩

def readDefinition (dir : Dir) : Except BuildError (ApplicationDefinition Value Map) := do
  let bytes ← match dir .manifest with
    | some bytes => .ok bytes
    | none => .error (.ioAt "read the artifact's manifest" .manifest "not found")
  let manifest ← (libraries.fromSlice bytes).mapError .manifest
  let bytes ← match dir .code with
    | some bytes => .ok bytes
    | none => .error (.ioAt "read the artifact's bundle" .code "not found")
  let source ← (libraries.utf8 bytes).mapError (.ioAt "read the artifact's bundle" .code)
  (ApplicationDefinition.new manifest (Code.new libraries.digest source)).mapError .definition

def loadArtifact (usePrecompiled : Bool) (dir : Dir) :
    Except BuildError (ApplicationDefinition Value Map) :=
  (readDefinition libraries dir).map (fun definition =>
    { definition with
      sourceMap := readSourceMap libraries dir
      precompiled := if usePrecompiled then loadImage libraries dir definition.code else none })

end

end Usai.Build
