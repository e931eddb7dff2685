import Mathlib.Data.List.Sort
import Mathlib.Data.Prod.Lex
import Mathlib.Data.String.Basic
import Usai.FiniteMap
import Usai.Postgres.Wire
import Usai.Transition

/-! Migrations (`db.rs`, and `apply_migration` of `resource/postgres.rs`): the
discovery of the files of a directory, and any number of `migrate` runs over
them against one ledger table. -/

namespace Usai.Migrations

open Postgres (ResourceError)
open Text (trim unicodeSpace)

abbrev Path := List String

structure MigrationFile where
  name : String
  path : Path
  checksum : String
  source : String
  deriving DecidableEq, Repr

inductive DbError where
  | glob (pattern detail : String)
  | io (detail : String)
  | duplicate (name : String) (a b : Path)
  | checksumMismatch (name applied current : String)
  | resource (error : ResourceError)
  deriving DecidableEq, Repr

section

structure Entry where
  path : Path
  isFile : Bool
  contents : Except String (List UInt8)

/-- The files of a project and what is outside the repository: the matcher of
globs and the hash, of which the code keeps the first 16 hexadecimal digits. -/
structure Directory where
  globs : List (String × String)
  glob : String → Except String (List Entry)
  readToString : Path → Except String String
  digest : List UInt8 → String

variable (directory : Directory)

def fileName (path : Path) : String := path.getLast?.getD ""

def collect (source : String) : List MigrationFile → List Entry → Except DbError (List MigrationFile)
  | files, [] => .ok files
  | files, entry :: entries =>
    if !entry.isFile || files.any (fun file => file.path == entry.path) then
      collect source files entries
    else
      match entry.contents with
      | .error detail => .error (.io detail)
      | .ok contents =>
        let checksum := String.ofList ((directory.digest contents).toList.take 16)
        collect source (files ++ [⟨fileName entry.path, entry.path, checksum, source⟩]) entries

def collectAll : List MigrationFile → List (String × String) → Except DbError (List MigrationFile)
  | files, [] => .ok files
  | files, (pattern, source) :: globs =>
    match directory.glob pattern with
    | .error detail => .error (.glob pattern detail)
    | .ok entries =>
      match collect directory source files entries with
      | .error error => .error error
      | .ok files => collectAll files globs

def MigrationFile.key (file : MigrationFile) : Lex (String × Path) := toLex (file.name, file.path)

def firstDuplicate : List MigrationFile → Option (MigrationFile × MigrationFile)
  | a :: b :: files => if a.name = b.name then some (a, b) else firstDuplicate (b :: files)
  | _ => none

def Directory.discover : Except DbError (List MigrationFile) := do
  let found ← collectAll directory [] directory.globs
  let files := found.insertionSort (fun a b => a.key ≤ b.key)
  match firstDuplicate files with
  | some (a, b) => throw (.duplicate a.name a.path b.path)
  | none => pure files

end

def stripFront (front : String) (text : List Char) : Option (List Char) :=
  if front.toList.isPrefixOf text then some (text.drop front.toList.length) else none

def pragma (line : List Char) : Bool :=
  match stripFront "--" (trim unicodeSpace line) with
  | none => false
  | some rest =>
    match stripFront "usai:" (trim unicodeSpace rest) with
    | none => false
    | some rest => (trim unicodeSpace rest).map Char.toLower == "no-transaction".toList

def runsOutsideATransaction (sql : String) : Bool := (sql.toList.splitOn '\n').any pragma

/-- One `migrate` run. `applied` is the ledger as it was read before the loop,
`remaining` the files still to come. -/
inductive Run where
  | opening
  | planning
  | applying (applied : FiniteMap String String) (remaining : List MigrationFile)
      (done : List String)
  | returned (result : Except DbError (List String))
  | gone

/-- The database: the ledger with its primary key, the migrations whose SQL was
executed, in that order, and the applications that nobody waits for any more
but that the server still carries out. -/
structure Database where
  ledger : FiniteMap String String
  executed : List String
  late : List MigrationFile
  runs : List Run

def Database.new (ledger : FiniteMap String String) : Database := ⟨ledger, [], [], []⟩

inductive Effect where
  | nothing
  | applied
  | pending
  /-- Outside a transaction: the SQL was executed and not recorded. -/
  | torn
  deriving DecidableEq, Repr

inductive Answer where
  | unread (detail : String)
  | answered
  | failed (error : ResourceError) (effect : Effect)
  | crashed (effect : Effect)
  deriving DecidableEq, Repr

inductive Label where
  | start
  | ensureLedger (index : Nat) (failure : Option ResourceError)
  | readLedger (index : Nat) (failure : Option ResourceError)
  | next (index : Nat) (answer : Answer)
  | land (index : Nat)
  deriving DecidableEq, Repr

namespace Database

/-- Lock, check, apply, record: one transaction. -/
def apply (database : Database) (file : MigrationFile) : Database :=
  match database.ledger.lookup file.name with
  | some _ => database
  | none =>
    { database with
      ledger := database.ledger.insert file.name file.checksum
      executed := database.executed ++ [file.name] }

def setRun (database : Database) (index : Nat) (run : Run) : Database :=
  { database with runs := database.runs.set index run }

def suffer (directory : Directory) (database : Database) (file : MigrationFile) :
    Effect → Option Database
  | .nothing => some database
  | .applied => some (database.apply file)
  | .pending => some { database with late := database.late ++ [file] }
  | .torn =>
    match directory.readToString file.path with
    | .ok sql =>
      if runsOutsideATransaction sql ∧ database.ledger.lookup file.name = none then
        some { database with executed := database.executed ++ [file.name] }
      else none
    | .error _ => none

def next (directory : Directory) (database : Database) (index : Nat)
    (applied : FiniteMap String String) (remaining : List MigrationFile) (done : List String)
    (answer : Answer) : Option Database :=
  match remaining with
  | [] => some (database.setRun index (.returned (.ok done)))
  | file :: rest =>
    match applied.lookup file.name with
    | some checksum =>
      if checksum ≠ file.checksum then
        some (database.setRun index
          (.returned (.error (.checksumMismatch file.name checksum file.checksum))))
      else some (database.setRun index (.applying applied rest done))
    | none =>
      match answer with
      | .unread detail => some (database.setRun index (.returned (.error (.io detail))))
      | .answered =>
        let done :=
          if database.ledger.lookup file.name = none then done ++ [file.name] else done
        some ((database.apply file).setRun index (.applying applied rest done))
      | .failed error effect =>
        (database.suffer directory file effect).map
          (fun database => database.setRun index (.returned (.error (.resource error))))
      | .crashed effect =>
        (database.suffer directory file effect).map
          (fun database => database.setRun index .gone)

def step (directory : Directory) (files : List MigrationFile) (database : Database) :
    Label → Option Database
  | .start => some { database with runs := database.runs ++ [.opening] }
  | .ensureLedger index failure =>
    match database.runs[index]?, failure with
    | some .opening, none => some (database.setRun index .planning)
    | some .opening, some error =>
      some (database.setRun index (.returned (.error (.resource error))))
    | _, _ => none
  | .readLedger index failure =>
    match database.runs[index]?, failure with
    | some .planning, none => some (database.setRun index (.applying database.ledger files []))
    | some .planning, some error =>
      some (database.setRun index (.returned (.error (.resource error))))
    | _, _ => none
  | .next index answer =>
    match database.runs[index]? with
    | some (.applying applied remaining done) =>
      database.next directory index applied remaining done answer
    | _ => none
  | .land index =>
    match database.late[index]? with
    | some file =>
      let landed := { database with late := database.late.eraseIdx index }
      some (landed.apply file)
    | none => none

end Database

end Usai.Migrations
