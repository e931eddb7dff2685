import Usai.Migrations.Migrate
import Usai.Slots

/-! Concurrent `migrate` runs over one directory: what a run that succeeds leaves
in the ledger, and that every migration is executed once and in name order. -/

namespace Usai.Migrations

open FiniteMap List

open Transition (Along Meets along_of_meets along_imp)

variable {file : MigrationFile} {database : Database}

section

def InOrder (files : List MigrationFile) : Prop :=
  files.Pairwise (fun a b => a.name < b.name)

theorem name_le_of_key {a b : MigrationFile} (le : a.key ≤ b.key) : a.name ≤ b.name := by
  rcases Prod.Lex.toLex_le_toLex.mp le with less | ⟨same, -⟩
  · exact le_of_lt less
  · exact le_of_eq same

variable {files : List MigrationFile}

theorem inOrder_of_sorted
    (sorted : files.Pairwise (fun a b => a.key ≤ b.key)) (unique : firstDuplicate files = none) :
    InOrder files := by
  induction files with
  | nil => exact List.Pairwise.nil
  | cons a files ih =>
    cases files with
    | nil => exact pairwise_singleton _ a
    | cons b _ =>
      simp only [firstDuplicate] at unique
      split at unique
      · cases unique
      · rename_i differ
        have tail := ih sorted.of_cons unique
        have first : a.name < b.name :=
          lt_of_le_of_ne (name_le_of_key (rel_of_pairwise_cons sorted mem_cons_self)) differ
        refine pairwise_cons.mpr ⟨?_, tail⟩
        intro file member
        rcases mem_cons.mp member with rfl | later
        · exact first
        · exact lt_trans first (rel_of_pairwise_cons tail later)

theorem discover_inOrder {directory : Directory}
    (discovered : directory.discover = .ok files) : InOrder files := by
  unfold Directory.discover at discovered
  cases found : collectAll directory [] directory.globs with
  | error =>
    rw [found] at discovered
    cases discovered
  | ok collected =>
    rw [found] at discovered
    simp only [bind, Except.bind] at discovered
    split at discovered <;> cases discovered
    rename_i unique
    exact inOrder_of_sorted (pairwise_insertionSort _ collected) unique

theorem InOrder.before
    (ordered : InOrder files) (suffix : file :: rest <:+ files) (less : other.name < file.name) :
    other ∉ file :: rest := by
  have tail : InOrder (file :: rest) := ordered.sublist suffix.sublist
  intro member
  rcases mem_cons.mp member with rfl | later
  · exact lt_irrefl _ less
  · exact lt_asymm less (rel_of_pairwise_cons tail later)

end

section

variable (files : List MigrationFile) (base : FiniteMap String String)

def Extends (ledger larger : FiniteMap String String) : Prop :=
  ∀ name checksum, ledger.lookup name = some checksum → larger.lookup name = some checksum

def Recorded (ledger : FiniteMap String String) (file : MigrationFile) : Prop :=
  ledger.lookup file.name = some file.checksum

def Preceded (ledger : FiniteMap String String) (file : MigrationFile) : Prop :=
  ∀ other ∈ files, other.name < file.name → Recorded ledger other

def Follows (ledger : FiniteMap String String) : Run → Prop
  | .applying applied remaining _ =>
    Extends base applied ∧ Extends applied ledger ∧ remaining <:+ files ∧
      ∀ file ∈ files, file ∉ remaining → Recorded ledger file
  | .returned (.ok _) => ∀ file ∈ files, Recorded ledger file
  | _ => True

structure Sound (database : Database) : Prop where
  kept : Extends base database.ledger
  written : ∀ name checksum, database.ledger.lookup name = some checksum →
    base.lookup name = some checksum ∨ ∃ file ∈ files, file.name = name ∧ file.checksum = checksum
  ordered : database.executed.Pairwise (· < ·)
  behind : ∀ name ∈ database.executed, ∀ file ∈ files, file.name ≤ name →
    database.ledger.lookup file.name ≠ none
  late : ∀ file ∈ database.late,
    file ∈ files ∧ base.lookup file.name = none ∧ Preceded files database.ledger file
  runs : ∀ run ∈ database.runs, Follows files base database.ledger run

variable {files base}

theorem Preceded.mono (grows : Extends ledger larger)
    (preceded : Preceded files ledger file) : Preceded files larger file :=
  fun other member less => grows _ _ (preceded other member less)

theorem Follows.mono (grows : Extends ledger larger)
    (follows : Follows files base ledger run) : Follows files base larger run := by
  cases run with
  | applying =>
    obtain ⟨started, known, suffix, passed⟩ := follows
    refine ⟨started, fun name checksum row => grows _ _ (known name checksum row), suffix, ?_⟩
    exact fun file member gone => grows _ _ (passed file member gone)
  | returned result =>
    cases result with
    | error => trivial
    | ok => exact fun file member => grows _ _ (follows file member)
  | _ => trivial

theorem new_sound (base : FiniteMap String String) : Sound files base (Database.new base) where
  kept _ _ row := row
  written _ _ row := .inl row
  ordered := List.Pairwise.nil
  behind _ member := by cases member
  late _ member := by cases member
  runs _ member := by cases member

theorem Sound.setRun (sound : Sound files base database) (index : Nat)
    (follows : Follows files base database.ledger run) :
    Sound files base (database.setRun index run) :=
  { sound with
    runs := Slots.forall_set sound.runs follows }

/-- The transaction of one file whose predecessors are recorded. A file found in
the ledger was put there by another run over the same directory. -/
theorem Sound.apply (ordered : InOrder files)
    (sound : Sound files base database) (member : file ∈ files)
    (fresh : base.lookup file.name = none) (preceded : Preceded files database.ledger file) :
    Sound files base (database.apply file) ∧ Extends database.ledger (database.apply file).ledger ∧
      Recorded (database.apply file).ledger file := by
  unfold Database.apply
  cases found : database.ledger.lookup file.name with
  | some =>
    refine ⟨sound, fun _ _ row => row, ?_⟩
    rcases sound.written _ _ found with old | ⟨other, inside, name, same⟩
    · rw [fresh] at old
      cases old
    · have nodup : (files.map MigrationFile.name).Nodup :=
        pairwise_map.mpr (ordered.imp (fun less => ne_of_lt less))
      have equal := inj_on_of_nodup_map nodup inside member name
      subst equal
      exact found.trans (congrArg some same.symm)
  | none =>
    have grows : Extends database.ledger (database.ledger.insert file.name file.checksum) := by
      intro name checksum row
      exact lookup_insert_absent found row
    have recorded : Recorded (database.ledger.insert file.name file.checksum) file := by
      rw [Recorded, lookup_insert_eq, if_pos rfl]
    refine ⟨?_, grows, recorded⟩
    exact
      { kept := fun name checksum row => grows _ _ (sound.kept name checksum row)
        written := by
          intro name checksum row
          rcases of_lookup_insert row with ⟨same, rfl⟩ | before
          · exact .inr ⟨file, member, same.symm, rfl⟩
          · exact sound.written name checksum before
        ordered := by
          refine pairwise_append.mpr ⟨sound.ordered, pairwise_singleton _ _, ?_⟩
          intro name executed last single
          rw [mem_singleton.mp single]
          -- otherwise the file would be recorded
          by_contra notLess
          exact sound.behind name executed file member (not_lt.mp notLess) found
        behind := by
          intro name executed other inside le
          have known : database.ledger.lookup other.name ≠ none ∨ other.name = file.name := by
            rcases mem_append.mp executed with before | last
            · exact .inl (sound.behind name before other inside le)
            · rw [mem_singleton.mp last] at le
              rcases lt_or_eq_of_le le with less | same
              · have row : database.ledger.lookup other.name = some other.checksum :=
                  preceded other inside less
                exact .inl (by simp [row])
              · exact .inr same
          rw [lookup_insert_eq]
          split
          · simp
          · exact known.resolve_right ‹_›
        late := by
          intro other pending
          obtain ⟨inside, absent, before⟩ := sound.late other pending
          exact ⟨inside, absent, before.mono grows⟩
        runs := fun run running => (sound.runs run running).mono grows }

end

section

variable {files : List MigrationFile} {base : FiniteMap String String} {directory : Directory}

/-- Lock, check, apply and record are one: the SQL is not executed without its
row. -/
def Label.Whole : Label → Prop
  | .next _ (.failed _ effect) | .next _ (.crashed effect) => effect ≠ .torn
  | _ => True

instance Label.Whole.decidable (label : Label) : Decidable (label.Whole) := by
  unfold Label.Whole
  split <;> infer_instance

variable {database after : Database}

variable (ordered : InOrder files) (sound : Sound files base database)
include ordered sound

theorem suffer_sound (member : file ∈ files)
    (fresh : base.lookup file.name = none) (preceded : Preceded files database.ledger file)
    (whole : effect ≠ .torn)
    (suffered : database.suffer directory file effect = some after) : Sound files base after := by
  cases effect with
  | torn => exact absurd rfl whole
  | nothing =>
    cases suffered
    exact sound
  | applied =>
    cases suffered
    exact (sound.apply ordered member fresh preceded).1
  | pending =>
    cases suffered
    refine { sound with late := ?_ }
    intro other pending
    rcases mem_append.mp pending with before | last
    · exact sound.late other before
    · rw [mem_singleton.mp last]
      exact ⟨member, fresh, preceded⟩

theorem next_sound (follows : Follows files base database.ledger (.applying applied remaining done))
    (whole : (Label.next index answer).Whole)
    (taken : database.next directory index applied remaining done answer = some after) :
    Sound files base after := by
  obtain ⟨started, known, suffix, passed⟩ := follows
  cases remaining with
  | nil =>
    cases taken
    exact sound.setRun index (fun file member => passed file member not_mem_nil)
  | cons file rest =>
    have member : file ∈ files := suffix.mem mem_cons_self
    have tail : rest <:+ files := (suffix_cons file rest).trans suffix
    have onward : ∀ {ledger done}, Extends database.ledger ledger → Recorded ledger file →
        Follows files base ledger (.applying applied rest done) := by
      intro ledger done grows recorded
      refine ⟨started, fun name checksum row => grows _ _ (known name checksum row), tail, ?_⟩
      intro other inside gone
      by_cases same : other = file
      · exact same ▸ recorded
      · exact grows _ _ (passed other inside (by simp [same, gone]))
    simp only [Database.next] at taken
    cases snapshot : applied.lookup file.name with
    | some =>
      rw [snapshot] at taken
      dsimp only at taken
      split at taken <;> cases taken
      · exact sound.setRun index trivial
      · rename_i same
        have recorded : Recorded database.ledger file :=
          known _ _ (snapshot.trans (congrArg some (not_not.mp same)))
        exact sound.setRun index (onward (fun _ _ row => row) recorded)
    | none =>
      have fresh : base.lookup file.name = none := by
        cases old : base.lookup file.name with
        | none => rfl
        | some =>
          rw [started _ _ old] at snapshot
          cases snapshot
      have preceded : Preceded files database.ledger file := by
        intro other inside less
        exact passed other inside (ordered.before suffix less)
      rw [snapshot] at taken
      cases answer with
      | unread =>
        cases taken
        exact sound.setRun index trivial
      | answered =>
        cases taken
        obtain ⟨next, grows, recorded⟩ := sound.apply ordered member fresh preceded
        exact next.setRun index (onward grows recorded)
      | failed | crashed =>
        obtain ⟨_, suffered, rfl⟩ := Option.map_eq_some_iff.mp taken
        have next := suffer_sound ordered sound member fresh preceded whole suffered
        exact next.setRun index trivial

theorem step_sound (whole : label.Whole)
    (taken : database.step directory files label = some after) : Sound files base after := by
  cases label <;> simp only [Database.step] at taken
  case start =>
    cases taken
    refine { sound with runs := ?_ }
    intro run member
    rcases mem_append.mp member with before | last
    · exact sound.runs run before
    · rw [mem_singleton.mp last]
      trivial
  case ensureLedger index _ =>
    split at taken <;> cases taken
    · exact sound.setRun index trivial
    · exact sound.setRun index trivial
  case readLedger index _ =>
    split at taken <;> cases taken
    · refine sound.setRun index ⟨sound.kept, fun _ _ row => row, suffix_refl files, ?_⟩
      exact fun file member gone => absurd member gone
    · exact sound.setRun index trivial
  case next =>
    split at taken
    · rename_i applied remaining done found
      exact next_sound ordered sound (sound.runs _ (mem_of_getElem? found)) whole taken
    · cases taken
  case land index =>
    split at taken <;> cases taken
    rename_i file found
    obtain ⟨member, fresh, preceded⟩ := sound.late file (mem_of_getElem? found)
    have landed : Sound files base { database with late := database.late.eraseIdx index } :=
      { sound with late := fun other pending => sound.late other (mem_of_mem_eraseIdx pending) }
    exact (landed.apply ordered member fresh preceded).1

end

/-- What the runs leave: a run that succeeded has every file of the directory in
the ledger, and no migration was executed twice or out of order. -/
structure Migrated (files : List MigrationFile) (database : Database) : Prop where
  recorded : ∀ done, Run.returned (.ok done) ∈ database.runs →
    ∀ file ∈ files, database.ledger.lookup file.name = some file.checksum
  once : database.executed.Nodup
  inOrder : database.executed.Pairwise (· ≤ ·)

theorem Sound.migrated (sound : Sound files base database) : Migrated files database where
  recorded _ returned := sound.runs _ returned
  once := sound.ordered.imp (fun less => ne_of_lt less)
  inOrder := sound.ordered.imp (fun less => le_of_lt less)

/-- For every directory, every ledger to begin with and every interleaving of
runs, in every state reached. -/
theorem migrations_once_in_order (directory : Directory) (files : List MigrationFile)
    (discovered : directory.discover = .ok files) (ledger : FiniteMap String String)
    (labels : List Label)
    (whole : Meets (Database.step directory files) (fun _ label => label.Whole)
      (Database.new ledger) labels) :
    Along (Database.step directory files) (Migrated files) (Database.new ledger) labels := by
  have ordered := discover_inOrder discovered
  have sound := along_of_meets
    (fun _ _ _ sound whole taken => step_sound ordered sound whole taken) (new_sound ledger) whole
  exact along_imp (fun _ sound => sound.migrated) sound

def sampleEntry (name : String) : Entry := ⟨["app", "migrations", name], true, .ok []⟩

def sampleDirectory : Directory where
  globs := [("./migrations/*.sql", "config")]
  glob _ := .ok [sampleEntry "002_orders.sql", sampleEntry "001_users.sql"]
  readToString _ := .ok "create table users (id int);"
  digest _ := "e3b0c44298fc1c149afbf4c8996fb924"

def sampleFiles : List MigrationFile :=
  ["001_users.sql", "002_orders.sql"].map
    (fun name => ⟨name, ["app", "migrations", name], "e3b0c44298fc1c14", "config"⟩)

def sampleLabels : List Label :=
  [.start, .start, .ensureLedger 0 none, .ensureLedger 1 none, .readLedger 0 none,
    .readLedger 1 none, .next 0 .answered, .next 1 .answered, .next 1 .answered, .next 0 .answered,
    .next 1 .answered, .next 0 .answered]

theorem migrations_once_in_order_two_runs :
    Along (Database.step sampleDirectory sampleFiles) (Migrated sampleFiles)
      (Database.new ∅) sampleLabels := by
  refine migrations_once_in_order sampleDirectory sampleFiles (by decide) ∅ sampleLabels ?_
  decide

end Usai.Migrations
