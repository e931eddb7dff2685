import Usai.Build.Atomic
import Usai.Build.Signing

/-! What a verified artifact is bound to: the digests that the holder of a trusted
key has signed fix the files a definition is built from, and the migrations whose
names the verification does not respell. -/

namespace Usai.Build

open Fallible List Option

section

variable {Key Signature : Type} (verifier : Verifier Key Signature)

def definitionPaths : List (List Name) :=
  [[.text "manifest.json"], [.text "app.js"], [.text "app.js.map"],
    [.text "cache", .text "image.json"], [.text "cache", .text "image.cwasm"]]

def Bound (path : List Name) : Prop :=
  path ∈ definitionPaths ∨ ∃ rest, rest ≠ [] ∧ path = .text "migrations" :: rest

def Name.exact : Name → Option (List Char)
  | .text name => some name.toList
  | .raw _ => none

def spelled (path : List Name) : Option String :=
  (path.mapM Name.exact).map fun parts => String.ofList ((['/'] : List Char).intercalate parts)

def Signed (record : ArtifactSignature) (path : List Name) (bytes : Bytes) : Prop :=
  ∃ rel, spelled path = some rel ∧ record.files.lookup rel = some (verifier.digest bytes)

/-- A name that `to_string_lossy` and the replacement of backslashes leave as it is. -/
def Name.plain : Name → Bool
  | .text name => !name.toList.contains '\\'
  | .raw _ => false

/-- Every file under `migrations/` has a plain path, or is itself listed. -/
def PlainMigrations (tree : Tree) (record : ArtifactSignature) : Prop :=
  ∀ rest, rest ≠ [] → .text "migrations" :: rest ∈ tree.files.keys →
    (∀ name ∈ rest, name.plain = true) ∨
      ∃ rel ∈ record.files.keys, spelled (.text "migrations" :: rest) = some rel

def Proper (path : List Name) : Prop := path ≠ [] ∧ ∀ name ∈ path, name.proper = true

variable {verifier} {path : List Name} {rel : String} {tree : Tree} {trusted : List Key}
  {record : ArtifactSignature} {parts : List (List Char)}

theorem exact_of_text (named : path.mapM Name.exact = some parts) :
    path = parts.map fun part => .text (String.ofList part) := by
  induction path generalizing parts with
  | nil =>
    cases named
    rfl
  | cons name _ ih =>
    rw [mapM_cons] at named
    obtain ⟨_, first, named⟩ := bind_eq_some_iff.mp named
    obtain ⟨_, rest, same⟩ := bind_eq_some_iff.mp named
    cases same
    cases name with
    | raw => cases first
    | text =>
      cases first
      rw [map_cons, String.ofList_toList, ← ih rest]

theorem plainPath_spelled (proper : Proper path) (named : spelled path = some rel) :
    plainPath rel = some path := by
  obtain ⟨parts, exactly, rfl⟩ := map_eq_some_iff.mp named
  have same := exact_of_text exactly
  have nonempty : parts ≠ [] := by
    rintro rfl
    exact proper.1 same
  have whole : ∀ part ∈ parts, '/' ∉ part := by
    intro part member slash
    have good := proper.2 (.text (String.ofList part)) (by
      rw [same]
      exact mem_map.mpr ⟨part, member, rfl⟩)
    simp only [Name.proper, Bool.and_eq_true, Bool.not_eq_true', String.toList_ofList] at good
    have absent := good.2
    rw [contains_eq_mem, decide_eq_false_iff_not] at absent
    exact absent slash
  have split : (String.ofList ((['/'] : List Char).intercalate parts)).toList.splitOn '/' = parts := by
    rw [String.toList_ofList, splitOn_intercalate '/' whole nonempty]
  unfold plainPath
  rw [split, ← same]
  exact if_pos (all_eq_true.mpr proper.2)

theorem read_spelled (tree : Tree) (proper : Proper path) (named : spelled path = some rel) :
    tree.read rel = tree.files.lookup path := by
  unfold Tree.read
  rw [plainPath_spelled proper named]

theorem map_intercalate_of_fixed {change : Char → Char}
    (kept : change separator = separator) (fixed : ∀ part ∈ parts, part.map change = part) :
    (([separator] : List Char).intercalate parts).map change = [separator].intercalate parts := by
  induction parts with
  | nil => rfl
  | cons _ parts ih =>
    rw [forall_mem_cons] at fixed
    cases parts with
    | nil =>
      rw [intercalate_singleton]
      exact fixed.1
    | cons =>
      rw [intercalate_cons_cons, map_append, map_append, fixed.1, ih fixed.2]
      simp only [map_cons, map_nil, kept]

theorem exact_of_plain (verifier : Verifier Key Signature)
    (plain : ∀ name ∈ path, name.plain = true) :
    path.mapM Name.exact = some (path.map fun name => (name.lossy verifier).toList) := by
  induction path with
  | nil => rfl
  | cons name _ ih =>
    rw [forall_mem_cons] at plain
    rw [mapM_cons, ih plain.2]
    cases name with
    | text => rfl
    | raw => cases plain.1

theorem spelled_of_plain (verifier : Verifier Key Signature)
    (plain : ∀ name ∈ path, name.plain = true) : spelled path = some (relative verifier path) := by
  have fixed : ∀ part ∈ path.map (fun name => (name.lossy verifier).toList),
      part.map (fun char => if char = '\\' then '/' else char) = part := by
    intro part member
    obtain ⟨name, inside, rfl⟩ := mem_map.mp member
    have clean := plain name inside
    cases name with
    | raw => cases clean
    | text name =>
      simp only [Name.plain, Bool.not_eq_true', contains_eq_mem, decide_eq_false_iff_not] at clean
      calc
        name.toList.map (fun char => if char = '\\' then '/' else char) = name.toList.map id := by
          apply map_congr_left
          intro char here
          apply if_neg
          rintro rfl
          exact clean here
        _ = name.toList := map_id name.toList
  unfold spelled relative
  rw [exact_of_plain verifier plain, map_intercalate_of_fixed rfl fixed]
  rfl

structure Verified (verifier : Verifier Key Signature) (tree : Tree) (trusted : List Key)
    (record : ArtifactSignature) : Prop where
  signed : ∃ key ∈ trusted, ∃ signature, verifier.verify key (verifier.toVec record.files) signature = true
  listed : ∀ rel expected, record.files.lookup rel = some expected →
    ∃ bytes, tree.read rel = some bytes ∧ verifier.digest bytes = expected
  covered : ∀ path ∈ tree.files.keys, relative verifier path ≠ "signature.json" →
    relative verifier path ≠ "inputs.json" → relative verifier path ∈ record.files.keys

theorem proper_of_mem (member : path ∈ tree.files.keys) : Proper path := tree.named path member

variable {bytes : Bytes} {other : Tree} {otherRecord : ArtifactSignature} {others : List Key}

theorem mem_keys_of_lookup (found : tree.files.lookup path = some bytes) :
    path ∈ tree.files.keys :=
  AList.mem_keys.mp (AList.lookup_isSome.mp (isSome_of_mem found))

theorem definitionPaths_plain : ∀ path ∈ definitionPaths, ∀ name ∈ path, name.plain = true := by
  decide +kernel

theorem definitionPaths_kept : ∀ path ∈ definitionPaths,
    spelled path ≠ some "signature.json" ∧ spelled path ≠ some "inputs.json" := by
  decide +kernel

theorem migration_kept (rest : List Name) :
    spelled (.text "migrations" :: rest) ≠ some "signature.json" ∧
      spelled (.text "migrations" :: rest) ≠ some "inputs.json" := by
  have first : ∀ rel, spelled (.text "migrations" :: rest) = some rel → rel.toList.head? = some 'm' := by
    intro rel named
    obtain ⟨_, exactly, rfl⟩ := map_eq_some_iff.mp named
    rw [mapM_cons] at exactly
    obtain ⟨_, head, exactly⟩ := bind_eq_some_iff.mp exactly
    obtain ⟨others, _, same⟩ := bind_eq_some_iff.mp exactly
    cases same
    cases head
    rw [String.toList_ofList]
    cases others with
    | nil => rfl
    | cons =>
      rfl
  constructor
  · intro named
    exact absurd (first _ named) (by decide +kernel)
  · intro named
    exact absurd (first _ named) (by decide +kernel)

theorem Verified.transfer (verified : Verified verifier other others otherRecord)
    (collisionFree : ∀ first second, verifier.digest first = verifier.digest second → first = second)
    (same : ∀ rel, otherRecord.files.lookup rel = record.files.lookup rel) (proper : Proper path)
    (signed : Signed verifier record path bytes) :
    other.files.lookup path = some bytes := by
  obtain ⟨rel, named, listed⟩ := signed
  obtain ⟨_, read, digest⟩ := verified.listed rel _ ((same rel).trans listed)
  rw [read_spelled other proper named] at read
  rw [read, collisionFree _ _ digest]

section

variable (verified : Verified verifier tree trusted record)
include verified

theorem Verified.signed_of_listed
    (found : tree.files.lookup path = some bytes) (named : spelled path = some rel)
    (listed : rel ∈ record.files.keys) : Signed verifier record path bytes := by
  obtain ⟨expected, lookup⟩ :=
    isSome_iff_exists.mp (AList.lookup_isSome.mpr (AList.mem_keys.mpr listed))
  obtain ⟨_, read, digest⟩ := verified.listed rel expected lookup
  rw [read_spelled tree (proper_of_mem (mem_keys_of_lookup found)) named, found] at read
  cases read
  exact ⟨rel, named, by rw [lookup, digest]⟩

theorem Verified.signed_of_plain
    (found : tree.files.lookup path = some bytes) (plain : ∀ name ∈ path, name.plain = true)
    (kept : spelled path ≠ some "signature.json" ∧ spelled path ≠ some "inputs.json") :
    Signed verifier record path bytes := by
  have named := spelled_of_plain verifier plain
  rw [named, Ne, some.injEq, Ne, some.injEq] at kept
  have listed := verified.covered path (mem_keys_of_lookup found) kept.1 kept.2
  exact verified.signed_of_listed found named listed

theorem Verified.definition_signed
    (member : path ∈ definitionPaths) (found : tree.files.lookup path = some bytes) :
    Signed verifier record path bytes :=
  verified.signed_of_plain found (definitionPaths_plain path member) (definitionPaths_kept path member)

theorem Verified.signed_iff :
    (∀ path bytes, Bound path → tree.files.lookup path = some bytes →
      Signed verifier record path bytes) ↔ PlainMigrations tree record := by
  constructor
  · intro signed rest nonempty member
    obtain ⟨bytes, found⟩ := isSome_iff_exists.mp
      (AList.lookup_isSome.mpr (AList.mem_keys.mpr member))
    obtain ⟨rel, named, listed⟩ := signed _ bytes (.inr ⟨rest, nonempty, rfl⟩) found
    refine .inr ⟨rel, ?_, named⟩
    exact AList.mem_keys.mp (AList.lookup_isSome.mp (isSome_of_mem listed))
  · intro plain path bytes bound found
    rcases bound with member | ⟨rest, nonempty, rfl⟩
    · exact verified.definition_signed member found
    · rcases plain rest nonempty (mem_keys_of_lookup found) with plain | ⟨_, listed, named⟩
      · refine verified.signed_of_plain found ?_ (migration_kept rest)
        rw [forall_mem_cons]
        exact ⟨by decide +kernel, plain⟩
      · exact verified.signed_of_listed found named listed

theorem agree_of_signed (otherVerified : Verified verifier other others otherRecord)
    (collisionFree : ∀ first second, verifier.digest first = verifier.digest second → first = second)
    (same : ∀ rel, otherRecord.files.lookup rel = record.files.lookup rel)
    (signed : ∀ bytes, tree.files.lookup path = some bytes → Signed verifier record path bytes)
    (otherSigned : ∀ bytes, other.files.lookup path = some bytes →
      Signed verifier otherRecord path bytes) :
    other.files.lookup path = tree.files.lookup path := by
  cases found : tree.files.lookup path with
  | some bytes =>
    have proper := proper_of_mem (mem_keys_of_lookup found)
    exact otherVerified.transfer collisionFree same proper (signed bytes found)
  | none =>
    cases there : other.files.lookup path with
    | none => rfl
    | some bytes =>
      have proper := proper_of_mem (mem_keys_of_lookup there)
      have back := verified.transfer collisionFree (fun rel => (same rel).symm) proper
        (otherSigned bytes there)
      exact absurd (found.symm.trans back) (by nofun)

end

variable [DecidableEq Key]

theorem verifySignature_cases (accepted : verifySignature verifier trusted record = .ok ()) :
    ∃ key ∈ trusted, ∃ signature, verifier.verify key (verifier.toVec record.files) signature = true := by
  obtain ⟨_, accepted⟩ := ok_of_ite_error accepted
  obtain ⟨key, _, accepted⟩ := bind_ok_cases accepted
  obtain ⟨trusts, accepted⟩ := ok_of_ite_error accepted
  obtain ⟨_, _, accepted⟩ := bind_ok_cases accepted
  obtain ⟨signature, _, accepted⟩ := bind_ok_cases accepted
  split at accepted
  · cases accepted
  case isFalse verifies =>
    exact ⟨key, not_not.mp trusts, signature, Bool.not_eq_false _ ▸ verifies⟩

theorem verifyArtifact_cases (accepted : verifyArtifact verifier tree trusted = .ok record) :
    Verified verifier tree trusted record := by
  obtain ⟨_, _, accepted⟩ := bind_ok_cases accepted
  obtain ⟨_, signed, accepted⟩ := bind_ok_cases accepted
  obtain ⟨_, listed, accepted⟩ := bind_ok_cases accepted
  obtain ⟨_, covered, accepted⟩ := bind_ok_cases accepted
  cases accepted
  have listed := forM_ok_iff.mp listed
  have covered := forM_ok_iff.mp covered
  refine ⟨verifySignature_cases signed, ?_, ?_⟩
  · intro rel expected present
    have checked := listed ⟨rel, expected⟩ (AList.mem_lookup_iff.mp present)
    unfold checkListed at checked
    split at checked
    · cases checked
    case h_2 bytes read =>
      split at checked
      · cases checked
      case isFalse same => exact ⟨bytes, read, not_not.mp same⟩
  · intro path member unsigned uninput
    have inside : relative verifier path ∈ artifactFiles verifier tree := by
      unfold artifactFiles
      rw [(perm_insertionSort _ _).mem_iff, mem_filter]
      exact ⟨mem_map.mpr ⟨path, member, rfl⟩, by simp [unsigned, uninput]⟩
    have checked := covered _ inside
    obtain ⟨present, checked⟩ := ok_of_ite_error checked
    exact not_not.mp present

variable {Value Map : Type} {libraries : Libraries Value Map} {usePrecompiled : Bool}
  {definition : ApplicationDefinition Value Map}

theorem load_of_agree
    (same : ∀ path ∈ definitionPaths, other.files.lookup path = tree.files.lookup path) :
    loadArtifact libraries usePrecompiled other.dir = loadArtifact libraries usePrecompiled tree.dir := by
  simp only [definitionPaths, forall_mem_cons, not_mem_nil, false_implies, forall_true_iff,
    and_true] at same
  obtain ⟨manifest, code, map, imageMeta, image⟩ :
      other.dir .manifest = tree.dir .manifest ∧ other.dir .code = tree.dir .code ∧
        other.dir .map = tree.dir .map ∧ other.dir .imageMeta = tree.dir .imageMeta ∧
        other.dir .image = tree.dir .image := same
  simp only [loadArtifact, readDefinition, readSourceMap, loadImage, manifest, code, map, imageMeta, image]

/-- An artifact that loads under trusted keys carries a list that the holder of one of
them has signed. The files of the definition are fixed by that list. The migrations are
signed exactly if each has a plain path, or is itself listed, and are then fixed too. -/
theorem verified_artifact_binds (signed : Key → Bytes → Prop)
    (unforgeable : ∀ key message signature,
      verifier.verify key message signature = true → signed key message)
    (collisionFree : ∀ first second, verifier.digest first = verifier.digest second → first = second)
    (requires : trusted ≠ [])
    (loaded : loadArtifactTrusted verifier libraries usePrecompiled tree trusted = .ok definition) :
    ∃ record, verifyArtifact verifier tree trusted = .ok record ∧
      (∃ key ∈ trusted, signed key (verifier.toVec record.files)) ∧
      ((∀ path bytes, Bound path → tree.files.lookup path = some bytes →
        Signed verifier record path bytes) ↔ PlainMigrations tree record) ∧
      ∀ other others otherRecord, verifyArtifact verifier other others = .ok otherRecord →
        (∀ rel, otherRecord.files.lookup rel = record.files.lookup rel) →
        (∀ path ∈ definitionPaths, other.files.lookup path = tree.files.lookup path) ∧
        loadArtifact libraries usePrecompiled other.dir = .ok definition ∧
        (PlainMigrations tree record → PlainMigrations other otherRecord → ∀ rest,
          rest ≠ [] → other.files.lookup (.text "migrations" :: rest) =
            tree.files.lookup (.text "migrations" :: rest)) := by
  unfold loadArtifactTrusted at loaded
  rw [if_pos requires] at loaded
  obtain ⟨record, accepted, loaded⟩ := bind_ok_cases loaded
  have accepted := ok_of_mapError accepted
  have load := ok_of_mapError loaded
  have verified := verifyArtifact_cases accepted
  refine ⟨record, accepted, ?_, verified.signed_iff, ?_⟩
  · obtain ⟨key, trusts, signature, verifies⟩ := verified.signed
    exact ⟨key, trusts, unforgeable key _ signature verifies⟩
  · intro other others otherRecord otherAccepted same
    have otherVerified := verifyArtifact_cases otherAccepted
    have definitions : ∀ path ∈ definitionPaths, other.files.lookup path = tree.files.lookup path := by
      intro path member
      exact agree_of_signed verified otherVerified collisionFree same
        (fun _ => verified.definition_signed member) (fun _ => otherVerified.definition_signed member)
    refine ⟨definitions, (load_of_agree definitions).trans load, ?_⟩
    intro plain otherPlain rest nonempty
    have bound : Bound (.text "migrations" :: rest) := .inr ⟨rest, nonempty, rfl⟩
    exact agree_of_signed verified otherVerified collisionFree same
      (fun bytes => verified.signed_iff.mpr plain _ bytes bound)
      (fun bytes => otherVerified.signed_iff.mpr otherPlain _ bytes bound)

end

theorem sliceTo_isSome_iff : (sliceTo bytes text).isSome = true ↔
    ∃ front back, text = front ++ back ∧ (front.map Char.utf8Size).sum = bytes := by
  induction text generalizing bytes with
  | nil => cases bytes <;> simp [sliceTo, eq_comm]
  | cons char rest ih =>
    cases bytes with
    | zero => exact iff_of_true rfl ⟨[], _, rfl, rfl⟩
    | succ bytes =>
      rw [sliceTo]
      constructor
      · intro sliced
        split at sliced
        · next fits =>
          rw [isSome_map] at sliced
          obtain ⟨front, back, rfl, size⟩ := ih.mp sliced
          refine ⟨char :: front, back, rfl, ?_⟩
          rw [map_cons, sum_cons, size, Nat.add_sub_cancel' fits]
        · cases sliced
      · rintro ⟨front, back, same, size⟩
        cases front with
        | nil => cases size
        | cons _ front =>
          obtain ⟨rfl, rfl⟩ := cons.inj same
          rw [map_cons, sum_cons] at size
          rw [if_pos (by omega), isSome_map]
          exact ih.mpr ⟨front, back, rfl, by omega⟩

/-- Verification returns unless the key of the record is one that is not trusted and
the sixteenth byte of its text does not end a character. -/
theorem verification_returns_iff [DecidableEq Key] (tree : Tree) (trusted : List Key) :
    (verifyOutcome verifier tree trusted).isSome = true ↔
      ∀ record, readRecord verifier tree = .ok record → untrusted verifier trusted record = true →
        ∃ front back, record.publicKey.toList = front ++ back ∧
          (front.map Char.utf8Size).sum = 16 := by
  unfold verifyOutcome
  cases readRecord verifier tree with
  | error => exact iff_of_true rfl nofun
  | ok record =>
    dsimp only
    split
    · next unknown =>
      rw [isSome_map, sliceTo_isSome_iff]
      constructor
      · rintro cut _ ⟨⟩ _
        exact cut
      · intro cut
        exact cut record rfl unknown
    · next known => exact iff_of_true rfl fun _ same unknown => absurd (Except.ok.inj same ▸ unknown) known

def letters (bytes : Bytes) : String := String.ofList (bytes.map fun byte => Char.ofNat byte.toNat)

theorem letters_injective (same : letters first = letters second) :
    first = second := by
  have codes : Function.Injective fun byte : UInt8 => Char.ofNat byte.toNat := by
    intro byte other same
    have same := congrArg Char.toNat same
    rw [Text.toNat_ofNat_byte, Text.toNat_ofNat_byte] at same
    exact UInt8.toNat_inj.mp same
  exact map_injective_iff.mpr codes (String.ofList_injective same)

def sampleDigests : Digests :=
  [⟨"app.js", letters [1]⟩, ⟨"manifest.json", letters [2]⟩,
    ⟨"migrations/a/b.sql", letters [49]⟩].toAList

def sampleHex : List Char := (replicate 32 ['0', '7']).flatten

def sampleRecord : ArtifactSignature :=
  ⟨"ed25519", String.ofList sampleHex, sampleDigests, String.ofList sampleHex⟩

def sampleVerifier (toVec : Digests → Bytes) : Verifier Nat Bytes where
  lossy _ := "�"
  utf8 bytes := some (letters bytes)
  fromStr _ := .ok sampleRecord
  toVec
  hexDecode _ := .ok (List.replicate 32 7)
  fromBytes _ := .ok 7
  fromSlice bytes := .ok bytes
  verify key message _ := key == 7 && message == toVec sampleDigests
  digest := letters
  display := "artifact"

def boundLibraries : Libraries Unit Unit :=
  { sampleLibraries with
    fromSlice := fun _ => .ok { twoModules with codeSha256 := letters "export default app".toUTF8.toList }
    digest := letters }

def signedFiles : FiniteMap (List Name) Bytes :=
  [⟨[.text "app.js"], [1]⟩, ⟨[.text "manifest.json"], [2]⟩,
    ⟨[.text "migrations", .text "a", .text "b.sql"], [49]⟩, ⟨[.text "signature.json"], [7]⟩].toAList

def signedTree : Tree where
  files := signedFiles
  elsewhere _ := none
  named := by decide +kernel
  apart := by decide +kernel

def shadowedTree : Tree where
  files := signedFiles.insert [.text "migrations", .text "a\\b.sql"] [50]
  elsewhere _ := none
  named := by decide +kernel
  apart := by decide +kernel

def SampleSigned (toVec : Digests → Bytes) (key : Nat) (message : Bytes) : Prop :=
  key = 7 ∧ message = toVec sampleDigests

theorem sampleVerifier_unforgeable (toVec : Digests → Bytes) : ∀ key message signature,
    (sampleVerifier toVec).verify key message signature = true → SampleSigned toVec key message := by
  intro key message signature verifies
  obtain ⟨holder, list⟩ := Bool.and_eq_true_iff.mp verifies
  exact ⟨beq_iff_eq.mp holder, beq_iff_eq.mp list⟩

theorem loaded_of_isSome {Error Value : Type} {result : Except Error Value}
    (ok : result.toOption.isSome = true) : ∃ value, result = .ok value := by
  cases result with
  | ok value => exact ⟨value, rfl⟩
  | error => cases ok

theorem sample_verifies (toVec : Digests → Bytes) {tree : Tree}
    (ok : (verifyArtifact (sampleVerifier fun _ => []) tree [7]).toOption.isSome = true) :
    verifyArtifact (sampleVerifier toVec) tree [7] = .ok sampleRecord := by
  have signature : verifySignature (sampleVerifier toVec) [7] sampleRecord = .ok () := by
    have key : parsePublicKey (sampleVerifier toVec) sampleRecord.publicKey = .ok 7 := rfl
    simp only [verifySignature, key, bind, Except.bind]
    simp [sampleVerifier, sampleRecord, Except.mapError]
    rfl
  obtain ⟨_, accepted⟩ := loaded_of_isSome ok
  obtain ⟨record, read, accepted⟩ := bind_ok_cases accepted
  have same : record = sampleRecord := by
    unfold readRecord at read
    split at read
    · cases read
    · exact (Except.ok.inj read).symm
  subst same
  obtain ⟨_, _, accepted⟩ := bind_ok_cases accepted
  obtain ⟨_, listed, accepted⟩ := bind_ok_cases accepted
  obtain ⟨_, covered, _⟩ := bind_ok_cases accepted
  have read : readRecord (sampleVerifier toVec) tree = .ok sampleRecord := read
  have listed : (sampleRecord.files.entries.forM fun entry =>
      checkListed (sampleVerifier toVec) tree entry.1 entry.2) = .ok () := listed
  have covered : (artifactFiles (sampleVerifier toVec) tree).forM
      (checkCovered sampleRecord.files) = .ok () := covered
  simp only [verifyArtifact, read, signature, listed, covered, bind, Except.bind]
  rfl

theorem sample_loads (toVec : Digests → Bytes) {tree : Tree}
    (ok : (loadArtifactTrusted (sampleVerifier fun _ => []) boundLibraries true tree
      [7]).toOption.isSome = true) :
    ∃ definition, loadArtifactTrusted (sampleVerifier toVec) boundLibraries true tree [7] =
      .ok definition := by
  obtain ⟨definition, loaded⟩ := loaded_of_isSome ok
  unfold loadArtifactTrusted at loaded ⊢
  rw [if_pos (by decide)] at loaded ⊢
  obtain ⟨_, accepted, loaded⟩ := bind_ok_cases loaded
  rw [sample_verifies toVec (by rw [ok_of_mapError accepted]; rfl)]
  exact ⟨definition, loaded⟩

theorem signedTree_plain (record : ArtifactSignature) : PlainMigrations signedTree record := by
  have plain : ∀ path ∈ signedTree.files.keys, ∀ name ∈ path, name.plain = true := by decide +kernel
  intro rest _ member
  exact .inl (forall_mem_cons.mp (plain _ member)).2

/-- The nested migration of the signed tree is what the holder of the key signed. -/
theorem verified_artifact_binds_nested :
    ∃ record, verifyArtifact (sampleVerifier fun _ => []) signedTree [7] = .ok record ∧
      (∃ key ∈ [7], SampleSigned (fun _ => []) key ((sampleVerifier fun _ => []).toVec record.files)) ∧
      Signed (sampleVerifier fun _ => []) record
        [.text "migrations", .text "a", .text "b.sql"] [49] := by
  obtain ⟨_, loaded⟩ := sample_loads (fun _ => [])
    (show (loadArtifactTrusted _ _ true signedTree _).toOption.isSome = true by decide +kernel)
  obtain ⟨record, accepted, signed, bound, _⟩ := verified_artifact_binds (SampleSigned fun _ => [])
    (sampleVerifier_unforgeable _) (fun _ _ => letters_injective) (by decide) loaded
  refine ⟨record, accepted, signed, bound.mpr (signedTree_plain record) _ _ ?_ (by decide +kernel)⟩
  exact .inr ⟨_, by decide, rfl⟩

/-- A file whose name has a backslash passes for the nested file of that spelling: both
trees load under one signed list, and one has a migration that nobody signed. -/
theorem shadow_migration_verifies :
    Bound [.text "migrations", .text "a\\b.sql"] ∧
      signedTree.files.lookup [.text "migrations", .text "a\\b.sql"] = none ∧
      shadowedTree.files.lookup [.text "migrations", .text "a\\b.sql"] = some [50] ∧
      ∀ toVec : Digests → Bytes,
        (∀ first second, (sampleVerifier toVec).digest first = (sampleVerifier toVec).digest second →
          first = second) ∧
        (∀ key message signature, (sampleVerifier toVec).verify key message signature = true →
          SampleSigned toVec key message) ∧
        (∃ definition, loadArtifactTrusted (sampleVerifier toVec) boundLibraries true signedTree [7] =
          .ok definition) ∧
        (∃ definition, loadArtifactTrusted (sampleVerifier toVec) boundLibraries true shadowedTree [7] =
          .ok definition) ∧
        verifyArtifact (sampleVerifier toVec) signedTree [7] = .ok sampleRecord ∧
        verifyArtifact (sampleVerifier toVec) shadowedTree [7] = .ok sampleRecord := by
  refine ⟨.inr ⟨_, ?_, rfl⟩, ?_, ?_, fun toVec => ⟨fun _ _ => letters_injective,
    sampleVerifier_unforgeable toVec, sample_loads toVec ?_, sample_loads toVec ?_,
    sample_verifies toVec ?_, sample_verifies toVec ?_⟩⟩ <;> decide +kernel

/-- Six ideographic spaces in front of a key that is not trusted. -/
theorem verification_panics : verifyOutcome
    { sampleVerifier fun _ => [] with
      fromStr := fun _ => .ok { sampleRecord with
        publicKey := String.ofList (replicate 6 '　' ++ sampleHex) } }
    signedTree [8] = none := by
  decide +kernel

end Usai.Build
