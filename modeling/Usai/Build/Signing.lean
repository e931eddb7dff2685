import Usai.Build.Artifact
import Usai.Text

/-! Signed artifacts (`signing.rs`): `verify_artifact`, which compares a directory
tree with a signed list of digests in both directions, and `load_artifact_trusted`.
The hash, the signature scheme and the JSON library are parameters. -/

namespace Usai.Build

/-- A file name of the operating system: text, or bytes that are not UTF-8. -/
inductive Name where
  | text (name : String)
  | raw (bytes : Bytes)
  deriving DecidableEq, Repr

def Name.proper : Name → Bool
  | .text name => name ≠ "" && name ≠ "." && name ≠ ".." && !name.toList.contains '/'
  | .raw _ => true

/-- A directory tree, as its files by their path from the root. No file is a
directory on the way to another. `elsewhere` answers for the paths that are not
plain ones (absolute, or through `.`, `..` or an empty name). -/
structure Tree where
  files : FiniteMap (List Name) Bytes
  elsewhere : String → Option Bytes
  named : ∀ path ∈ files.keys, path ≠ [] ∧ ∀ name ∈ path, name.proper = true
  apart : ∀ path ∈ files.keys, ∀ other ∈ files.keys, path <+: other → path = other

def plainPath (rel : String) : Option (List Name) :=
  let parts := (rel.toList.splitOn '/').map (fun part => Name.text (String.ofList part))
  if parts.all Name.proper then some parts else none

def Tree.read (tree : Tree) (rel : String) : Option Bytes :=
  match plainPath rel with
  | some path => tree.files.lookup path
  | none => tree.elsewhere rel

def Tree.dir (tree : Tree) : Dir
  | .code => tree.read "app.js"
  | .map => tree.read "app.js.map"
  | .manifest => tree.read "manifest.json"
  | .image => tree.read "cache/image.cwasm"
  | .imageMeta => tree.read "cache/image.json"
  | .signature => tree.read "signature.json"
  | .migration name => tree.read ("migrations/" ++ name)
  | .inputs => tree.read "inputs.json"

section

abbrev Digests := FiniteMap String String

structure ArtifactSignature where
  algorithm : String
  publicKey : String
  files : Digests
  signature : String

inductive SigningError where
  | key (detail : String)
  | io (detail : String)
  | invalid (detail : String)
  deriving DecidableEq, Repr

structure Verifier (Key Signature : Type) where
  lossy : Bytes → String
  utf8 : Bytes → Option String
  fromStr : String → Except String ArtifactSignature
  toVec : Digests → Bytes
  hexDecode : String → Except String Bytes
  fromBytes : Bytes → Except String Key
  fromSlice : Bytes → Except String Signature
  verify : Key → Bytes → Signature → Bool
  digest : Bytes → String
  display : String

variable {Key Signature : Type} (verifier : Verifier Key Signature)

def Name.lossy : Name → String
  | .text name => name
  | .raw bytes => verifier.lossy bytes

def relative (path : List Name) : String :=
  String.ofList (((['/'] : List Char).intercalate (path.map fun name => (name.lossy verifier).toList)).map
    fun char => if char = '\\' then '/' else char)

def artifactFiles (tree : Tree) : List String :=
  ((tree.files.keys.map (relative verifier)).filter
    fun rel => rel ≠ "signature.json" && rel ≠ "inputs.json").insertionSort (· ≤ ·)

def parsePublicKey (hexText : String) : Except SigningError Key := do
  let trimmed := String.ofList (Text.trim Text.unicodeSpace hexText.toList)
  let bytes ← (verifier.hexDecode trimmed).mapError (fun e => .key ("public key is not hex: " ++ e))
  if bytes.length ≠ 32 then throw (.key "public key must be 32 bytes")
  (verifier.fromBytes bytes).mapError .key

/-- `&text[..bytes]`, which panics past the end of the text and inside of a character. -/
def sliceTo : Nat → List Char → Option (List Char)
  | 0, _ => some []
  | _ + 1, [] => none
  | bytes + 1, char :: rest =>
    if char.utf8Size ≤ bytes + 1 then (sliceTo (bytes + 1 - char.utf8Size) rest).map (char :: ·)
    else none

variable [DecidableEq Key]

def verifySignature (trusted : List Key) (record : ArtifactSignature) : Except SigningError Unit := do
  if record.algorithm ≠ "ed25519" then
    throw (.invalid ("signature.json: unsupported algorithm " ++ record.algorithm))
  let key ← parsePublicKey verifier record.publicKey
  if key ∉ trusted then
    throw (.invalid ("artifact is signed by " ++ String.ofList ((sliceTo 16 record.publicKey.toList).getD []) ++
      "…, which this runtime does not trust: pass that key to --require-signature if it is yours, or rebuild and sign with the key this runtime was started with (`usai build --sign <key-file>`)"))
  let bytes ← (verifier.hexDecode record.signature).mapError
    (fun e => .invalid ("signature.json: signature is not hex: " ++ e))
  let signature ← (verifier.fromSlice bytes).mapError (fun e => .invalid ("signature.json: " ++ e))
  if verifier.verify key (verifier.toVec record.files) signature = false then
    throw (.invalid "artifact signature does not verify: the signature was made for different bytes than the ones in signature.json - re-sign the artifact (`usai build --sign <key-file>`)")

def checkListed (tree : Tree) (rel expected : String) : Except SigningError Unit :=
  match tree.read rel with
  | none => throw (.invalid ("signed file " ++ rel ++ " is missing from the artifact"))
  | some bytes =>
    if verifier.digest bytes ≠ expected then
      throw (.invalid (rel ++
        " does not match its signed digest (the artifact was modified after signing)"))
    else pure ()

def checkCovered (files : Digests) (rel : String) : Except SigningError Unit :=
  if rel ∉ files.keys then throw (.invalid (rel ++ " is present but not covered by the signature"))
  else pure ()

def readRecord (tree : Tree) : Except SigningError ArtifactSignature :=
  match (tree.read "signature.json").bind verifier.utf8 with
  | none => throw (.invalid (verifier.display ++
      " has no signature.json; this runtime requires signed artifacts (`usai build --sign <key>`)"))
  | some text => (verifier.fromStr text).mapError (fun e => .invalid ("signature.json: " ++ e))

def verifyArtifact (tree : Tree) (trusted : List Key) : Except SigningError ArtifactSignature := do
  let record ← readRecord verifier tree
  verifySignature verifier trusted record
  record.files.entries.forM (fun entry => checkListed verifier tree entry.1 entry.2)
  (artifactFiles verifier tree).forM (checkCovered record.files)
  pure record

def untrusted (trusted : List Key) (record : ArtifactSignature) : Bool :=
  record.algorithm == "ed25519" && match parsePublicKey verifier record.publicKey with
    | .ok key => key ∉ trusted
    | .error _ => false

/-- `verify_artifact` with its panics: only the error about a key that is not trusted
slices a text. -/
def verifyOutcome (tree : Tree) (trusted : List Key) :
    Option (Except SigningError ArtifactSignature) :=
  match readRecord verifier tree with
  | .ok record =>
    if untrusted verifier trusted record then
      (sliceTo 16 record.publicKey.toList).map fun _ => verifyArtifact verifier tree trusted
    else some (verifyArtifact verifier tree trusted)
  | .error error => some (.error error)

inductive LoadError where
  | signature (error : SigningError)
  | build (error : BuildError)
  deriving DecidableEq, Repr

variable {Value Map : Type} (libraries : Libraries Value Map)

/-- `load_artifact`, refusing first when the runtime requires a signature and the
artifact's does not verify. -/
def loadArtifactTrusted (usePrecompiled : Bool) (tree : Tree) (trusted : List Key) :
    Except LoadError (ApplicationDefinition Value Map) := do
  if trusted ≠ [] then
    let _ ← (verifyArtifact verifier tree trusted).mapError .signature
  (loadArtifact libraries usePrecompiled tree.dir).mapError .build

end

end Usai.Build
