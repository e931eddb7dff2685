import Mathlib.Data.List.DropRight
import Usai.Json
import Usai.Slots
import Usai.Tally
import Usai.Transition

/-! The `crypto` operations of `host_ops.rs`: Argon2 and signature checks on the blocking
pool, and `HASHING`, by which the last of a burst knows to trim the heap. -/

namespace Usai.Execution

open List Option Slots Tally Transition

structure PublicKeyVerification where
  (algorithm hash kty n e x y crv signature data : String)

inductive CryptoRequest where
  | passwordHash (password : String)
  | passwordVerify (password hash : String)
  | verifyPublic (request : PublicKeyVerification)

structure CryptoLibraries (Hash : Type) where
  fromStr : String → Except String CryptoRequest
  urlSafeNoPad : String → Except String (List UInt8)
  standard : String → Except String (List UInt8)
  encodeB64 : List UInt8 → Except String String
  hashPassword : String → String → Except String String
  parseHash : String → Except String Hash
  verifyPassword : String → Hash → Bool
  verifyRsa : String → String → List UInt8 × List UInt8 → List UInt8 → List UInt8 → Bool
  verifyEcdsa : String → List UInt8 → List UInt8 → List UInt8 → Bool

variable {Hash : Type} (libraries : CryptoLibraries Hash)

def b64url (value : String) : Except String (List UInt8) :=
  (libraries.urlSafeNoPad (String.ofList (value.toList.rdropWhile (· = '=')))).mapError
    ("not base64url: " ++ ·)

def b64 (value : String) : Except String (List UInt8) :=
  (libraries.standard value).mapError ("not base64: " ++ ·)

def verifyPublic (request : PublicKeyVerification) : Except String Bool := do
  let signature ← b64 libraries request.signature
  let data ← b64 libraries request.data
  if request.kty = "RSA" ∧ request.algorithm ∈ ["RSASSA-PKCS1-v1_5", "RSA-PSS"] then
    let n ← b64url libraries request.n
    let e ← b64url libraries request.e
    if request.hash ∉ ["SHA-256", "SHA-384", "SHA-512"] then
      throw (request.algorithm ++ " with " ++ request.hash ++ " is not supported")
    return libraries.verifyRsa request.algorithm request.hash (n, e) data signature
  else if request.kty = "EC" ∧ request.algorithm = "ECDSA" then
    let expected ←
      if request.crv = "P-256" ∧ request.hash = "SHA-256" then pure 32
      else if request.crv = "P-384" ∧ request.hash = "SHA-384" then pure 48
      else throw ("ECDSA " ++ request.crv ++ " with " ++ request.hash ++ " is not supported")
    let x ← b64url libraries request.x
    let y ← b64url libraries request.y
    if x.length ≠ expected ∨ y.length ≠ expected then
      throw (request.crv ++ " coordinates are " ++ toString x.length ++ " and " ++
        toString y.length ++ " bytes, expected " ++ toString expected)
    return libraries.verifyEcdsa request.crv (0x04 :: x ++ y) data signature
  else
    throw ("a " ++ request.kty ++ " key with " ++ request.algorithm ++
      " is not supported (RSA with RSASSA-PKCS1-v1_5 or RSA-PSS, EC with ECDSA)")

/-- The `match` of the closure. An error outside is a `?` that leaves the closure. -/
def cryptoWork (entropy : Except String (List UInt8)) :
    CryptoRequest → Except String (Except String Json)
  | .passwordHash password => do
    let salt ← libraries.encodeB64 (← entropy)
    return (libraries.hashPassword password salt).map .string
  | .passwordVerify password hash => do
    let parsed ← (libraries.parseHash hash).mapError ("not a PHC password hash: " ++ ·)
    return .ok (.bool (libraries.verifyPassword password parsed))
  | .verifyPublic request => return (verifyPublic libraries request).map .bool

inductive CryptoStage where
  | refused
  | queued (request : CryptoRequest)
  | counted (request : CryptoRequest)
  | worked (result : Except String Json)
  | trimming (result : Except String Json)
  | returned (result : Except String Json)
  | left (request : CryptoRequest) (message : String)

namespace CryptoStage

@[simp] def ended : CryptoStage → Bool
  | .refused | .returned _ | .left _ _ => true
  | .queued _ | .counted _ | .worked _ | .trimming _ => false

def outcome : Bool → CryptoStage → Option (Except (String × Nat × String) Json)
  | true, _ => some (.error ("cancelled", 499, "cancelled with its world"))
  | false, .returned result => some (result.mapError (("crypto_error", 500, ·)))
  | false, .left _ e => some (.error ("crypto_error", 500, e))
  | false, _ => none

@[simp] def leaves : CryptoStage → Int
  | .left _ _ => 1
  | _ => 0

end CryptoStage

structure CryptoOp where
  stage : CryptoStage
  outcome : Option (Except (String × Nat × String) Json)

/-- `freed` counts the works that freed their memory after the last `release_heap`. -/
structure Crypto where
  hashing : Nat
  ops : List CryptoOp
  freed : Nat

inductive CryptoLabel where
  | crypto (payload : String)
  | fetchAdd (index : Nat)
  | work (index : Nat) (entropy : Except String (List UInt8))
  | fetchSub (index : Nat)
  | releaseHeap (index : Nat)
  | answer (index : Nat) (cancelled : Bool)

namespace Crypto

def new : Crypto := ⟨0, [], 0⟩

def step (crypto : Crypto) : CryptoLabel → Option Crypto
  | .crypto payload =>
    let op := match libraries.fromStr payload with
      | .ok request => ⟨.queued request, none⟩
      | .error e => ⟨.refused, some (.error ("invalid_crypto_request", 500, e))⟩
    some { crypto with ops := crypto.ops ++ [op] }
  | .fetchAdd index => do
    let op ← crypto.ops[index]?
    let .queued request := op.stage | none
    some ⟨crypto.hashing + 1, crypto.ops.set index ⟨.counted request, op.outcome⟩, crypto.freed⟩
  | .work index entropy => do
    let op ← crypto.ops[index]?
    let .counted request := op.stage | none
    match cryptoWork libraries entropy request with
    | .ok result =>
      some ⟨crypto.hashing, crypto.ops.set index ⟨.worked result, op.outcome⟩, crypto.freed + 1⟩
    | .error e =>
      some ⟨crypto.hashing, crypto.ops.set index ⟨.left request e, op.outcome⟩, crypto.freed⟩
  | .fetchSub index => do
    let op ← crypto.ops[index]?
    let .worked result := op.stage | none
    let stage := if crypto.hashing = 1 then .trimming result else .returned result
    some ⟨crypto.hashing - 1, crypto.ops.set index ⟨stage, op.outcome⟩, crypto.freed⟩
  | .releaseHeap index => do
    let op ← crypto.ops[index]?
    let .trimming result := op.stage | none
    some ⟨crypto.hashing, crypto.ops.set index ⟨.returned result, op.outcome⟩, 0⟩
  -- a cancelled operation drops the handle of its closure, which goes on
  | .answer index cancelled => do
    let op ← crypto.ops[index]?
    let outcome ← op.stage.outcome cancelled
    some { crypto with ops := crypto.ops.set index { op with outcome := op.outcome.or (some outcome) } }

def idle (crypto : Crypto) : Bool := crypto.ops.all (fun op => op.stage.ended)

def left (crypto : Crypto) : Int := (crypto.ops.map (fun op => op.stage.leaves)).sum

end Crypto

namespace CryptoStage

@[simp] def share : CryptoStage → Int
  | .counted _ | .worked _ | .left _ _ => 1
  | .refused | .queued _ | .trimming _ | .returned _ => 0

@[simp] def busy : CryptoStage → Bool
  | .counted _ | .worked _ | .left _ _ | .trimming _ => true
  | .refused | .queued _ | .returned _ => false

end CryptoStage

def CryptoRequest.Works (entropy : Except String (List UInt8)) : CryptoRequest → Prop
  | .passwordHash _ => ∃ bytes salt, entropy = .ok bytes ∧ libraries.encodeB64 bytes = .ok salt
  | .passwordVerify _ hash => ∃ parsed, libraries.parseHash hash = .ok parsed
  | .verifyPublic _ => True

theorem cryptoWork_ok_iff (entropy : Except String (List UInt8)) (request : CryptoRequest) :
    (∃ result, cryptoWork libraries entropy request = .ok result) ↔
      request.Works libraries entropy := by
  cases request with
  | passwordHash password =>
    cases entropy with
    | error => exact iff_of_false nofun nofun
    | ok bytes =>
      have salted : cryptoWork libraries (.ok bytes) (.passwordHash password) =
          (libraries.encodeB64 bytes).bind fun salt =>
            .ok ((libraries.hashPassword password salt).map .string) := rfl
      rw [salted]
      cases encoded : libraries.encodeB64 bytes with
      | error =>
        refine iff_of_false nofun ?_
        rintro ⟨_, _, ⟨⟩, same⟩
        cases encoded.symm.trans same
      | ok salt => exact iff_of_true ⟨_, rfl⟩ ⟨bytes, salt, rfl, encoded⟩
  | passwordVerify _ hash =>
    simp only [cryptoWork, CryptoRequest.Works]
    cases libraries.parseHash hash with
    | error => exact iff_of_false nofun nofun
    | ok parsed => exact iff_of_true ⟨_, rfl⟩ ⟨parsed, rfl⟩
  | verifyPublic => exact iff_of_true ⟨_, rfl⟩ trivial

def Crypto.Works (crypto : Crypto) : CryptoLabel → Prop
  | .work index entropy => ∀ op request, crypto.ops[index]? = some op →
      op.stage = .counted request → request.Works libraries entropy
  | _ => True

namespace Crypto

def shares (ops : List CryptoOp) : Int := (ops.map (fun op => op.stage.share)).sum

structure Balanced (crypto : Crypto) : Prop where
  counter : crypto.hashing = shares crypto.ops
  held : 0 < crypto.freed → ∃ op ∈ crypto.ops, op.stage.busy = true

variable {libraries} {crypto next : Crypto} {index : Nat} {op after : CryptoOp}

theorem share_zero (quiet : op.stage.busy ≠ true) : op.stage.share = 0 := by
  cases stage : op.stage <;> simp_all

theorem shares_nonneg (ops : List CryptoOp) : 0 ≤ shares ops := by
  refine sum_map_nonneg ?_
  intro op _
  cases op.stage <;> simp

section

variable (found : crypto.ops[index]? = some op)
include found

theorem shares_set (after : CryptoOp) :
    shares (crypto.ops.set index after) = shares crypto.ops - op.stage.share + after.stage.share :=
  sum_map_set after (fun op => op.stage.share) found

variable (balanced : Balanced crypto)
include balanced

theorem Balanced.moved {count freed : Nat}
    (counter : count = crypto.hashing - op.stage.share + after.stage.share)
    (held : after.stage.busy = true ∨ freed = 0 ∨
      freed = crypto.freed ∧ (op.stage.busy = true → after.stage.busy = true)) :
    Balanced ⟨count, crypto.ops.set index after, freed⟩ where
  counter := by
    rw [counter, balanced.counter, shares_set found]
  held := by
    intro positive
    rcases held with busy | rfl | ⟨rfl, keeps⟩
    · exact ⟨after, mem_set (List.getElem?_eq_some_iff.mp found).1 after, busy⟩
    · cases positive
    · exact exists_set found keeps (balanced.held positive)

theorem Balanced.fetchSub (worked : op.stage = .worked result)
    (trims : (if crypto.hashing = 1 then .trimming result else .returned result) = stage) :
    Balanced
      ⟨crypto.hashing - 1, crypto.ops.set index ⟨stage, op.outcome⟩, crypto.freed⟩ := by
  have counter := balanced.counter
  have none : stage.share = 0 := by
    rw [← trims]
    split <;> rfl
  have total : shares (crypto.ops.set index ⟨stage, op.outcome⟩) = shares crypto.ops - 1 := by
    rw [shares_set found, worked, none]
    exact Int.add_zero _
  have nonneg := shares_nonneg (crypto.ops.set index ⟨stage, op.outcome⟩)
  refine ⟨?_, ?_⟩
  · dsimp only
    omega
  · intro _
    by_contra quiet
    have zero : shares (crypto.ops.set index ⟨stage, op.outcome⟩) = 0 :=
      sum_map_zero fun op member => share_zero fun busy => quiet ⟨op, member, busy⟩
    have last : crypto.hashing = 1 := by omega
    rw [if_pos last] at trims
    exact quiet ⟨_, mem_set (List.getElem?_eq_some_iff.mp found).1 _, by rw [← trims]; rfl⟩

end

section

variable (balanced : Balanced crypto)
include balanced

theorem Balanced.step (taken : crypto.step libraries label = some next) :
    Balanced next := by
  cases label with
  | crypto payload =>
    cases taken
    have counter := balanced.counter
    cases libraries.fromStr payload with
    | ok | error =>
      refine ⟨?_, fun freed => exists_append (balanced.held freed)⟩
      simpa [shares] using counter
  | fetchAdd =>
    obtain ⟨op, found, taken⟩ := bind_eq_some_iff.mp taken
    split at taken <;> cases taken
    next queued =>
    exact balanced.moved found (by simp [queued]) (.inl rfl)
  | work =>
    obtain ⟨op, found, taken⟩ := bind_eq_some_iff.mp taken
    split at taken <;> try cases taken
    next counted =>
    split at taken <;> cases taken
    · exact balanced.moved found (by simp [counted]) (.inl rfl)
    · exact balanced.moved found (by simp [counted]) (.inl rfl)
  | fetchSub =>
    obtain ⟨op, found, taken⟩ := bind_eq_some_iff.mp taken
    split at taken <;> cases taken
    next worked =>
    exact balanced.fetchSub found worked rfl
  | releaseHeap =>
    obtain ⟨op, found, taken⟩ := bind_eq_some_iff.mp taken
    split at taken <;> cases taken
    next trimming =>
    exact balanced.moved found (by simp [trimming]) (.inr (.inl rfl))
  | answer =>
    obtain ⟨op, found, taken⟩ := bind_eq_some_iff.mp taken
    obtain ⟨_, _, taken⟩ := bind_eq_some_iff.mp taken
    cases taken
    exact balanced.moved found (by simp) (.inr (.inr ⟨rfl, id⟩))

theorem Balanced.settled (idle : crypto.idle = true) :
    crypto.hashing = crypto.left ∧ (crypto.left = 0 → crypto.freed = 0) := by
  have ended := all_eq_true.mp idle
  have same : shares crypto.ops = crypto.left := by
    refine congrArg sum (map_congr_left ?_)
    intro op member
    have ended := ended op member
    cases stage : op.stage <;> simp_all
  refine ⟨balanced.counter.trans same, ?_⟩
  intro none
  by_contra freed
  obtain ⟨op, member, busy⟩ := balanced.held (Nat.pos_of_ne_zero freed)
  have nonneg : ∀ leaves ∈ crypto.ops.map (fun op => op.stage.leaves), 0 ≤ leaves :=
    forall_mem_map.mpr fun op _ => by cases op.stage <;> simp
  -- one that is over and still has its share has left
  have one := single_le_sum nonneg _ (mem_map_of_mem member)
  have ended := ended op member
  rw [left] at none
  cases stage : op.stage <;> simp_all

end

theorem left_nonneg (crypto : Crypto) : 0 ≤ crypto.left := by
  refine sum_map_nonneg ?_
  intro op _
  cases op.stage <;> simp

theorem left_set (found : crypto.ops[index]? = some op) (count freed : Nat) :
    left ⟨count, crypto.ops.set index after, freed⟩ =
      crypto.left - op.stage.leaves + after.stage.leaves :=
  sum_map_set after (fun op => op.stage.leaves) found

theorem step_left (taken : crypto.step libraries label = some next) :
    next.left = crypto.left ∧ crypto.Works libraries label ∨
      next.left = crypto.left + 1 ∧ ¬ crypto.Works libraries label := by
  cases label with
  | crypto payload =>
    cases taken
    refine .inl ⟨?_, trivial⟩
    cases libraries.fromStr payload with
    | ok | error => simp [left]
  | fetchAdd =>
    obtain ⟨op, found, taken⟩ := bind_eq_some_iff.mp taken
    split at taken <;> cases taken
    next queued => exact .inl ⟨(left_set found _ _).trans (by simp [queued]), trivial⟩
  | work =>
    obtain ⟨op, found, taken⟩ := bind_eq_some_iff.mp taken
    split at taken <;> try cases taken
    next request counted =>
    have works := cryptoWork_ok_iff libraries ‹_› request
    split at taken <;> cases taken
    · next result worked =>
      refine .inl ⟨(left_set found _ _).trans (by simp [counted]), ?_⟩
      rintro other asked there stage
      cases found.symm.trans there
      cases counted.symm.trans stage
      exact works.mp ⟨result, worked⟩
    · next e failed =>
      refine .inr ⟨(left_set found _ _).trans (by simp [counted]), fun all => ?_⟩
      obtain ⟨_, worked⟩ := works.mpr (all op request found counted)
      cases failed.symm.trans worked
  | fetchSub =>
    obtain ⟨op, found, taken⟩ := bind_eq_some_iff.mp taken
    split at taken <;> cases taken
    next worked =>
    refine .inl ⟨(left_set found _ _).trans ?_, trivial⟩
    split <;> simp [worked]
  | releaseHeap =>
    obtain ⟨op, found, taken⟩ := bind_eq_some_iff.mp taken
    split at taken <;> cases taken
    next trimming => exact .inl ⟨(left_set found _ _).trans (by simp [trimming]), trivial⟩
  | answer =>
    obtain ⟨op, found, taken⟩ := bind_eq_some_iff.mp taken
    obtain ⟨_, _, taken⟩ := bind_eq_some_iff.mp taken
    cases taken
    exact .inl ⟨(left_set found _ _).trans (by simp), trivial⟩

theorem run_left {labels : List CryptoLabel}
    (reached : exec (step libraries) crypto labels = some next) :
    next.left = 0 ↔ crypto.left = 0 ∧ Meets (step libraries) (Works libraries) crypto labels := by
  induction labels generalizing crypto with
  | nil =>
    cases reached
    exact (and_iff_left trivial).symm
  | cons label _ ih =>
    obtain ⟨middle, taken, reached⟩ := bind_eq_some_iff.mp reached
    rw [ih reached]
    simp only [Meets, taken]
    have nonneg := left_nonneg crypto
    rcases step_left taken with ⟨same, works⟩ | ⟨more, leaves⟩
    · simp [same, works]
    · have positive : middle.left ≠ 0 := by omega
      simp [positive, leaves]

/-- Once all operations of a run have finished, the counter is zero exactly if each closure
did its work without leaving by a `?`: every hash to verify against parsed, and every new
hash got its salt. The heap was then trimmed after the last of them. -/
theorem hashing_settled (libraries : CryptoLibraries Hash) (labels : List CryptoLabel)
    (crypto : Crypto) (reached : exec (step libraries) new labels = some crypto)
    (idle : crypto.idle = true) :
    (crypto.hashing = 0 ↔ Meets (step libraries) (Works libraries) new labels) ∧
      (crypto.hashing = 0 → crypto.freed = 0) := by
  have balanced : Along (step libraries) Balanced new labels :=
    along_of_meets (fun _ _ _ balanced _ => balanced.step) ⟨rfl, nofun⟩ (meets_true new labels)
  obtain ⟨counter, trimmed⟩ := (along_reached balanced reached).settled idle
  have none : crypto.hashing = 0 ↔ crypto.left = 0 := by omega
  refine ⟨none.trans ((run_left reached).trans (and_iff_right rfl)), ?_⟩
  intro zero
  exact trimmed (none.mp zero)

def phcOnly : CryptoLibraries Unit where
  fromStr payload := .ok (.passwordVerify "secret" payload)
  urlSafeNoPad _ := .ok []
  standard _ := .ok []
  encodeB64 _ := .ok ""
  hashPassword _ _ := .ok ""
  parseHash hash := if hash = "$argon2id" then .ok () else .error "invalid"
  verifyPassword _ _ := true
  verifyRsa _ _ _ _ _ := true
  verifyEcdsa _ _ _ _ := true

theorem hashing_settled_verified : Meets (step phcOnly) (Works phcOnly) new
    [.crypto "$argon2id", .fetchAdd 0, .work 0 (.ok []), .fetchSub 0, .releaseHeap 0,
      .answer 0 false] :=
  (hashing_settled phcOnly _ ⟨0, [⟨.returned (.ok (.bool true)), some (.ok (.bool true))⟩], 0⟩
    rfl rfl).1.mp rfl

/-- After one hash that does not parse, the next verification ends with the counter at
one and its memory not given back. -/
theorem hashing_leaks :
    (exec (step phcOnly) new [.crypto "plain", .fetchAdd 0, .work 0 (.ok []), .answer 0 false,
      .crypto "$argon2id", .fetchAdd 1, .work 1 (.ok []), .fetchSub 1, .answer 1 false]).map
        (fun crypto => (crypto.idle, crypto.hashing, crypto.freed)) = some (true, 1, 1) := by
  decide

end Crypto

end Usai.Execution
