import Usai.Json
import Usai.Queue.Table

/-! `ctx.queue.publish` from the call in a world to the row in the table: the
guest's encoding (`runtime/context.ts`), the host's decoding and insert
(`workloads/queue.rs`), and the consumers that may claim the row. -/

namespace Usai.Queue

open Transition

structure TxMarker where
  resource : String
  lease : Nat
  deriving DecidableEq, Repr

/-- The options of `publish`. `tx` holds the marker of what was passed there,
when it has one. -/
structure PublishOptions where
  delayMs : Option Nat
  database : Option String
  tx : Option (Option TxMarker)
  deriving DecidableEq, Repr

def notATransaction : String :=
  "queue.publish(\x7b tx \x7d) wants the executor `transaction(async (tx) => …)` gave you; " ++
    "the resource handle itself is not a transaction, and publishing through it would " ++
    "commit on its own connection — which is the thing `tx` is for avoiding"

def publishPayload (topic : String) (message : Json) (options : PublishOptions) :
    Except String Json :=
  match options.tx with
  | some none => .error notATransaction
  | some (some tx) => .ok (payload (some tx.resource) (some tx.lease))
  | none => .ok (payload options.database none)
where
  payload (database : Option String) (lease : Option Nat) : Json :=
    .object ([("topic", .string topic), ("message", message)] ++
      Json.given "delayMs" (options.delayMs.map (fun delay => .number delay)) ++
      Json.given "database" (database.map .string) ++
      Json.given "lease" (lease.map (fun lease => .number lease)))

structure PublishRequest where
  topic : String
  message : Json
  database : Option String
  delayMs : Option Nat
  lease : Option Nat

/-- The derived `Deserialize`: no name is changed, every member but the topic
may be missing, and other members are ignored. -/
def PublishRequest.deserialize (json : Json) : Option PublishRequest := do
  let topic ← json.required "topic" Json.text
  let message ← json.defaulted "message" .null some
  let database ← json.absent "database" Json.text
  let delayMs ← json.absent "delay_ms" (Json.unsigned 64)
  let lease ← json.absent "lease" (Json.unsigned 64)
  some ⟨topic, message, database, delayMs, lease⟩

section

-- How the database prints a document.
variable (render : Json → String)

def publishStart (store : Store) (payload : Json) : Option Store := do
  let request ← PublishRequest.deserialize payload
  some (store.publish request.topic (render request.message) (request.delayMs.getD 0))

def publish (store : Store) (topic : String) (message : Json) (options : PublishOptions) :
    Option Store :=
  (publishPayload topic message options).toOption.bind (publishStart render store)

def delayed (delay : Nat) : PublishOptions := ⟨some delay, none, none⟩

theorem publish_delayed (store : Store) (topic : String) (message : Json) (delay : Nat) :
    publish render store topic message (delayed delay) =
      some (store.publish topic (render message) 0) := rfl

end

namespace Store

variable {store next : Store}

theorem step_clock {label : Label} (taken : store.step label = some next) :
    store.clock ≤ next.clock := by
  cases label with
  | tick =>
    cases taken
    exact Nat.le_add_right _ _
  | publish | spawn | sweepReady | sweepDead | forget =>
    cases taken
    exact Nat.le_refl _
  | claim _ _ answered =>
    obtain ⟨consumer, _, claims⟩ := Option.bind_eq_some_iff.mp taken
    obtain ⟨_, _, _, _, rfl⟩ := claim_cases claims
    cases answered <;> exact Nat.le_refl _
  | reject _ applied =>
    obtain ⟨consumer, _, rejects⟩ := Option.bind_eq_some_iff.mp taken
    obtain ⟨claimed, _, _, rfl⟩ := reject_cases rejects
    cases applied <;> exact Nat.le_refl _
  | finish =>
    obtain ⟨consumer, _, finishes⟩ := Option.bind_eq_some_iff.mp taken
    obtain ⟨claimed, _, _, rfl⟩ := finish_cases finishes
    exact Nat.le_refl _
  | mark _ applied _ =>
    obtain ⟨consumer, _, marks⟩ := Option.bind_eq_some_iff.mp taken
    obtain ⟨_, _, _, _, _, rfl⟩ := mark_cases marks
    cases applied <;> exact Nat.le_refl _
  | stop =>
    obtain ⟨_, _, rfl⟩ := Option.map_eq_some_iff.mp taken
    exact Nat.le_refl _

theorem exec_clock {labels : List Label} (reached : exec Store.step store labels = some next) :
    store.clock ≤ next.clock := by
  have behind : Along Store.step (fun later => store.clock ≤ later.clock) store labels :=
    along_of_meets (fun _ _ _ below _ taken => Nat.le_trans below (step_clock taken))
      (Nat.le_refl _) (meets_true _ _)
  have bound := along_reached behind reached
  exact bound

theorem published_claimed (store : Store) (topic payload : String) :
    ∃ labels middle index claimed,
      exec Store.step (store.publish topic payload 0) labels = some middle ∧
      middle.step (.claim index store.nextId true) = some claimed ∧ middle.clock = store.clock := by
  let published := store.publish topic payload 0
  let consumer : Consumer := ⟨⟨topic, .default, 0, fun _ => []⟩, "consumer", .idle⟩
  let joined : Store := { published with consumers := published.consumers ++ [consumer] }
  let row : Row :=
    ⟨topic, payload, .ready, 0, store.clock + 0, none, none, none, store.clock, false⟩
  have found : joined.rows store.nextId = some row := if_pos rfl
  have there : joined.consumers[published.consumers.length]? = some consumer :=
    List.getElem?_concat_length
  have claimable : row.claimable consumer.workload joined.clock = true := by
    simp only [Row.claimable, decide_eq_true_eq]
    exact ⟨rfl, rfl, Nat.le_refl _⟩
  have claims : joined.step (.claim published.consumers.length store.nextId true) =
      some ((joined.write store.nextId (Row.claim consumer.lockedBy joined.clock)).setPhase
        published.consumers.length consumer (.handling ⟨store.nextId, row.payload, 1⟩)) := by
    simp only [step, there, Option.bind_some, Store.claim, found]
    exact if_pos ⟨rfl, claimable⟩
  exact ⟨[.spawn consumer.workload consumer.lockedBy], joined, published.consumers.length, _, rfl,
    claims, rfl⟩

end Store

/-- No consumer claims the row that the call inserted before the database's
clock has advanced by the delay: this holds of the calls without one only,
since the host reads the delay under another name than the guest writes it. -/
theorem delayed_publish_held (render : Json → String) (store : Store) (topic : String)
    (message : Json) (delay : Nat) :
    (∀ published, publish render store topic message (delayed delay) = some published →
      ∀ labels middle index answered claimed,
        exec Store.step published labels = some middle →
        middle.step (.claim index store.nextId answered) = some claimed →
        store.clock + delay ≤ middle.clock) ↔
    delay = 0 := by
  constructor
  · intro held
    obtain ⟨labels, middle, index, claimed, reached, claims, _⟩ :=
      Store.published_claimed store topic (render message)
    have bound := held _ (publish_delayed render store topic message delay) labels middle index
      true claimed reached claims
    omega
  · rintro rfl _ resolved _ _ _ _ _ reached _
    cases (publish_delayed render store topic message 0).symm.trans resolved
    have bound := Store.exec_clock reached
    exact bound

/-- A message that was to be held back for a minute is claimed in the
millisecond it was published in. -/
theorem delayed_message_claimed_at_once :
    ∃ published claimed,
      publish (fun _ => "\x7b\x7d") Store.new "orders" (.object []) (delayed 60000) = some published ∧
      exec Store.step published
        [.spawn ⟨"orders", .default, 30000, fun _ => []⟩ "a", .claim 0 1 true] = some claimed ∧
      claimed.clock = 0 ∧ (claimed.rows 1).map Row.state = some .processing :=
  ⟨_, _, rfl, rfl, rfl, rfl⟩

end Usai.Queue
