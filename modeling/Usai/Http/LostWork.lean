import Mathlib.Data.List.Dedup
import Usai.Http.Encode
import Usai.Resources.Optional
import Usai.Slots

/-! The work that a guest leaves behind when its handler settles: what the bridge
keeps of it (`guest-bridge.js`), how the end of a run judges it (`WorldDriver::run`
and `LifecycleViolation::detached_work`), and what the client is answered. -/

namespace Usai.Http

open List Option Transition
open Execution (Termination)
open Manifest (WorkloadKind)

structure Pending where
  count : Nat
  kinds : List String

structure GuestState where
  outcome : Option (Except GuestError Json)
  pending : Pending

/-- The bridge of one world. `pending` is its map of operations, host operations
under the ids of the host and holds under negative ones; `started` and `ended`
are history. -/
structure Bridge where
  pending : List (Int × String)
  holds : Nat
  cancelled : Bool
  outcome : Option (Except GuestError Json)
  started : List (Int × String)
  ended : List Int

inductive BridgeAct where
  | start (kind : String) (id : Int)
  | complete (id : Int)
  | cancelOp (id : Int)
  | hold (kind : String)
  | release (id : Int)
  | stop
  | cancel
  | settle (outcome : Except GuestError Json)

namespace Bridge

def new : Bridge := ⟨[], 0, false, none, [], []⟩

variable (bridge : Bridge)

def keep (id : Int) (kind : String) : Bridge :=
  { bridge with
    pending := bridge.pending ++ [(id, kind)]
    started := bridge.started ++ [(id, kind)] }

def drop (condition : Int × String → Bool) : Bridge :=
  { bridge with
    pending := bridge.pending.filter (fun entry => !condition entry)
    ended := bridge.ended ++ (bridge.pending.filter condition).map Prod.fst }

def step : BridgeAct → Option Bridge
  | .start kind id =>
    if bridge.cancelled ∨ id ≤ 0 then some bridge
    else if id ∈ bridge.started.map Prod.fst then none
    else some (bridge.keep id kind)
  | .complete id | .cancelOp id | .release id => some (bridge.drop (fun entry => entry.1 == id))
  | .hold kind =>
    some { bridge.keep (-(bridge.holds + 1 : Nat)) kind with holds := bridge.holds + 1 }
  | .stop =>
    some (if bridge.cancelled then bridge else bridge.drop (fun entry => entry.2 == "timer"))
  | .cancel =>
    some (if bridge.cancelled then bridge
      else { bridge.drop (fun _ => true) with cancelled := true })
  | .settle outcome =>
    if bridge.outcome.isSome then none else some { bridge with outcome := some outcome }

def state : GuestState :=
  ⟨bridge.outcome, ⟨bridge.pending.length, bridge.pending.map Prod.snd⟩⟩

end Bridge

inductive LifetimeFamily where
  | finite
  | connectionBound
  | persistent
  deriving DecidableEq, Repr

def lifetime : WorkloadKind → LifetimeFamily
  | .http | .task | .cron | .command | .queue => .finite
  | .socket | .stream => .connectionBound
  | .service => .persistent

structure Workload where
  kind : WorkloadKind
  name : String

def summary (kinds : List String) : List (String × Nat) :=
  (kinds.dedup.insertionSort (· ≤ ·)).map (fun kind => (kind, kinds.count kind))

def effectKinds : List String :=
  ["resource", "queue.publish", "queue.stats", "task.invoke", "postgres.transaction"]

def detachedOutcome (workload : Workload) (kinds : List String) : String :=
  if "postgres.transaction" ∈ kinds then
    "A database transaction was still open when the handler returned. The runtime rolled" ++
    "              it back on the world's behalf — nothing it wrote is durable. Await" ++
    " `db.transaction(...)`              so it commits before the response, or roll back" ++
    " explicitly by throwing inside it."
  else if kinds.all (fun kind => kind = "task.dispatch") then
    "The hand-off itself already happened — the dispatched task runs in its own world — " ++
    "but this world returned before the runtime acknowledged it. Add `await` in front of " ++
    "`ctx.tasks.dispatch(...)` so the request only answers once the transfer is recorded."
  else
    "The " ++ workload.kind.text ++ " lifetime ended when its result was produced. Work that is " ++
    "still pending cannot remain owned by this world, so it was cancelled.\n\nUse:\n  " ++
    "task()    for independent finite work (await ctx.tasks.dispatch(task, input): the hand-off " ++
    "is awaited, the work runs on its own)\n  cron()    for scheduled work\n  " ++
    "service() for intentional long-running work\nor await the work before returning."

def LifecycleViolation.detachedWork (workload : Workload) (kinds : List String) :
    LifecycleViolation where
  code := "detached_work"
  message := workload.kind.text ++ " work `" ++ workload.name ++
    "` ended with live asynchronous work (" ++
    ", ".intercalate ((summary kinds).map (fun entry => toString entry.2 ++ " " ++ entry.1)) ++
    ").\n\n" ++ detachedOutcome workload kinds
  sideEffectsLost := (summary kinds).any (fun entry => entry.1 ∈ effectKinds)

def runResult (workload : Workload) (termination : Termination) (state : Option GuestState)
    (duration : Nat) : WorkResult where
  termination := termination
  outcome := state.bind GuestState.outcome
  violations :=
    match state with
    | some state =>
      if termination = .completed ∧ lifetime workload.kind = .finite ∧ 0 < state.pending.count then
        [.detachedWork workload state.pending.kinds]
      else []
    | none => []
  duration := duration

section

inductive OpKind where
  | timer
  | crypto
  | resource
  | queuePublish
  | queueStats
  | taskInvoke
  | taskDispatch
  | transaction
  deriving DecidableEq, Repr

def OpKind.text : OpKind → String
  | .timer => "timer"
  | .crypto => "crypto"
  | .resource => "resource"
  | .queuePublish => "queue.publish"
  | .queueStats => "queue.stats"
  | .taskInvoke => "task.invoke"
  | .taskDispatch => "task.dispatch"
  | .transaction => "postgres.transaction"

/-- Its effect is outside the world and unknown when the world is cut off: a
resource operation, a publish, an owned invoke, an open transaction. A dispatch
has been handed over when it starts. -/
def OpKind.external : OpKind → Bool
  | .resource | .queuePublish | .taskInvoke | .transaction => true
  | .timer | .crypto | .queueStats | .taskDispatch => false

def Bridge.Underway (bridge : Bridge) (kind : OpKind) : Prop :=
  ∃ id, (id, kind.text) ∈ bridge.started ∧ id ∉ bridge.ended

def success (status : Nat) : Bool := 200 ≤ status && status < 300

variable {kind : OpKind} {kinds : List String}

namespace Bridge

/-- The map holds what was started and has not ended; every id was given once. -/
structure Kept (bridge : Bridge) : Prop where
  pending : ∀ entry, entry ∈ bridge.pending ↔ entry ∈ bridge.started ∧ entry.1 ∉ bridge.ended
  given : (bridge.started.map Prod.fst).Nodup
  held : ∀ entry ∈ bridge.started, 0 < entry.1 ∨ -(bridge.holds : Int) ≤ entry.1 ∧ entry.1 < 0
  past : ∀ id ∈ bridge.ended, id ∈ bridge.started.map Prod.fst

variable {bridge next : Bridge}

theorem kept_new : new.Kept := by
  refine ⟨?_, nodup_nil, ?_, ?_⟩
  · intro entry
    exact iff_of_false not_mem_nil (fun both => not_mem_nil both.1)
  · intro entry member
    cases member
  · intro id member
    cases member

theorem Kept.drop (kept : bridge.Kept) (condition : Int × String → Bool) :
    (bridge.drop condition).Kept := by
  refine ⟨?_, kept.given, kept.held, ?_⟩
  · intro entry
    have here := kept.pending entry
    simp only [Bridge.drop, List.mem_filter, List.mem_append, List.mem_map, Bool.not_eq_true', not_or]
    constructor
    · rintro ⟨inside, spared⟩
      obtain ⟨started, underway⟩ := here.mp inside
      refine ⟨started, underway, ?_⟩
      rintro ⟨other, ⟨present, chosen⟩, same⟩
      -- the ids were given once, so it is the same entry
      have equal := inj_on_of_nodup_map kept.given ((kept.pending other).mp present).1 started same
      subst equal
      cases spared.symm.trans chosen
    · rintro ⟨started, underway, spared⟩
      have inside := here.mpr ⟨started, underway⟩
      refine ⟨inside, Bool.eq_false_iff.mpr ?_⟩
      intro chosen
      exact spared ⟨entry, ⟨inside, chosen⟩, rfl⟩
  · intro id member
    rcases mem_append.mp member with before | dropped
    · exact kept.past id before
    · obtain ⟨entry, chosen, rfl⟩ := mem_map.mp dropped
      have inside := (mem_filter.mp chosen).1
      exact mem_map_of_mem ((kept.pending entry).mp inside).1

theorem Kept.keep (kept : bridge.Kept) {id : Int} {kind : String}
    (fresh : id ∉ bridge.started.map Prod.fst)
    (range : 0 < id ∨ -(bridge.holds : Int) ≤ id ∧ id < 0) : (bridge.keep id kind).Kept := by
  refine ⟨?_, ?_, Slots.forall_append kept.held range, ?_⟩
  · intro entry
    simp only [Bridge.keep, mem_append, mem_singleton, kept.pending entry]
    constructor
    · rintro (⟨started, underway⟩ | rfl)
      · exact ⟨.inl started, underway⟩
      · exact ⟨.inr rfl, fun ended => fresh (kept.past _ ended)⟩
    · rintro ⟨started | new, underway⟩
      · exact .inl ⟨started, underway⟩
      · exact .inr new
  · simp only [Bridge.keep, map_append, map_cons, map_nil]
    rw [nodup_append]
    refine ⟨kept.given, nodup_singleton id, ?_⟩
    intro before member after new
    rw [mem_singleton.mp new]
    rintro rfl
    exact fresh member
  · intro ended member
    simp only [Bridge.keep, map_append, mem_append]
    exact .inl (kept.past ended member)

theorem Kept.hold (kept : bridge.Kept) (kind : String) :
    ({ bridge.keep (-(bridge.holds + 1 : Nat)) kind with holds := bridge.holds + 1 } :
      Bridge).Kept := by
  have fresh : (-(bridge.holds + 1 : Nat) : Int) ∉ bridge.started.map Prod.fst := by
    intro given
    obtain ⟨entry, member, same⟩ := mem_map.mp given
    have range := kept.held entry member
    omega
  have wider : ({ bridge with holds := bridge.holds + 1 } : Bridge).Kept := by
    refine ⟨kept.pending, kept.given, ?_, kept.past⟩
    intro entry member
    have range := kept.held entry member
    simp only [Nat.cast_add, Nat.cast_one]
    omega
  exact wider.keep fresh (.inr ⟨le_refl _, by omega⟩)

theorem Kept.step (kept : bridge.Kept) {act : BridgeAct} (taken : bridge.step act = some next) :
    next.Kept := by
  cases act with
  | start =>
    simp only [Bridge.step] at taken
    split at taken
    case isTrue =>
      cases taken
      exact kept
    case isFalse granted =>
      obtain ⟨fresh, taken⟩ := ite_none_left_eq_some.mp taken
      cases taken
      exact kept.keep fresh (.inl (by omega))
  | complete | cancelOp | release =>
    cases taken
    exact kept.drop _
  | hold kind =>
    cases taken
    exact kept.hold kind
  | stop =>
    cases taken
    split
    · exact kept
    · exact kept.drop _
  | cancel =>
    cases taken
    split
    · exact kept
    · have dropped := kept.drop (fun _ => true)
      exact ⟨dropped.pending, dropped.given, dropped.held, dropped.past⟩
  | settle =>
    obtain ⟨_, taken⟩ := ite_none_left_eq_some.mp taken
    cases taken
    exact ⟨kept.pending, kept.given, kept.held, kept.past⟩

theorem kept_of_run (reached : exec Bridge.step .new acts = some bridge) :
    bridge.Kept := by
  have preserved : ∀ bridge act next, Kept bridge → True → Bridge.step bridge act = some next →
      Kept next := fun _ _ _ kept _ taken => kept.step taken
  exact along_reached (along_of_meets preserved kept_new (meets_true _ acts)) reached

theorem Kept.underway (kept : bridge.Kept) (underway : bridge.Underway kind) :
    kind.text ∈ bridge.state.pending.kinds := by
  obtain ⟨id, started, live⟩ := underway
  have inside := (kept.pending (id, kind.text)).mpr ⟨started, live⟩
  exact mem_map_of_mem inside

end Bridge

theorem mem_summary {kind : String} :
    (∃ count, (kind, count) ∈ summary kinds) ↔ kind ∈ kinds := by
  simp [summary, mem_insertionSort]

theorem detachedWork_lost (workload : Workload)
    (external : kind.external = true) (member : kind.text ∈ kinds) :
    (LifecycleViolation.detachedWork workload kinds).sideEffectsLost = true := by
  obtain ⟨_, entry⟩ := mem_summary.mpr member
  have listed : kind.text ∈ effectKinds := by
    revert external
    cases kind <;> decide
  exact any_eq_true.mpr ⟨_, entry, decide_eq_true listed⟩

variable (expose : Bool) {workload : Workload} {bridge : Bridge} {duration : Nat}

theorem encode_lost (http : workload.kind = .http) (kept : bridge.Kept)
    (returned : bridge.outcome = some (.ok value)) (external : kind.external = true)
    (underway : bridge.Underway kind) :
    (encode expose (runResult workload .completed (some bridge.state) duration)).status = 500 := by
  have inside := kept.underway underway
  have some_left : 0 < bridge.state.pending.count := by
    have lengths : bridge.state.pending.count = bridge.state.pending.kinds.length :=
      (length_map _).symm
    rw [lengths]
    exact length_pos_of_mem inside
  have violations : (runResult workload .completed (some bridge.state) duration).violations =
      [.detachedWork workload bridge.state.pending.kinds] := by
    have finite : lifetime workload.kind = .finite := by rw [http]; rfl
    exact if_pos ⟨rfl, finite, some_left⟩
  have lost : lostWork [.detachedWork workload bridge.state.pending.kinds] =
      some (.detachedWork workload bridge.state.pending.kinds) := by
    have effects := detachedWork_lost workload external inside
    simp [lostWork, effects]
    rfl
  have outcome : (runResult workload .completed (some bridge.state) duration).outcome =
      some (.ok value) := returned
  show (encodeOutcome expose _).status = 500
  unfold encodeOutcome
  rw [outcome, violations]
  simp only [lost]
  rfl

theorem withLifecycle_status (response : HttpResponse) (violations : List LifecycleViolation) :
    (withLifecycle expose response violations).status = response.status := by
  unfold withLifecycle
  split <;> rfl

theorem applicationError_success
    (succeeds : success (applicationError expose error violations).status = true) :
    ∃ usai, error.usai = some usai ∧ success (usaiStatus usai) = true := by
  unfold applicationError at succeeds
  split at succeeds
  case h_1 usai carried =>
    rw [withLifecycle_status] at succeeds
    exact ⟨usai, carried, succeeds⟩
  case h_2 =>
    rw [withLifecycle_status] at succeeds
    cases succeeds

theorem encode_success (succeeds : success (encode expose result).status = true) :
    result.termination = .completed ∧
      ((∃ value, result.outcome = some (.ok value)) ∨
        ∃ error usai, result.outcome = some (.error error) ∧ error.usai = some usai ∧
          success (usaiStatus usai) = true) := by
  unfold encode at succeeds
  split at succeeds
  case h_1 completed =>
    refine ⟨completed, ?_⟩
    unfold encodeOutcome at succeeds
    split at succeeds
    case h_1 error thrown =>
      obtain ⟨usai, carried, own⟩ := applicationError_success expose succeeds
      exact .inr ⟨error, usai, thrown, carried, own⟩
    case h_2 value returned => exact .inl ⟨value, returned⟩
    case h_3 => split at succeeds <;> cases succeeds
  case h_2 | h_3 | h_4 => cases succeeds

/-- For every world of an HTTP workload, however its guest used the bridge and the
run ended: a 2xx is a normal return with no external operation under way, or an
error that carries that status itself; and a normal return over an external
operation that is still under way is a 500. -/
theorem success_accounts_for_work (expose : Bool) (workload : Workload) (http : workload.kind = .http)
    (acts : List BridgeAct) (bridge : Bridge) (reached : exec Bridge.step .new acts = some bridge)
    (termination : Termination) (state : Option GuestState)
    (read : state = some bridge.state ∨ state = none) (duration : Nat) :
    (success (encode expose (runResult workload termination state duration)).status = true →
      termination = .completed ∧
        ((∃ value, bridge.outcome = some (.ok value)) ∧
            (∀ kind : OpKind, kind.external = true → ¬ bridge.Underway kind) ∨
          ∃ error usai, bridge.outcome = some (.error error) ∧ error.usai = some usai ∧
            success (usaiStatus usai) = true)) ∧
      (∀ value (kind : OpKind), termination = .completed → bridge.outcome = some (.ok value) →
        kind.external = true → bridge.Underway kind →
        (encode expose (runResult workload termination state duration)).status = 500) := by
  have kept := Bridge.kept_of_run reached
  have lost : ∀ value (kind : OpKind), termination = .completed → bridge.outcome = some (.ok value) →
      kind.external = true → bridge.Underway kind →
      (encode expose (runResult workload termination state duration)).status = 500 := by
    rintro value kind rfl returned external underway
    rcases read with rfl | rfl
    · exact encode_lost expose http kept returned external underway
    · rfl
  refine ⟨?_, lost⟩
  intro succeeds
  obtain ⟨completed, outcome⟩ := encode_success expose succeeds
  refine ⟨completed, ?_⟩
  rcases read with rfl | rfl
  · rcases outcome with ⟨value, returned⟩ | thrown
    · refine .inl ⟨⟨value, returned⟩, ?_⟩
      intro kind external underway
      rw [lost value kind completed returned external underway] at succeeds
      cases succeeds
    · exact .inr thrown
  · rcases outcome with ⟨_, returned⟩ | ⟨_, _, thrown, _⟩
    · cases returned
    · cases thrown

def forgetfulRun : List BridgeAct :=
  [.start "timer" 1, .start "queue.publish" 2, .complete 1,
    .settle (.ok (.object [("status", .number 200)]))]

theorem success_accounts_for_work_forgetful :
    ∃ bridge, exec Bridge.step .new forgetfulRun = some bridge ∧ bridge.Underway .queuePublish ∧
      (encode false (runResult ⟨.http, "orders"⟩ .completed (some bridge.state) 3)).status = 500 := by
  refine ⟨_, rfl, ⟨2, by decide, by decide⟩, ?_⟩
  exact (success_accounts_for_work false ⟨.http, "orders"⟩ rfl forgetfulRun _ rfl .completed _
    (.inl rfl) 3).2 _ .queuePublish rfl rfl rfl ⟨2, by decide, by decide⟩

/-- A handler that throws an error with status 200 while its write is under way is
answered 200. -/
theorem thrown_success_over_pending_write :
    ∃ bridge, exec Bridge.step .new [.start "resource" 1,
        .settle (.error ⟨"UsaiError", "partly done", none,
          some (.object [("code", .string "partial"), ("status", .number 200)])⟩)] = some bridge ∧
      bridge.Underway .resource ∧ (∀ value, bridge.outcome ≠ some (.ok value)) ∧
      success (encode false (runResult ⟨.http, "orders"⟩ .completed (some bridge.state) 3)).status =
        true := by
  refine ⟨_, rfl, ⟨1, by decide, by decide⟩, ?_, by decide +kernel⟩
  intro value returned
  cases returned

end

end Usai.Http
