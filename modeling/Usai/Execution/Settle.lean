import Mathlib.Logic.Function.Iterate
import Usai.Transition

/-! Running the guest to quiescence: `qjs_usai_settle` in the core, which runs a bounded number
of promise jobs, and `WasmWorld::settle` around it, which delivers the completions that host
calls deferred and lets the core go on. -/

namespace Usai.Execution

/-- What the substrate does to its store, guest and host data together, for any guest program.
`runJob` is `JS_ExecutePendingJob` when a job is queued; it may queue more and call the host.
`readState` is `__usai.state()`, which can run code of the application too, since it serializes
the outcome. -/
structure Substrate (Store State Deferred : Type) where
  pending : Store → Bool
  runJob : Store → Store
  readState : Store → Store × Except String State
  deferred : Store → List Deferred
  takeDeferred : Store → Store
  complete : Store → Deferred → Store × Except String Unit

def jobLimit : ℕ := 1000000

inductive SettleTurn (Store State : Type) where
  | ends (store : Store) (result : Except String State)
  | again (store : Store)

namespace Substrate

variable {Store State Deferred : Type} (substrate : Substrate Store State Deferred)

def runJobs : ℕ → Store → Store
  | 0, store => store
  | limit + 1, store =>
    if substrate.pending store then runJobs limit (substrate.runJob store) else store

def coreSettle (store : Store) : Store × Except String State :=
  substrate.readState (substrate.runJobs jobLimit store)

def completeAll : List Deferred → Store → Store × Except String Unit
  | [], store => (store, .ok ())
  | completion :: rest, store =>
    match substrate.complete store completion with
    | (store, .ok ()) => completeAll rest store
    | failed => failed

def turn (store : Store) : SettleTurn Store State :=
  match substrate.coreSettle store with
  | (store, .error error) => .ends store (.error error)
  | (store, .ok state) =>
    match substrate.deferred store with
    | [] => .ends store (.ok state)
    | deferred =>
      match substrate.completeAll deferred (substrate.takeDeferred store) with
      | (store, .ok ()) => .again store
      | (store, .error error) => .ends store (.error error)

def settle : ℕ → Store → Option (Store × Except String State)
  | 0, _ => none
  | turns + 1, store =>
    match substrate.turn store with
    | .ends store result => some (store, result)
    | .again store => settle turns store

/-- The store before the turn with which the loop ends. What an earlier turn leaves to run
is run by the next. -/
def lastStart : ℕ → Store → Option Store
  | 0, _ => none
  | turns + 1, store =>
    match substrate.turn store with
    | .ends _ _ => some store
    | .again store => lastStart turns store

def Exhausts (store : Store) : Prop :=
  ∃ jobs ≤ jobLimit, (∀ earlier < jobs, substrate.pending (substrate.runJob^[earlier] store)) ∧
    substrate.pending (substrate.runJob^[jobs] store) = false ∧
    substrate.pending (substrate.readState (substrate.runJob^[jobs] store)).1 = false

end Substrate

structure WasmWorld (Store State : Type) where
  store : Store
  settled : Option State

inductive WasmLabel (Store : Type) where
  | enter (activity : Store → Store × Except String Unit) (turns : ℕ)
  | state (turns : ℕ)

section

variable {Store State Deferred : Type} (substrate : Substrate Store State Deferred)

namespace WasmWorld

def settle (store : Store) (turns : ℕ) : Option (WasmWorld Store State) :=
  (substrate.settle turns store).map fun result => ⟨result.1, result.2.toOption⟩

def step (world : WasmWorld Store State) : WasmLabel Store → Option (WasmWorld Store State)
  | .enter activity turns =>
    match activity world.store with
    | (store, .ok ()) => settle substrate store turns
    | (store, .error _) => some ⟨store, none⟩
  | .state turns =>
    match world.settled with
    | some _ => some world
    | none => settle substrate world.store turns

/-- A world whose state the driver has been given, and which it may leave to wait, has no job
to run and no completion to deliver. -/
def Quiescent (world : WasmWorld Store State) : Prop :=
  world.settled.isSome = true →
    substrate.pending world.store = false ∧ substrate.deferred world.store = []

def Bounded (world : WasmWorld Store State) : WasmLabel Store → Prop
  | .enter activity turns =>
    ∀ start ∈ substrate.lastStart turns (activity world.store).1, substrate.Exhausts start
  | .state turns => ∀ start ∈ substrate.lastStart turns world.store, substrate.Exhausts start

end WasmWorld

variable {substrate}

theorem runJobs_iterate {jobs limit : ℕ} {store : Store} (within : jobs ≤ limit)
    (busy : ∀ earlier < jobs, substrate.pending (substrate.runJob^[earlier] store))
    (done : substrate.pending (substrate.runJob^[jobs] store) = false) :
    substrate.runJobs limit store = substrate.runJob^[jobs] store := by
  induction jobs generalizing limit store with
  | zero =>
    have idle : substrate.pending store = false := done
    cases limit with
    | zero => rfl
    | succ => simp [Substrate.runJobs, idle]
  | succ jobs ih =>
    have first : substrate.pending store = true := busy 0 (Nat.succ_pos jobs)
    cases limit with
    | zero => cases within
    | succ =>
      rw [Substrate.runJobs, if_pos first]
      exact ih (Nat.le_of_succ_le_succ within)
        (fun earlier before => busy (earlier + 1) (Nat.succ_lt_succ before)) done

variable {store final : Store} {state : State}

theorem turn_quiescent (exhausts : substrate.Exhausts store)
    (ends : substrate.turn store = .ends final (.ok state)) :
    substrate.pending final = false ∧ substrate.deferred final = [] := by
  obtain ⟨jobs, within, busy, done, quiet⟩ := exhausts
  have core : (substrate.coreSettle store).1 =
      (substrate.readState (substrate.runJob^[jobs] store)).1 := by
    rw [Substrate.coreSettle, runJobs_iterate within busy done]
  rw [← core] at quiet
  simp only [Substrate.turn] at ends
  split at ends
  · cases ends
  · rename_i settled result same
    rw [same] at quiet
    split at ends
    · rename_i none
      cases ends
      exact ⟨quiet, none⟩
    · split at ends <;> cases ends

theorem settle_quiescent {turns : ℕ}
    (exhausts : ∀ start ∈ substrate.lastStart turns store, substrate.Exhausts start)
    (settled : substrate.settle turns store = some (final, .ok state)) :
    substrate.pending final = false ∧ substrate.deferred final = [] := by
  induction turns generalizing store with
  | zero => cases settled
  | succ _ ih =>
    simp only [Substrate.settle] at settled
    simp only [Substrate.lastStart] at exhausts
    split at settled
    · rename_i last result ends
      cases settled
      rw [ends] at exhausts
      exact turn_quiescent (exhausts store rfl) ends
    · rename_i next again
      rw [again] at exhausts
      exact ih exhausts settled

theorem settled_world_quiescent {turns : ℕ} {next : WasmWorld Store State}
    (exhausts : ∀ start ∈ substrate.lastStart turns store, substrate.Exhausts start)
    (settled : WasmWorld.settle substrate store turns = some next) : next.Quiescent substrate := by
  obtain ⟨⟨_, result⟩, returned, rfl⟩ := Option.map_eq_some_iff.mp settled
  intro known
  cases result with
  | error => cases known
  | ok => exact settle_quiescent exhausts returned

theorem step_quiescent (world : WasmWorld Store State) (label : WasmLabel Store)
    (next : WasmWorld Store State) (quiescent : world.Quiescent substrate)
    (bounded : world.Bounded substrate label) (taken : world.step substrate label = some next) :
    next.Quiescent substrate := by
  cases label with
  | enter =>
    simp only [WasmWorld.step] at taken
    simp only [WasmWorld.Bounded] at bounded
    split at taken
    · rename_i entered same
      rw [same] at bounded
      exact settled_world_quiescent bounded taken
    · cases taken
      exact nofun
  | state =>
    simp only [WasmWorld.step] at taken
    split at taken
    · cases taken
      exact quiescent
    · exact settled_world_quiescent bounded taken

/-- When the core never has more jobs to run than its loop allows, a state that the driver is
given is that of a guest with nothing left to run. -/
theorem settled_is_quiescent (substrate : Substrate Store State Deferred) (store : Store)
    (labels : List (WasmLabel Store))
    (bounded : Transition.Meets (WasmWorld.step substrate) (WasmWorld.Bounded substrate)
      ⟨store, none⟩ labels) :
    Transition.Along (WasmWorld.step substrate) (WasmWorld.Quiescent substrate) ⟨store, none⟩
      labels :=
  Transition.along_of_meets step_quiescent nofun bounded

end

def countdown : Substrate ℕ Unit Unit where
  pending store := store ≠ 0
  runJob store := store - 1
  readState store := (store, .ok ())
  deferred _ := []
  takeDeferred store := store
  complete store _ := (store, .ok ())

def queueJobs (jobs : ℕ) : List (WasmLabel ℕ) := [.enter (fun _ => (jobs, .ok ())) 1]

theorem settled_is_quiescent_two :
    Transition.Along (WasmWorld.step countdown) (WasmWorld.Quiescent countdown) ⟨0, none⟩
      (queueJobs 2) := by
  refine settled_is_quiescent countdown 0 _ ⟨?_, trivial⟩
  rintro _ ⟨rfl⟩
  exact ⟨2, by decide, by decide, rfl, rfl⟩

theorem runJobs_countdown (limit left : ℕ) : countdown.runJobs limit (left + limit) = left := by
  induction limit with
  | zero => rfl
  | succ _ ih => exact ih

/-- One job more than the bound is left when the world has settled. -/
theorem settled_with_job_left :
    Transition.exec (WasmWorld.step countdown) ⟨0, none⟩ (queueJobs (1 + jobLimit)) =
        some ⟨1, some ()⟩ ∧ countdown.pending 1 = true := by
  have core : countdown.coreSettle (1 + jobLimit) = (1, .ok ()) := by
    rw [Substrate.coreSettle, runJobs_countdown]
    rfl
  refine ⟨?_, rfl⟩
  simp only [queueJobs, Transition.exec_cons, WasmWorld.step, WasmWorld.settle, Substrate.settle,
    Substrate.turn, core]
  rfl

end Usai.Execution
