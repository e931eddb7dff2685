import Usai.Admission.Accounts
import Usai.Execution.Driver
import Usai.Queue.Orderly

/-! The consumer loop of `workloads/queue.rs` with the worlds it starts: between
the claim of a message and the mark of its outcome stands `run_message`, which
asks for admission and runs a world. The table is PostgreSQL's, so a claim or a
first mark that was committed asynchronously may be lost to a crash of the
server. -/

namespace Usai.Queue

open List Option Transition
open Admission (Accounts AdmissionError)
open Revisions (RevisionId RevisionState)
open Execution (Termination)

structure GuestError where
  name : String
  message : String
  deriving DecidableEq, Repr

def worldResult : Termination → Option (Except GuestError Unit) → Except String Unit
  | .completed, some (.ok _) => .ok ()
  | .completed, some (.error error) => .error (error.name ++ ": " ++ error.message)
  | .completed, none => .error "no outcome"
  | .deadlineExceeded, _ => .error "deadline exceeded"
  | .cancelled reason, _ => .error ("cancelled: " ++ reason)
  | .faulted detail, _ => .error ("faulted: " ++ detail)

def refusalText : AdmissionError → String
  | .notActive id state reason =>
    "revision rev" ++ toString id.val ++ " is " ++ state.text ++ ", " ++ reason
  | .unknownWorkload id => "unknown workload " ++ id
  | .exhausted error => error.budget ++ " budget exhausted (" ++ toString error.max ++ " in use)"

structure Owner where
  revision : RevisionId
  workload : String
  deriving DecidableEq, Repr

abbrev Table := Nat → Option Row

/-- How a statement reaches the disk: it changes nothing, it is committed
without waiting for the flush, or it is flushed with everything before it. -/
inductive Durability where
  | untouched
  | lazily (claim : Bool)
  | flushed
  deriving DecidableEq, Repr

/-- The queue with the worlds of its messages. `worlds` says which consumers
have one running. `recent` are the tables as they stood before each statement
that may not be on disk, the last one first, and whether it was a claim. The
rest is history: how many worlds were started for a row, whether one of them
succeeded, and which rows were deleted. -/
structure Delivery where
  store : Store
  runtime : Accounts
  owners : List Owner
  worlds : Nat → Bool
  recent : List (Bool × Table)
  started : Nat → Nat
  succeeded : Nat → Bool
  pruned : List Nat

inductive Event where
  | spawn (owner : Owner) (workload : Workload) (lockedBy : String)
  | table (label : Label)
  | runtime (label : Usai.Admission.Label)
  | admission (index : Nat)
  | broken (index : Nat) (error : String)
  | finish (index : Nat) (termination : Termination) (outcome : Option (Except GuestError Unit))
  /-- The operator's `usai queue prune`: the age and the topic pick the ids. -/
  | prune (states : List RowState) (ids : List Nat)
  | flush (keep : Nat)
  /-- The server crashes and loses this statement and those after it. -/
  | crash (statement : Nat)

def Label.direct : Label → Bool
  | .spawn _ _ | .finish _ _ => false
  | _ => true

def Store.durability (store : Store) : Label → Durability
  | .claim _ _ _ => .lazily true
  | .mark index true _ =>
    match (store.consumers[index]?).map Consumer.phase with
    | some (.marking _ _ true) => .flushed
    | _ => .lazily false
  | .publish _ _ _ | .reject _ true | .sweepReady _ | .sweepDead _ | .forget _ _ _ => .flushed
  | .mark _ false _ | .reject _ false | .tick _ | .spawn _ _ | .finish _ _ | .stop _ => .untouched

namespace Delivery

def new (runtime : Accounts) : Delivery :=
  ⟨Store.new, runtime, [], fun _ => false, [], fun _ => 0, fun _ => false, []⟩

def setWorld (delivery : Delivery) (index : Nat) (running : Bool) : Delivery :=
  { delivery with worlds := Function.update delivery.worlds index running }

def recorded (delivery : Delivery) (label : Label) : List (Bool × Table) :=
  match delivery.store.durability label with
  | .untouched => delivery.recent
  | .lazily claim => (claim, delivery.store.rows) :: delivery.recent
  | .flushed => []

def removed (before after : Table) (ids : List Nat) : List Nat :=
  ids.filter (fun id => (before id).isSome ∧ (after id).isNone)

def written (delivery : Delivery) (label : Label) (store : Store) : Delivery :=
  let answered := { delivery with store := store, recent := delivery.recorded label }
  match label with
  | .stop index => answered.setWorld index false
  | .forget _ _ ids =>
    { answered with pruned := removed delivery.store.rows store.rows ids ++ delivery.pruned }
  | _ => answered

/-- `run_message` up to the world: a message that satisfies its contract asks
for admission, and a refusal is an error like any other. -/
def askAdmission (delivery : Delivery) (index : Nat) (consumer : Consumer) (owner : Owner) :
    Option Delivery :=
  match consumer.phase with
  | .handling claimed =>
    if delivery.worlds index = true ∨
        (consumer.workload.issues claimed.payload).isEmpty = false then none
    else do
      let account ← delivery.runtime.accounts.lookup owner.revision
      match delivery.runtime.admitInFlight owner.revision account owner.workload with
      | (runtime, .ok _) =>
        some { delivery.setWorld index true with
          runtime := runtime
          started := Function.update delivery.started claimed.id
            (delivery.started claimed.id + 1) }
      | (runtime, .error error) =>
        (delivery.store.finish index consumer (.error (refusalText error))).map (fun store =>
          { delivery with runtime := runtime, store := store })
  | _ => none

def breakDown (delivery : Delivery) (index : Nat) (consumer : Consumer) (error : String) :
    Option Delivery :=
  if delivery.worlds index then none
  else (delivery.store.finish index consumer (.error error)).map (fun store =>
    { delivery with store := store })

def recordSuccess (succeeded : Nat → Bool) (id : Nat) : Except String Unit → Nat → Bool
  | .ok _ => Function.update succeeded id true
  | .error _ => succeeded

def finish (delivery : Delivery) (index : Nat) (consumer : Consumer)
    (result : Except String Unit) : Option Delivery :=
  match consumer.phase with
  | .handling claimed =>
    if delivery.worlds index then
      (delivery.store.finish index consumer result).map (fun store =>
        { delivery.setWorld index false with
          store := store
          succeeded := recordSuccess delivery.succeeded claimed.id result })
    else none
  | _ => none

def prunable (states : List RowState) (ids : List Nat) (id : Nat) (row : Row) : Bool :=
  id ∈ ids ∧ row.state ∈ states ∧ row.state.final = true

def prune (delivery : Delivery) (states : List RowState) (ids : List Nat) : Delivery :=
  let rows : Table := fun id =>
    (delivery.store.rows id).filter (fun row => ¬ prunable states ids id row)
  { delivery with
    store := { delivery.store with rows := rows }
    recent := []
    pruned := removed delivery.store.rows rows ids ++ delivery.pruned }

def crash (delivery : Delivery) (statement : Nat) : Option Delivery := do
  let before ← delivery.recent[statement]?
  some { delivery with
    store := { delivery.store with rows := before.2 }
    recent := delivery.recent.drop (statement + 1) }

def step (delivery : Delivery) : Event → Option Delivery
  | .spawn owner workload lockedBy =>
    some { delivery with
      store := { delivery.store with
        consumers := delivery.store.consumers ++ [⟨workload, lockedBy, .idle⟩] }
      owners := delivery.owners ++ [owner] }
  | .table label =>
    if label.direct then (delivery.store.step label).map (delivery.written label) else none
  | .runtime label =>
    (Usai.Admission.step delivery.runtime label).map (fun runtime =>
      { delivery with runtime := runtime })
  | .admission index => do
      let consumer ← delivery.store.consumers[index]?
      let owner ← delivery.owners[index]?
      delivery.askAdmission index consumer owner
  | .broken index error =>
    (delivery.store.consumers[index]?).bind (fun consumer =>
      delivery.breakDown index consumer error)
  | .finish index termination outcome =>
    (delivery.store.consumers[index]?).bind (fun consumer =>
      delivery.finish index consumer (worldResult termination outcome))
  | .prune states ids => some (delivery.prune states ids)
  | .flush keep => some { delivery with recent := delivery.recent.take keep }
  | .crash statement => delivery.crash statement

variable {delivery next : Delivery} {index : Nat} {consumer : Consumer} {table : Table}
  {recent : List (Bool × Table)}

theorem table_cases (taken : delivery.step (.table label) = some next) :
    label.direct = true ∧ ∃ store, delivery.store.step label = some store ∧
      next = delivery.written label store := by
  obtain ⟨direct, rest⟩ := ite_none_right_eq_some.mp taken
  obtain ⟨store, steps, same⟩ := map_eq_some_iff.mp rest
  exact ⟨direct, store, steps, same.symm⟩

theorem askAdmission_cases (taken : delivery.askAdmission index consumer owner = some next) :
    ∃ claimed account, consumer.phase = .handling claimed ∧ delivery.worlds index = false ∧
      (consumer.workload.issues claimed.payload).isEmpty = true ∧
      delivery.runtime.accounts.lookup owner.revision = some account ∧
      ((∃ runtime admission, delivery.runtime.admitInFlight owner.revision account owner.workload =
          (runtime, .ok admission) ∧
        next = { delivery.setWorld index true with
          runtime := runtime
          started := Function.update delivery.started claimed.id
            (delivery.started claimed.id + 1) }) ∨
      ∃ runtime error, delivery.runtime.admitInFlight owner.revision account owner.workload =
          (runtime, .error error) ∧
        next = { delivery with
          runtime := runtime
          store := delivery.store.setPhase index consumer (.marking claimed
            (outcome consumer.workload claimed (.error (refusalText error))) false) }) := by
  unfold askAdmission at taken
  split at taken
  · next claimed phase =>
    obtain ⟨free, rest⟩ := ite_none_left_eq_some.mp taken
    obtain ⟨account, found, asked⟩ := bind_eq_some_iff.mp rest
    simp only [not_or, Bool.not_eq_true, Bool.not_eq_false] at free
    refine ⟨claimed, account, phase, free.1, free.2, found, ?_⟩
    split at asked
    · next runtime admission granted =>
      exact .inl ⟨runtime, admission, granted, (some.inj asked).symm⟩
    · next runtime error refused =>
      obtain ⟨_, finishes, same⟩ := map_eq_some_iff.mp asked
      obtain ⟨_, again, _, rfl⟩ := Store.finish_cases finishes
      cases phase.symm.trans again
      exact .inr ⟨runtime, error, refused, same.symm⟩
  · cases taken

theorem breakDown_cases (taken : delivery.breakDown index consumer error = some next) :
    ∃ claimed, consumer.phase = .handling claimed ∧ delivery.worlds index = false ∧
      next = { delivery with
        store := delivery.store.setPhase index consumer (.marking claimed
          (outcome consumer.workload claimed (.error error)) false) } := by
  obtain ⟨free, rest⟩ := ite_none_left_eq_some.mp taken
  obtain ⟨_, finishes, same⟩ := map_eq_some_iff.mp rest
  obtain ⟨claimed, phase, _, rfl⟩ := Store.finish_cases finishes
  exact ⟨claimed, phase, Bool.eq_false_iff.mpr free, same.symm⟩

theorem finish_cases (taken : delivery.finish index consumer result = some next) :
    ∃ claimed, consumer.phase = .handling claimed ∧ delivery.worlds index = true ∧
      next = { delivery.setWorld index false with
        store := delivery.store.setPhase index consumer (.marking claimed
          (outcome consumer.workload claimed result) false)
        succeeded := recordSuccess delivery.succeeded claimed.id result } := by
  unfold finish at taken
  split at taken
  · next claimed phase =>
    obtain ⟨running, rest⟩ := ite_none_right_eq_some.mp taken
    obtain ⟨_, finishes, same⟩ := map_eq_some_iff.mp rest
    obtain ⟨_, again, _, rfl⟩ := Store.finish_cases finishes
    cases phase.symm.trans again
    exact ⟨claimed, phase, running, same.symm⟩
  · cases taken

/-- The tables from the last one back to, and without, the last claim that may
be lost. -/
def restorable : List (Bool × Table) → List Table
  | [] => []
  | (true, _) :: _ => []
  | (false, table) :: earlier => table :: restorable earlier

def tables (delivery : Delivery) : List Table := delivery.store.rows :: restorable delivery.recent

theorem mem_restorable_take
    (member : table ∈ restorable (recent.take keep)) : table ∈ restorable recent := by
  induction recent generalizing keep with
  | nil => simpa using member
  | cons entry _ ih =>
    cases keep with
    | zero => cases member
    | succ =>
      obtain ⟨claim, _⟩ := entry
      cases claim with
      | true => exact member
      | false =>
        rcases mem_cons.mp member with rfl | rest
        · exact mem_cons_self
        · exact mem_cons_of_mem _ (ih rest)

theorem mem_restorable_drop (lost : Nat) (marks : ∀ entry ∈ recent.take lost, entry.1 = false)
    (member : table ∈ restorable (recent.drop lost)) : table ∈ restorable recent := by
  induction recent generalizing lost with
  | nil => simpa using member
  | cons entry _ ih =>
    cases lost with
    | zero => exact member
    | succ lost =>
      rw [take_succ_cons, forall_mem_cons] at marks
      obtain ⟨_, _⟩ := entry
      obtain ⟨rfl, rest⟩ := marks
      exact mem_cons_of_mem _ (ih lost rest member)

theorem crash_tables (marks : ∀ entry ∈ delivery.recent.take (statement + 1), entry.1 = false)
    (taken : delivery.crash statement = some next) :
    (∀ table ∈ next.tables, table ∈ delivery.tables) ∧
      ∃ table, next = { delivery with
        store := { delivery.store with rows := table }
        recent := delivery.recent.drop (statement + 1) } := by
  obtain ⟨⟨claim, table⟩, found, same⟩ := bind_eq_some_iff.mp taken
  cases same
  refine ⟨?_, table, rfl⟩
  have inside := (List.getElem?_eq_some_iff.mp found).1
  have here : (claim, table) ∈ delivery.recent.take (statement + 1) := by
    refine mem_of_getElem? (i := statement) ?_
    rw [getElem?_take_of_lt (Nat.lt_succ_self _)]
    exact found
  have unclaimed : claim = false := marks _ here
  subst unclaimed
  intro other member
  rcases mem_cons.mp member with rfl | earlier
  · refine mem_cons_of_mem _ (mem_restorable_drop statement ?_ ?_)
    · intro entry early
      refine marks entry ?_
      exact (take_subset_take_left delivery.recent (Nat.le_succ statement)) early
    · rw [drop_eq_getElem_cons inside]
      have entry := (List.getElem?_eq_some_iff.mp found).2
      rw [entry]
      exact mem_cons_self
  · exact mem_cons_of_mem _ (mem_restorable_drop _ marks earlier)

theorem written_tables {store : Store}
    (member : table ∈ (delivery.written label store).tables) :
    table = store.rows ∨ (table ∈ delivery.tables ∧
      (delivery.store.durability label = .untouched ∨
        delivery.store.durability label = .lazily false)) := by
  have same : (delivery.written label store).tables =
      store.rows :: restorable (delivery.recorded label) := by
    cases label <;> rfl
  rw [same] at member
  rcases mem_cons.mp member with here | earlier
  · exact .inl here
  · refine .inr ?_
    unfold recorded at earlier
    split at earlier
    · next quiet => exact ⟨mem_cons_of_mem _ earlier, .inl quiet⟩
    · next claim lazy =>
      cases claim with
      | true => cases earlier
      | false => exact ⟨earlier, .inr lazy⟩
    · cases earlier

end Delivery

end Usai.Queue
