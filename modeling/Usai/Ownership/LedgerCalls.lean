import Usai.Ownership.LedgerIndex

/-! Sequences of ledger calls by any number of worlds: what one call can do to
the records, and what holds after every sequence. -/

namespace Usai.Ownership

open Ledger

inductive Operation where
  | start (world : WorldId) (kind : String)
  | cancelOp (op : OpId) (world : WorldId)
  | cancelWorld (world : WorldId)
  | release (op : OpId)
  | releaseGuard (guard : OpGuard)
  | dropGuard (guard : OpGuard)
  deriving DecidableEq, Repr

structure Answer where
  issued : Option OpId
  ended : List OpId
  deriving DecidableEq, Repr

def answerRelease (released : Ledger × Option OpRecord) (op : OpId) : Ledger × Answer :=
  (released.1, ⟨none, if released.2.isSome then [op] else []⟩)

def Operation.apply (ledger : Ledger) : Operation → Ledger × Answer
  | .start world kind => ((ledger.start world kind).1, ⟨some (ledger.start world kind).2, []⟩)
  | .cancelOp op world =>
    ((ledger.cancelOp op world).1, ⟨none, if (ledger.cancelOp op world).2 then [op] else []⟩)
  | .cancelWorld world => ((ledger.cancelWorld world).1, ⟨none, (ledger.cancelWorld world).2⟩)
  | .release op => answerRelease (ledger.release op) op
  | .releaseGuard guard => answerRelease (guard.release ledger) guard.op
  | .dropGuard guard => answerRelease (guard.drop ledger) guard.op

def run (ledger : Ledger) (operations : List Operation) : Ledger :=
  operations.foldl (fun ledger operation => (operation.apply ledger).1) ledger

def issuedBy : Ledger → List Operation → List OpId
  | _, [] => []
  | ledger, operation :: rest =>
    (operation.apply ledger).2.issued.toList ++ issuedBy (operation.apply ledger).1 rest

def endedBy : Ledger → List Operation → List OpId
  | _, [] => []
  | ledger, operation :: rest =>
    (operation.apply ledger).2.ended ++ endedBy (operation.apply ledger).1 rest

def Operation.Targets (ledger : Ledger) (op : OpId) : Operation → Prop
  | .start _ _ => False
  | .cancelOp target world => target = op ∧ ∃ record ∈ ledger.byOp.lookup op, record.world = world
  | .cancelWorld world => ∃ record ∈ ledger.byOp.lookup op, record.world = world
  | .release target => target = op ∧ (ledger.byOp.lookup op).isSome = true
  | .releaseGuard guard => guard.op = op ∧ (ledger.byOp.lookup op).isSome = true
  | .dropGuard guard =>
    guard.released = false ∧ guard.op = op ∧ (ledger.byOp.lookup op).isSome = true

theorem dropGuard_cases (guard : OpGuard) (ledger : Ledger) :
    guard.drop ledger = (ledger, none) ∨ guard.drop ledger = ledger.release guard.op := by
  unfold OpGuard.drop
  split
  · exact .inl rfl
  · exact .inr rfl

variable {ledger : Ledger} {op : OpId}

theorem apply_indexed (indexed : ledger.Indexed) (operation : Operation) :
    (operation.apply ledger).1.Indexed := by
  cases operation with
  | start world kind => exact start_indexed indexed world kind
  | cancelOp op world => exact cancelOp_indexed indexed op world
  | cancelWorld world => exact cancelAll_indexed indexed (ledger.opsOf world)
  | release op => exact release_indexed indexed op
  | releaseGuard guard => exact release_indexed indexed guard.op
  | dropGuard guard =>
    simp only [Operation.apply, answerRelease]
    rcases dropGuard_cases guard ledger with unchanged | released
    · rw [unchanged]
      exact indexed
    · rw [released]
      exact release_indexed indexed guard.op

theorem run_indexed (indexed : ledger.Indexed) (operations : List Operation) :
    (run ledger operations).Indexed := by
  induction operations generalizing ledger with
  | nil => exact indexed
  | cons operation _ ih => exact ih (apply_indexed indexed operation)

namespace Ledger

/-- Where a record after a call comes from: the call itself issued it, or it
was there before and kept its world, and its state unless it was cancelled. -/
def Traces (before after : Ledger) : Prop :=
  before.nextOp ≤ after.nextOp ∧
    ∀ op record, after.byOp.lookup op = some record → op.val ≤ before.nextOp →
      ∃ old, before.byOp.lookup op = some old ∧ record.world = old.world ∧
        (record.state = old.state ∨ record.state = .logicallyCancelled)

theorem traces_refl (ledger : Ledger) : Traces ledger ledger :=
  ⟨le_rfl, fun _ record found _ => ⟨record, found, rfl, .inl rfl⟩⟩

theorem start_traces (ledger : Ledger) (world : WorldId) (kind : String) :
    Traces ledger (ledger.start world kind).1 := by
  refine ⟨Nat.le_succ _, ?_⟩
  intro op record found old
  rw [start_lookup] at found
  split at found
  · subst op
    simp only at old
    omega
  · exact ⟨record, found, rfl, .inl rfl⟩

theorem cancelAll_traces (ledger : Ledger) (ops : List OpId) :
    Traces ledger { ledger with byOp := cancelAll ledger.byOp ops } := by
  refine ⟨le_rfl, ?_⟩
  intro op record found _
  rw [cancelAll_lookup] at found
  split at found
  · rw [Option.map_eq_some_iff] at found
    obtain ⟨old, before, rfl⟩ := found
    exact ⟨old, before, rfl, .inr rfl⟩
  · exact ⟨record, found, rfl, .inl rfl⟩

theorem cancelOp_traces (ledger : Ledger) (op : OpId) (world : WorldId) :
    Traces ledger (ledger.cancelOp op world).1 := by
  unfold cancelOp
  split
  · split
    · exact cancelAll_traces ledger [op]
    · exact traces_refl ledger
  · exact traces_refl ledger

theorem release_traces (ledger : Ledger) (op : OpId) : Traces ledger (ledger.release op).1 := by
  refine ⟨?_, ?_⟩
  · unfold release
    split <;> exact le_rfl
  · intro other record found _
    rw [release_lookup] at found
    split at found
    · cases found
    · exact ⟨record, found, rfl, .inl rfl⟩

theorem apply_traces (ledger : Ledger) (operation : Operation) :
    Traces ledger (operation.apply ledger).1 := by
  cases operation with
  | start world kind => exact start_traces ledger world kind
  | cancelOp op world => exact cancelOp_traces ledger op world
  | cancelWorld world => exact cancelAll_traces ledger (ledger.opsOf world)
  | release op => exact release_traces ledger op
  | releaseGuard guard => exact release_traces ledger guard.op
  | dropGuard guard =>
    simp only [Operation.apply, answerRelease]
    rcases dropGuard_cases guard ledger with unchanged | released
    · rw [unchanged]
      exact traces_refl ledger
    · rw [released]
      exact release_traces ledger guard.op

def Ended (ledger : Ledger) (op : OpId) : Prop :=
  op.val ≤ ledger.nextOp ∧
    ∀ record, ledger.byOp.lookup op = some record → record.state = .logicallyCancelled

theorem ended_of_traces {before after : Ledger} (traces : Traces before after)
    (ended : Ended before op) : Ended after op := by
  refine ⟨le_trans ended.1 traces.1, ?_⟩
  intro record found
  obtain ⟨old, present, _, same | cancelled⟩ := traces.2 op record found ended.1
  · exact same.trans (ended.2 old present)
  · exact cancelled

variable {ledger : Ledger}

theorem ended_not_deliverable (ended : Ended ledger op)
    (world : WorldId) : ledger.isDeliverable world op = false := by
  unfold isDeliverable
  cases found : ledger.byOp.lookup op with
  | none => rfl
  | some record => simp [ended.2 record found]

theorem release_ended (indexed : Indexed ledger) (recorded : (ledger.byOp.lookup op).isSome = true) :
    Ended (ledger.release op).1 op := by
  unfold release
  cases found : ledger.byOp.lookup op with
  | none => simp [found] at recorded
  | some record =>
    refine ⟨indexed.issued op record found, ?_⟩
    intro kept present
    simp at present

theorem cancelAll_ended (indexed : Indexed ledger) (ops : List OpId) (op : OpId)
    (record : OpRecord) (found : ledger.byOp.lookup op = some record) (member : op ∈ ops) :
    Ended { ledger with byOp := cancelAll ledger.byOp ops } op := by
  refine ⟨indexed.issued op record found, ?_⟩
  intro kept present
  rw [cancelAll_lookup, if_pos member, found] at present
  cases present
  rfl

theorem apply_ended (indexed : Indexed ledger) {call : Operation}
    (targets : call.Targets ledger op) : Ended (call.apply ledger).1 op := by
  cases call with
  | start => cases targets
  | cancelOp target world =>
    obtain ⟨rfl, record, found, owner⟩ := targets
    rw [Option.mem_def] at found
    simp only [Operation.apply, cancelOp, found, if_pos owner]
    exact cancelAll_ended indexed [target] target record found (List.mem_singleton_self _)
  | cancelWorld world =>
    obtain ⟨record, found, rfl⟩ := targets
    exact cancelAll_ended indexed _ op record found (indexed.listed op record found)
  | release | releaseGuard =>
    obtain ⟨rfl, recorded⟩ := targets
    exact release_ended indexed recorded
  | dropGuard guard =>
    obtain ⟨unreleased, rfl, recorded⟩ := targets
    simp only [Operation.apply, OpGuard.drop, unreleased]
    exact release_ended indexed recorded

theorem release_targets (target : OpId)
    (member : op ∈ (answerRelease (ledger.release target) target).2.ended) :
    target = op ∧ (ledger.byOp.lookup op).isSome = true := by
  cases found : ledger.byOp.lookup target with
  | none => simp [answerRelease, release, found] at member
  | some =>
    simp only [answerRelease, release, found, Option.isSome_some, if_true,
      List.mem_singleton] at member
    exact ⟨member.symm, by rw [member, found]; rfl⟩

theorem targets_of_ended (indexed : Indexed ledger) {call : Operation}
    (member : op ∈ (call.apply ledger).2.ended) : call.Targets ledger op := by
  cases call with
  | start => cases member
  | cancelOp target world =>
    cases found : ledger.byOp.lookup target with
    | none => simp [Operation.apply, cancelOp, found] at member
    | some record =>
      by_cases owner : record.world = world
      · simp only [Operation.apply, cancelOp, found, owner, if_true, List.mem_singleton] at member
        exact ⟨member.symm, record, member ▸ found, owner⟩
      · simp [Operation.apply, cancelOp, found, owner] at member
  | cancelWorld world => exact indexed.recorded world op member
  | release target => exact release_targets target member
  | releaseGuard guard => exact release_targets guard.op member
  | dropGuard guard =>
    simp only [Operation.apply, OpGuard.drop] at member
    split at member
    · simp [answerRelease] at member
    · next unreleased => exact ⟨Bool.eq_false_iff.mpr unreleased, release_targets guard.op member⟩

theorem apply_untargeted (indexed : ledger.Indexed) {call : Operation}
    (spared : ¬ call.Targets ledger op) (found : ledger.byOp.lookup op = some record) :
    (call.apply ledger).1.byOp.lookup op = some record := by
  have released (target : OpId) (other : target ≠ op) :
      (ledger.release target).1.byOp.lookup op = some record := by
    rw [release_lookup, if_neg (Ne.symm other), found]
  have recorded : (ledger.byOp.lookup op).isSome = true := by rw [found]; rfl
  cases call with
  | start world kind =>
    simp only [Operation.apply, start_lookup]
    refine (if_neg ?_).trans found
    rintro rfl
    rw [next_unrecorded indexed] at found
    cases found
  | cancelOp target world =>
    simp only [Operation.apply, Ledger.cancelOp]
    split
    · next other there =>
      split
      · next owner =>
        have apart : target ≠ op := by
          rintro rfl
          exact spared ⟨rfl, other, there, owner⟩
        exact (cancelAll_lookup ledger.byOp [target] op).trans
          ((if_neg (by simpa using Ne.symm apart)).trans found)
      · exact found
    · exact found
  | cancelWorld world =>
    have outside : op ∉ ledger.opsOf world := fun member => spared (indexed.recorded world op member)
    exact (cancelAll_lookup ledger.byOp _ op).trans ((if_neg outside).trans found)
  | release target => exact released target fun same => spared ⟨same, recorded⟩
  | releaseGuard guard => exact released guard.op fun same => spared ⟨same, recorded⟩
  | dropGuard guard =>
    simp only [Operation.apply, answerRelease, OpGuard.drop]
    cases dropped : guard.released with
    | true => exact found
    | false => exact released guard.op fun same => spared ⟨dropped, same, recorded⟩

end Ledger

def Untargeted (op : OpId) : Ledger → List Operation → Prop
  | _, [] => True
  | ledger, call :: rest => ¬ call.Targets ledger op ∧ Untargeted op (call.apply ledger).1 rest

theorem run_untargeted (indexed : ledger.Indexed) {calls : List Operation}
    (spared : Untargeted op ledger calls) (found : ledger.byOp.lookup op = some record) :
    (run ledger calls).byOp.lookup op = some record := by
  induction calls generalizing ledger with
  | nil => exact found
  | cons call _ ih =>
    exact ih (apply_indexed indexed call) spared.2 (apply_untargeted indexed spared.1 found)

theorem run_ended (ended : ledger.Ended op)
    (operations : List Operation) : (run ledger operations).Ended op := by
  induction operations generalizing ledger with
  | nil => exact ended
  | cons operation _ ih =>
    exact ih (ended_of_traces (apply_traces ledger operation) ended)

theorem endedBy_ended (indexed : ledger.Indexed) (operations : List Operation)
    (op : OpId) (member : op ∈ endedBy ledger operations) : (run ledger operations).Ended op := by
  induction operations generalizing ledger with
  | nil => cases member
  | cons operation rest ih =>
    rw [endedBy, List.mem_append] at member
    rcases member with now | later
    · exact run_ended (apply_ended indexed (targets_of_ended indexed now)) rest
    · exact ih (apply_indexed indexed operation) later

theorem apply_issued (ledger : Ledger) (operation : Operation) (op : OpId)
    (member : op ∈ (operation.apply ledger).2.issued.toList) :
    ledger.nextOp < op.val ∧ op.val ≤ (operation.apply ledger).1.nextOp := by
  cases operation with
  | start =>
    simp only [Operation.apply, start, Option.toList_some, List.mem_singleton] at member
    subst op
    exact ⟨Nat.lt_succ_self _, le_rfl⟩
  | _ => simp [Operation.apply, answerRelease] at member

theorem issuedBy_above (ledger : Ledger) (operations : List Operation) :
    ∀ op ∈ issuedBy ledger operations, ledger.nextOp < op.val := by
  induction operations generalizing ledger with
  | nil => intro op member; cases member
  | cons operation _ ih =>
    intro op member
    rw [issuedBy, List.mem_append] at member
    rcases member with now | later
    · exact (apply_issued ledger operation op now).1
    · exact lt_of_le_of_lt (apply_traces ledger operation).1 (ih _ op later)

theorem issuedBy_nodup (ledger : Ledger) (operations : List Operation) :
    (issuedBy ledger operations).Nodup := by
  induction operations generalizing ledger with
  | nil => exact List.nodup_nil
  | cons operation rest ih =>
    rw [issuedBy, List.nodup_append]
    refine ⟨?_, ih _, ?_⟩
    · cases (operation.apply ledger).2.issued <;> simp
    · intro first now second later same
      have above := issuedBy_above (operation.apply ledger).1 rest second later
      have below := (apply_issued ledger operation first now).2
      rw [same] at below
      omega

/-- Mutually inverse indexes: a record's operation is in the list of the
record's world, exactly once and in no other list; without a record it is in
no list; and no world keeps an empty list. -/
def Inverse (ledger : Ledger) : Prop :=
  (∀ op record, ledger.byOp.lookup op = some record →
    record.op = op ∧ (ledger.opsOf record.world).count op = 1 ∧
      ∀ world, world ≠ record.world → op ∉ ledger.opsOf world) ∧
  (∀ op, ledger.byOp.lookup op = none → ∀ world, op ∉ ledger.opsOf world) ∧
  ∀ world, ledger.byWorld.lookup world ≠ some []

theorem inverse_of_indexed (indexed : ledger.Indexed) : Inverse ledger := by
  refine ⟨?_, ?_, indexed.inhabited⟩
  · intro op record found
    refine ⟨indexed.named op record found, ?_, ?_⟩
    · exact List.count_eq_one_of_mem (indexed.distinct record.world)
        (indexed.listed op record found)
    · intro world different member
      obtain ⟨_, present, owner⟩ := indexed.recorded world op member
      rw [found, Option.some.injEq] at present
      exact different (by rw [← owner, ← present])
  · intro op absent world member
    obtain ⟨_, present, _⟩ := indexed.recorded world op member
    rw [absent] at present
    cases present

/-- The ledger's contract over every sequence of calls, and for what ended, over every
continuation of it: what a call answered to have ended, and what it was to end by the
records, is not deliverable again. What was started and no later call was to end is
deliverable, to the world that started it. -/
theorem ledger_contract (operations : List Operation) :
    Inverse (run Ledger.new operations) ∧
      (run Ledger.new operations).gauges.liveOps = (run Ledger.new operations).liveRecords ∧
      (issuedBy Ledger.new operations).Nodup ∧
      (∀ op ∈ endedBy Ledger.new operations, ∀ later world,
        (run Ledger.new (operations ++ later)).isDeliverable world op = false) ∧
      (∀ call op, call.Targets (run Ledger.new operations) op → ∀ later world,
        (run Ledger.new (operations ++ call :: later)).isDeliverable world op = false) ∧
      ∀ owner kind later, Untargeted ((run Ledger.new operations).start owner kind).2
          ((run Ledger.new operations).start owner kind).1 later →
        ∀ world, (run Ledger.new (operations ++ .start owner kind :: later)).isDeliverable world
          ((run Ledger.new operations).start owner kind).2 = decide (world = owner) := by
  have indexed := run_indexed new_indexed operations
  refine ⟨inverse_of_indexed indexed, indexed.counted, issuedBy_nodup _ operations, ?_, ?_, ?_⟩
  · intro op member later world
    rw [run, List.foldl_append]
    exact ended_not_deliverable
      (run_ended (endedBy_ended new_indexed operations op member) later) world
  · intro call op target later world
    rw [run, List.foldl_append, List.foldl_cons]
    exact ended_not_deliverable (run_ended (apply_ended indexed target) later) world
  · intro owner kind later spared world
    have begun := (start_lookup (run Ledger.new operations) owner kind _).trans (if_pos rfl)
    have kept := run_untargeted (start_indexed indexed owner kind) spared begun
    have same : run Ledger.new (operations ++ .start owner kind :: later) =
        run ((run Ledger.new operations).start owner kind).1 later := by
      rw [run, List.foldl_append, List.foldl_cons]
      rfl
    rw [same, isDeliverable, kept]
    simp [eq_comm]

end Usai.Ownership
