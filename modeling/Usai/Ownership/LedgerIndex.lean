import Usai.Ownership.Ledger

/-! The two indexes of the ledger stay mutually inverse and the gauge counts
the records, call by call. -/

namespace Usai.Ownership

open FiniteMap List Option

namespace Ledger

structure Indexed (ledger : Ledger) : Prop where
  named : ∀ op record, ledger.byOp.lookup op = some record → record.op = op
  listed : ∀ op record, ledger.byOp.lookup op = some record → op ∈ ledger.opsOf record.world
  recorded : ∀ world op, op ∈ ledger.opsOf world →
    ∃ record, ledger.byOp.lookup op = some record ∧ record.world = world
  distinct : ∀ world, (ledger.opsOf world).Nodup
  inhabited : ∀ world, ledger.byWorld.lookup world ≠ some []
  counted : ledger.gauges.liveOps = ledger.liveRecords
  issued : ∀ op record, ledger.byOp.lookup op = some record → op.val ≤ ledger.nextOp

theorem new_indexed : Indexed new where
  named := by intro op record found; cases found
  listed := by intro op record found; cases found
  recorded := by intro world op member; cases member
  distinct := by intro world; exact nodup_nil
  inhabited := by intro world found; cases found
  counted := rfl
  issued := by intro op record found; cases found

variable {ledger : Ledger}

theorem start_opsOf (ledger : Ledger) (world other : WorldId) (kind : String) :
    (ledger.start world kind).1.opsOf other =
      if other = world then ledger.opsOf world ++ [⟨ledger.nextOp + 1⟩] else ledger.opsOf other := by
  simp only [opsOf, start, lookup_insert_eq]
  split <;> rfl

theorem start_lookup (ledger : Ledger) (world : WorldId) (kind : String) (op : OpId) :
    (ledger.start world kind).1.byOp.lookup op =
      if op = ⟨ledger.nextOp + 1⟩ then some ⟨⟨ledger.nextOp + 1⟩, world, kind, .running⟩
      else ledger.byOp.lookup op :=
  lookup_insert_eq _ _ _ _

theorem cancelAll_lookup (records : FiniteMap OpId OpRecord) (ops : List OpId) (op : OpId) :
    (cancelAll records ops).lookup op =
      if op ∈ ops then (records.lookup op).map OpRecord.cancel else records.lookup op := by
  induction ops generalizing records with
  | nil => simp [cancelAll]
  | cons head tail ih =>
    have step : cancelAll records (head :: tail) =
        cancelAll (modify records head OpRecord.cancel) tail := rfl
    have once : OpRecord.cancel ∘ OpRecord.cancel = OpRecord.cancel := rfl
    rw [step, ih, lookup_modify]
    by_cases same : op = head
    · subst op
      by_cases later : head ∈ tail <;> simp [later, once]
    · simp [same]

theorem cancelAll_size (records : FiniteMap OpId OpRecord) (ops : List OpId) :
    size (cancelAll records ops) = size records := by
  induction ops generalizing records with
  | nil => rfl
  | cons head tail ih =>
    have step : cancelAll records (head :: tail) =
        cancelAll (modify records head OpRecord.cancel) tail := rfl
    rw [step, ih, size_modify]

theorem unlist_lookup (index : FiniteMap WorldId (List OpId)) (world other : WorldId) (op : OpId) :
    (unlist index world op).lookup other =
      if other = world then
        let rest := ((index.lookup world).getD []).filter (fun item => item ≠ op)
        if rest.isEmpty then none else some rest
      else index.lookup other := by
  unfold unlist
  cases found : index.lookup world with
  | none =>
    by_cases same : other = world
    · subst other
      simp [found]
    · simp [same]
  | some ops =>
    simp only [getD_some]
    by_cases empty : (ops.filter (fun item => item ≠ op)).isEmpty
    · rw [if_pos empty, if_pos empty, lookup_erase_eq]
    · rw [if_neg empty, if_neg empty, lookup_insert_eq]

theorem unlist_opsOf (ledger : Ledger) (world other : WorldId) (op : OpId)
    (records : FiniteMap OpId OpRecord) (gauges : Gauges) :
    opsOf { ledger with byOp := records, gauges := gauges,
                        byWorld := unlist ledger.byWorld world op } other =
      if other = world then (ledger.opsOf world).filter (fun item => item ≠ op)
      else ledger.opsOf other := by
  simp only [opsOf, unlist_lookup]
  by_cases same : other = world
  · rw [if_pos same, if_pos same]
    by_cases empty : (((ledger.byWorld.lookup world).getD []).filter
        (fun item => item ≠ op)).isEmpty
    · rw [if_pos empty]
      exact (isEmpty_iff.mp empty).symm
    · rw [if_neg empty]
      rfl
  · rw [if_neg same, if_neg same]

theorem unlist_inhabited (index : FiniteMap WorldId (List OpId)) (world other : WorldId) (op : OpId)
    (inhabited : ∀ world, index.lookup world ≠ some []) :
    (unlist index world op).lookup other ≠ some [] := by
  rw [unlist_lookup]
  by_cases same : other = world
  · simp only [if_pos same]
    split
    · simp
    · rename_i nonempty
      intro atNil
      rw [some.injEq] at atNil
      exact nonempty (isEmpty_iff.mpr atNil)
  · rw [if_neg same]
    exact inhabited other

theorem release_lookup (ledger : Ledger) (op other : OpId) :
    (ledger.release op).1.byOp.lookup other =
      if other = op then none else ledger.byOp.lookup other := by
  unfold release
  cases found : ledger.byOp.lookup op with
  | none =>
    by_cases same : other = op
    · rw [if_pos same, same]
      exact found
    · rw [if_neg same]
  | some => exact lookup_erase_eq _ _ _

variable (indexed : Indexed ledger)
include indexed

theorem next_unrecorded :
    ledger.byOp.lookup ⟨ledger.nextOp + 1⟩ = none := by
  cases found : ledger.byOp.lookup ⟨ledger.nextOp + 1⟩ with
  | none => rfl
  | some =>
    have bound := indexed.issued _ _ found
    simp only at bound
    omega

theorem next_unlisted (world : WorldId) :
    (⟨ledger.nextOp + 1⟩ : OpId) ∉ ledger.opsOf world := by
  intro member
  obtain ⟨_, found, _⟩ := indexed.recorded world _ member
  rw [next_unrecorded indexed] at found
  cases found

theorem start_indexed (world : WorldId) (kind : String) : Indexed (ledger.start world kind).1 where
  named := by
    intro op record found
    rw [start_lookup] at found
    split at found
    · cases found
      symm
      assumption
    · exact indexed.named op record found
  listed := by
    intro op record found
    rw [start_lookup] at found
    rw [start_opsOf]
    split at found
    · cases found
      simp_all
    · have member := indexed.listed op record found
      split
      · rename_i same
        rw [same] at member
        exact mem_append_left _ member
      · exact member
  recorded := by
    intro other op member
    rw [start_opsOf] at member
    rw [start_lookup]
    by_cases here : op = ⟨ledger.nextOp + 1⟩
    · subst op
      by_cases same : other = world
      · exact ⟨_, if_pos rfl, same.symm⟩
      · rw [if_neg same] at member
        exact absurd member (next_unlisted indexed other)
    · rw [if_neg here]
      by_cases same : other = world
      · subst other
        rw [if_pos rfl, mem_append, mem_singleton] at member
        exact indexed.recorded world op (member.resolve_right here)
      · rw [if_neg same] at member
        exact indexed.recorded other op member
  distinct := by
    intro other
    rw [start_opsOf]
    split
    · rw [← concat_eq_append]
      exact List.Nodup.concat (next_unlisted indexed world) (indexed.distinct world)
    · exact indexed.distinct other
  inhabited := by
    intro other
    simp only [start, lookup_insert_eq]
    split
    · simp
    · exact indexed.inhabited other
  counted := by
    have counted := indexed.counted
    simp only [start, liveRecords, size_insert_absent _ _ _ (next_unrecorded indexed),
      counted]
  issued := by
    intro op record found
    rw [start_lookup] at found
    simp only [start]
    split at found
    · rename_i same
      rw [same]
    · have bound := indexed.issued op record found
      omega

/-- A change that keeps every record's id and world, and the number of
records, keeps the indexes. Both cancellations are of this kind. -/
theorem indexed_of_relabel (records : FiniteMap OpId OpRecord)
    (back : ∀ op record, records.lookup op = some record →
      ∃ old, ledger.byOp.lookup op = some old ∧ record.op = old.op ∧ record.world = old.world)
    (forth : ∀ op old, ledger.byOp.lookup op = some old →
      ∃ record, records.lookup op = some record ∧ record.world = old.world)
    (size : size records = size ledger.byOp) :
    Indexed { ledger with byOp := records } := by
  constructor
  · intro op record found
    obtain ⟨old, before, sameOp, _⟩ := back op record found
    rw [sameOp]
    exact indexed.named op old before
  · intro op record found
    obtain ⟨old, before, _, sameWorld⟩ := back op record found
    rw [sameWorld]
    exact indexed.listed op old before
  · intro world op member
    obtain ⟨old, before, owner⟩ := indexed.recorded world op member
    obtain ⟨record, found, sameWorld⟩ := forth op old before
    exact ⟨record, found, sameWorld.trans owner⟩
  · exact indexed.distinct
  · exact indexed.inhabited
  · rw [indexed.counted]
    exact size.symm
  · intro op record found
    obtain ⟨old, before, _, _⟩ := back op record found
    exact indexed.issued op old before

theorem cancelAll_indexed (ops : List OpId) :
    Indexed { ledger with byOp := cancelAll ledger.byOp ops } := by
  apply indexed_of_relabel indexed
  · intro op record found
    rw [cancelAll_lookup] at found
    split at found
    · rw [map_eq_some_iff] at found
      obtain ⟨old, before, rfl⟩ := found
      exact ⟨old, before, rfl, rfl⟩
    · exact ⟨record, found, rfl, rfl⟩
  · intro op old before
    rw [cancelAll_lookup, before]
    split
    · exact ⟨old.cancel, rfl, rfl⟩
    · exact ⟨old, rfl, rfl⟩
  · exact cancelAll_size ledger.byOp ops

theorem cancelOp_indexed (op : OpId) (world : WorldId) : Indexed (ledger.cancelOp op world).1 := by
  unfold cancelOp
  split
  · split
    · exact cancelAll_indexed indexed [op]
    · exact indexed
  · exact indexed

theorem release_indexed (op : OpId) :
    Indexed (ledger.release op).1 := by
  unfold release
  cases found : ledger.byOp.lookup op with
  | none => exact indexed
  | some record =>
    constructor
    case named =>
      intro other kept present
      rw [lookup_erase_eq] at present
      split at present
      · cases present
      · exact indexed.named other kept present
    case listed =>
      intro other kept present
      rw [lookup_erase_eq] at present
      rw [unlist_opsOf]
      obtain ⟨different, present⟩ := ite_none_left_eq_some.mp present
      have member := indexed.listed other kept present
      split
      · rename_i same
        rw [same] at member
        exact mem_filter.mpr ⟨member, by simpa using different⟩
      · exact member
    case recorded =>
      intro world other member
      rw [unlist_opsOf] at member
      rw [lookup_erase_eq]
      have keep : other ≠ op ∧ other ∈ ledger.opsOf world := by
        split at member
        · rename_i same
          rw [mem_filter] at member
          exact ⟨by simpa using member.2, same ▸ member.1⟩
        · rename_i different
          refine ⟨?_, member⟩
          rintro rfl
          obtain ⟨_, sameFound, atWorld⟩ := indexed.recorded world other member
          rw [found, some.injEq] at sameFound
          exact different (by rw [← atWorld, ← sameFound])
      rw [if_neg keep.1]
      exact indexed.recorded world other keep.2
    case distinct =>
      intro world
      rw [unlist_opsOf]
      split
      · exact (indexed.distinct _).filter _
      · exact indexed.distinct world
    case inhabited =>
      intro world
      exact unlist_inhabited ledger.byWorld record.world world op indexed.inhabited
    case counted =>
      have counted := indexed.counted
      have size := size_erase_present ledger.byOp op record found
      simp only [liveRecords, counted]
      omega
    case issued =>
      intro other kept present
      rw [lookup_erase_eq] at present
      split at present
      · cases present
      · exact indexed.issued other kept present

end Ledger

end Usai.Ownership
