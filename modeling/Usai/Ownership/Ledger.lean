import Usai.FiniteMap

/-! The live-ownership ledger of `ownership.rs`: operations by id and by owning
world, and the runtime-wide gauges. Each method holds the one lock for its
whole body, so a run is a sequence of whole operations. -/

namespace Usai.Ownership

structure WorldId where
  val : Nat
  deriving DecidableEq, Repr

structure OpId where
  val : Nat
  deriving DecidableEq, Repr

inductive OpState where
  | running
  | logicallyCancelled
  deriving DecidableEq, Repr

structure OpRecord where
  op : OpId
  world : WorldId
  kind : String
  state : OpState
  deriving DecidableEq, Repr

def OpRecord.cancel (record : OpRecord) : OpRecord :=
  { record with state := .logicallyCancelled }

/-- The counters of `Gauges`. The CPU and wall-time maps are read by no
function here and are left out. -/
structure Gauges where
  worldsCreated : Nat
  liveWorlds : Nat
  liveOps : Nat
  completionsDelivered : Nat
  completionsDroppedLate : Nat
  completionsRejectedStale : Nat
  detachedWorkDetected : Nat
  deadlineUnwindOverruns : Nat
  deriving DecidableEq, Repr

def Gauges.zero : Gauges := ⟨0, 0, 0, 0, 0, 0, 0, 0⟩

structure Ledger where
  nextWorld : Nat
  nextOp : Nat
  byOp : FiniteMap OpId OpRecord
  byWorld : FiniteMap WorldId (List OpId)
  gauges : Gauges

namespace Ledger

def new : Ledger := ⟨0, 0, ∅, ∅, Gauges.zero⟩

def nextWorldId (ledger : Ledger) : Ledger × WorldId :=
  ({ ledger with nextWorld := ledger.nextWorld + 1 }, ⟨ledger.nextWorld + 1⟩)

def opsOf (ledger : Ledger) (world : WorldId) : List OpId :=
  (ledger.byWorld.lookup world).getD []

def start (ledger : Ledger) (world : WorldId) (kind : String) : Ledger × OpId :=
  let op : OpId := ⟨ledger.nextOp + 1⟩
  ({ ledger with
      nextOp := ledger.nextOp + 1
      byOp := ledger.byOp.insert op ⟨op, world, kind, .running⟩
      byWorld := ledger.byWorld.insert world (ledger.opsOf world ++ [op])
      gauges := { ledger.gauges with liveOps := ledger.gauges.liveOps + 1 } }, op)

def cancelAll (records : FiniteMap OpId OpRecord) (ops : List OpId) : FiniteMap OpId OpRecord :=
  ops.foldl (fun records op => FiniteMap.modify records op OpRecord.cancel) records

def cancelWorld (ledger : Ledger) (world : WorldId) : Ledger × List OpId :=
  let ops := ledger.opsOf world
  ({ ledger with byOp := cancelAll ledger.byOp ops }, ops)

def cancelOp (ledger : Ledger) (op : OpId) (world : WorldId) : Ledger × Bool :=
  match ledger.byOp.lookup op with
  | some record =>
    if record.world = world then
      ({ ledger with byOp := FiniteMap.modify ledger.byOp op OpRecord.cancel }, true)
    else (ledger, false)
  | none => (ledger, false)

def isDeliverable (ledger : Ledger) (world : WorldId) (op : OpId) : Bool :=
  match ledger.byOp.lookup op with
  | some record => decide (record.world = world ∧ record.state = .running)
  | none => false

def unlist (index : FiniteMap WorldId (List OpId)) (world : WorldId) (op : OpId) :
    FiniteMap WorldId (List OpId) :=
  match index.lookup world with
  | some ops =>
    let rest := ops.filter (fun other => other ≠ op)
    if rest.isEmpty then index.erase world else index.insert world rest
  | none => index

def release (ledger : Ledger) (op : OpId) : Ledger × Option OpRecord :=
  match ledger.byOp.lookup op with
  | some record =>
    ({ ledger with
        byOp := ledger.byOp.erase op
        byWorld := unlist ledger.byWorld record.world op
        gauges := { ledger.gauges with liveOps := ledger.gauges.liveOps - 1 } }, some record)
  | none => (ledger, none)

def liveRecords (ledger : Ledger) : Nat := FiniteMap.size ledger.byOp

end Ledger

structure OpGuard where
  op : OpId
  released : Bool
  deriving DecidableEq, Repr

namespace OpGuard

def new (op : OpId) : OpGuard := ⟨op, false⟩

/-- The explicit release; the guard dropped at its end no longer releases. -/
def release (guard : OpGuard) (ledger : Ledger) : Ledger × Option OpRecord :=
  ledger.release guard.op

def drop (guard : OpGuard) (ledger : Ledger) : Ledger × Option OpRecord :=
  if guard.released then (ledger, none) else ledger.release guard.op

end OpGuard

end Usai.Ownership
