import Usai.Http.Recorded

/-! Which requests are counted as rejections: the mark `before_world` of a
`Reply` against the world that the request was given. -/

namespace Usai.Http

open List Transition

/-- What the record says when the reply was marked so: a rejection has a reason
and no latency. -/
def Recorded.Marks (beforeWorld : Bool) : Recorded → Prop
  | .global record =>
    record.beforeWorld = beforeWorld ∧ record.latency.isNone = beforeWorld ∧
      record.rejection.isSome = beforeWorld
  | .workload record => record.rejection.isSome = beforeWorld
  | .stream | .streamFailed => True

def marked : Except Refusal HttpResponse → Bool
  | .ok _ => false
  | .error refusal => refusal.beforeWorld

def Stage.early : Stage → Bool
  | .routing | .checking => true
  | _ => false

def WorldStage.completes : WorldStage → Prop
  | .leaving ending | .finished ending => ∃ result, ending = .result result
  | .absent | .running => True

namespace Exchange

/-- Every record of the request says that it was rejected if and only if no world
was started for it. -/
def Marked (exchange : Exchange) : Prop :=
  ∀ record ∈ exchange.recorded, record.Marks !exchange.world.begun

/-- A world that is started can be created and its task does not panic, and a
socket is accepted or declined within the handshake's bound. -/
def Completes (_ : Exchange) : Act → Prop
  | .leave ending => ∃ result, ending = .result result
  | .expire _ => False
  | _ => True

structure Placed (exchange : Exchange) : Prop where
  begun : exchange.stage.final = false → exchange.world.begun = !exchange.stage.early
  fresh : exchange.stage.final = false → exchange.recorded = [] ∧ exchange.observer = none
  completes : exchange.world.completes
  marks : exchange.Marked

variable {expose : Bool} {before after : Exchange} {outcome : Except Refusal HttpResponse}

theorem workloadRecords_marks :
    ∀ record ∈ before.workloadRecords recordsItself status rejection elapsed,
      record.Marks rejection.isSome := by
  unfold workloadRecords
  split
  · split
    · exact nofun
    · exact forall_mem_singleton.mpr rfl
  · exact nofun

theorem rejection_isSome (refusal : Refusal) :
    refusal.rejection.isSome = refusal.beforeWorld := by
  cases given : refusal.beforeWorld <;> simp [given, Refusal.rejection]

theorem globalRecords_marks (elapsed : Nat) :
    ∀ record ∈ before.globalRecords outcome elapsed, record.Marks (marked outcome) := by
  unfold globalRecords
  split
  · exact nofun
  · cases outcome with
    | ok response =>
      dsimp only
      split
      · exact nofun
      · exact forall_mem_singleton.mpr ⟨rfl, rfl, rfl⟩
    | error refusal =>
      refine forall_mem_singleton.mpr ⟨rfl, ?_, rejection_isSome refusal⟩
      cases given : refusal.beforeWorld <;> simp [marked, given]

theorem settle_marks (recordsItself : Bool) (elapsed : Nat)
    (earlier : ∀ record ∈ before.recorded, record.Marks (marked outcome)) :
    ∀ record ∈ (before.settle recordsItself outcome elapsed).recorded,
      record.Marks (marked outcome) := by
  intro record member
  rcases mem_append.mp member with old | new
  · exact earlier record old
  rcases mem_append.mp new with own | global
  · cases outcome with
    | ok => exact workloadRecords_marks record own
    | error refusal =>
      have marks := workloadRecords_marks record own
      rwa [rejection_isSome] at marks
  · exact globalRecords_marks elapsed record global

variable (placed : before.Placed) (underway : before.stage.final = false)
include placed underway

theorem Placed.settled (observer : Option Nat) (recordsItself : Bool)
    (elapsed : Nat) (agrees : marked outcome = before.stage.early)
    (earlier : ∀ record ∈ records, record.Marks (marked outcome)) :
    ({ before with recorded := records, observer }.settle recordsItself outcome elapsed).Placed where
  begun := nofun
  fresh := nofun
  completes := placed.completes
  marks := by
    have mark : (!before.world.begun) = marked outcome := by
      rw [agrees, placed.begun underway, Bool.not_not]
    intro record member
    exact mark ▸ settle_marks recordsItself elapsed earlier record member

theorem Placed.answered (recordsItself : Bool) (elapsed : Nat)
    (agrees : marked outcome = before.stage.early) :
    (before.settle recordsItself outcome elapsed).Placed := by
  refine placed.settled underway before.observer recordsItself elapsed agrees ?_
  rw [(placed.fresh underway).1]
  exact nofun

theorem Placed.committed (stage : before.stage.early = false) (head : Head) (elapsed : Nat) :
    (before.commit head elapsed).Placed := by
  have streamed : ∀ record ∈ before.recorded ++ [.stream], record.Marks false := by
    rw [(placed.fresh underway).1]
    exact forall_mem_singleton.mpr trivial
  unfold Exchange.commit
  dsimp only
  split
  · exact placed.settled underway (some head.status) true elapsed stage.symm streamed
  · refine ⟨nofun, nofun, placed.completes, ?_⟩
    intro record member
    have begun : before.world.begun = true := by rw [placed.begun underway, stage]; rfl
    simpa [Exchange.record, begun] using streamed record member

omit underway in
theorem Placed.observed {ending : Ending}
    (done : before.world = .finished ending) (final : before.stage.final = true) :
    { before.record (observedRecords workload status ending) with observer := none }.Placed where
  begun := fun other => absurd (final.symm.trans other) nofun
  fresh := fun other => absurd (final.symm.trans other) nofun
  completes := placed.completes
  marks := by
    have mark : (!before.world.begun) = false := by rw [done]; rfl
    intro record member
    rcases mem_append.mp member with old | new
    · exact placed.marks record old
    · show record.Marks !before.world.begun
      rw [mark]
      unfold observedRecords at new
      rcases mem_append.mp new with counted | failed
      · rcases mem_pair.mp counted with rfl | rfl
        · rfl
        · exact ⟨rfl, rfl, rfl⟩
      · split at failed
        · cases mem_singleton.mp failed
          trivial
        · cases failed

omit underway in
theorem Placed.moves {world : WorldStage} (begun : world.begun = before.world.begun)
    (completes : world.completes) : { before with world }.Placed where
  begun := fun underway => begun.trans (placed.begun underway)
  fresh := placed.fresh
  completes := completes
  marks := fun record member => begun ▸ placed.marks record member

omit underway in
theorem Placed.step (allowed : before.Completes act)
    (taken : before.step expose act = some after) : after.Placed := by
  have outcome (failure panic : String → Refusal) {ending : Ending}
      (done : before.world = .finished ending) :
      marked (Ending.outcome expose failure panic ending) = false := by
    have completes := placed.completes
    rw [done] at completes
    obtain ⟨_, rfl⟩ := completes
    rfl
  cases moved_of_step taken with
  | refused early =>
    rcases early with stage | stage <;>
      exact placed.answered (by rw [stage]; rfl) false _ (by rw [stage]; rfl)
  | surfaced => exact ⟨nofun, nofun, placed.completes, placed.marks⟩
  | routed stage | dropped stage =>
    have underway : before.stage.final = false := by rw [stage]; rfl
    refine ⟨fun _ => ?_, fun _ => placed.fresh underway, placed.completes, placed.marks⟩
    rw [placed.begun underway, stage]
    rfl
  | began stage begins =>
    have fresh := placed.fresh (by rw [stage]; rfl)
    refine ⟨fun _ => ?_, fun _ => fresh, trivial, ?_⟩
    · rcases begins with rfl | rfl <;> rfl
    · intro record member
      rw [show before.recorded = [] from fresh.1] at member
      cases member
  | headCommitted | sent | accepted => exact { placed with }
  | left running => exact placed.moves (by rw [running]; rfl) allowed
  | finished leaving =>
    have completes := placed.completes
    rw [leaving] at completes
    exact placed.moves (by rw [leaving]; rfl) completes
  | executed stage done =>
    exact placed.answered (by rw [stage]; rfl) false _ (by rw [stage]; exact outcome _ _ done)
  | streamed stage =>
    exact placed.committed (by rw [stage]; rfl) (by rw [stage]; rfl) _ _
  | raced stage _ done =>
    exact placed.answered (by rw [stage]; rfl) true _ (by rw [stage]; exact outcome _ _ done)
  | @joined _ _ workload ending stage _ done =>
    have underway : before.stage.final = false := by rw [stage]; rfl
    refine placed.settled underway before.observer true _ (by rw [stage]; exact outcome _ _ done) ?_
    rw [(placed.fresh underway).1, streamOutcome, outcome _ _ done]
    refine forall_mem_singleton.mpr ?_
    cases ending <;> rfl
  | upgraded stage => exact placed.answered (by rw [stage]; rfl) false _ (by rw [stage]; rfl)
  | declined stage done =>
    rcases stage with stage | stage <;>
      exact placed.answered (by rw [stage]; rfl) false _ (by rw [stage]; exact outcome _ _ done)
  | expired => exact absurd allowed id
  | observed observer done =>
    refine placed.observed done ?_
    by_contra other
    rw [(placed.fresh (Bool.eq_false_iff.mpr other)).2] at observer
    cases observer
  | abandoned underway left =>
    refine ⟨nofun, nofun, ?_, ?_⟩
    · rcases left with rfl | rfl
      · exact placed.completes
      · trivial
    · intro record member
      rw [show before.recorded = [] from (placed.fresh underway).1] at member
      cases member

end Exchange

/-- In every run of a request, on a route of any kind and with any order of its
`select!` arms: as long as its world can be created and does not panic and no
handshake exceeds its bound, the request is recorded as rejected, with a reason and
without a latency, if and only if no world was started for it. -/
theorem rejections_marked (expose internal : Bool) (acts : List Act)
    (completes : Meets (fun exchange => exchange.step expose) Exchange.Completes
      (.new internal) acts) :
    Along (fun exchange => exchange.step expose) Exchange.Marked (.new internal) acts := by
  have initial : (Exchange.new internal).Placed :=
    ⟨fun _ => rfl, fun _ => ⟨rfl, rfl⟩, trivial, nofun⟩
  exact along_imp (fun _ => Exchange.Placed.marks)
    (along_of_meets (fun _ _ _ placed allowed taken => placed.step allowed taken) initial completes)

def acceptedRun : List Act :=
  [.route "items.live" .socket, .admitted, .accept none, .poll .signal 3, .leave (answering []),
    .finish]

theorem rejections_marked_accepted :
    Along (fun exchange => exchange.step false) Exchange.Marked (.new false) acceptedRun ∧
    (exec (fun exchange : Exchange => exchange.step false) (.new false) acceptedRun).map
      Exchange.globals = some [⟨101, false, some 3, none⟩] := by
  refine ⟨rejections_marked false false acceptedRun ?_, by decide⟩
  exact ⟨trivial, trivial, trivial, trivial, ⟨_, rfl⟩, trivial, trivial⟩

/-- A socket whose handler runs into the handshake's bound is a rejection although
its world runs, and a request whose world could not be created is none. -/
theorem rejection_mismarked :
    (exec (fun exchange : Exchange => exchange.step false) (.new false)
      [.route "items.live" .socket, .admitted, .expire 30000]).map
        (fun exchange => (exchange.world.begun, exchange.globals)) =
      some (true, [⟨504, true, none, some (.fromCode "deadline_exceeded")⟩]) ∧
    (exec (fun exchange : Exchange => exchange.step false) (.new false)
      [.route "items.list" .contract, .admitted, .leave (.failed "out of memory"), .finish,
        .poll .task 3]).map Exchange.globals = some [⟨500, false, some 3, none⟩] := by
  decide

end Usai.Http
