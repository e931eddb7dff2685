import Usai.Postgres.Table

/-! The life of a transaction: that it ends once, that nothing reaches its
connection afterwards, and that a cancelled world commits nothing. -/

namespace Usai.Postgres

open Holder List Manager Option

open Transition (Along Between Meets along_of_meets along_imp between_of_meets meets_true)

def Request.ends : Request → Bool
  | .commit | .rollback => true
  | _ => false

namespace Holder

variable (holder : Holder)

def endings : List Request := (holder.sent.map Sent.request).filter Request.ends

def commits : Nat := holder.endings.count .commit

def Opened (endings : List Request) : Prop :=
  holder.session.block = true ∧ holder.terminal = false ∧ holder.endings = endings

def Closed (endings : List Request) : Prop :=
  holder.session.block = false ∧ holder.terminal = true ∧ holder.endings = endings

/-- The server's transaction is open until one request to end it has been
answered. An end that failed is followed by a `ROLLBACK`, and of one that fails
as well this says only that it was sent. -/
def Orderly : Prop :=
  match holder.phase with
  | .selecting _ | .preparing _ _ _ _ | .executing _ _ _ => holder.Opened []
  | .finishing _ commit => holder.Opened [endRequest commit]
  | .leaving => holder.Opened [.rollback]
  | .undoing _ _ => holder.terminal = false ∧ ∃ commit, holder.endings = [endRequest commit, .rollback]
  | .ended .committed => holder.Closed [.commit]
  | .ended .rolledBack => holder.Closed [.rollback]
  | .ended (.undone answered) =>
    (answered = true → holder.session.block = false) ∧ holder.terminal = true ∧
      ∃ commit, holder.endings = [endRequest commit, .rollback]
  | .ended .quarantined => holder.terminal = false ∧ holder.endings.length ≤ 1

end Holder

def Phase.remaining : Phase → Nat
  | .selecting true => 5
  | .preparing _ _ _ _ => 4
  | .executing _ _ _ => 3
  | .selecting false | .finishing _ _ => 2
  | .undoing _ _ | .leaving => 1
  | .ended _ => 0

section

variable (setting : Setting) (manager : Manager)

def ClosedTo (index : Nat) : Stage → Prop
  | .looking =>
    manager.step setting (.look index) = some (manager.setStage index .sending) ∨
      manager.step setting (.look index) =
        some (manager.setStage index (.answered (.error transactionClosed)))
  | .sending =>
    manager.step setting (.send index) =
      some (manager.setStage index (.answered (.error transactionClosed)))
  | .handed => False
  | .answered _ => True

structure Protocol : Prop where
  orderly : ∀ lease holder, manager.holders.lookup lease = some holder → holder.Orderly
  /-- Once the world is cancelled or an end was sent, the holder ends after at
  most `remaining` steps, whatever the server answers. -/
  ending : ∀ lease holder, manager.holders.lookup lease = some holder → ¬ holder.Ended →
    (holder.owner ∈ manager.cancelled ∨ holder.endings ≠ []) →
      (∀ answer, ∃ event ∈ [HolderEvent.poll, .receive, .answer answer false],
        (manager.step setting (.holder lease event)).isSome) ∧
      ∀ event next, manager.step setting (.holder lease event) = some next →
        ∃ after, next.holders.lookup lease = some after ∧
          after.phase.remaining < holder.phase.remaining
  closed : ∀ (index : Nat) (call : TxCall) holder, manager.calls[index]? = some call →
    manager.holders.lookup call.lease = some holder → holder.Ended →
      ClosedTo setting manager index call.stage
  dropped : ∀ lease holder index event next after, manager.holders.lookup lease = some holder →
    holder.queue = some index → holder.phase ≠ .selecting true →
      manager.step setting (.holder lease event) = some next →
        next.holders.lookup lease = some after → after.Ended →
          ∃ call, next.calls[index]? = some call ∧
            call.stage = .answered (.error transactionClosed)

structure Lasting (first later : Manager) : Prop where
  ended : ∀ lease holder, first.holders.lookup lease = some holder → holder.Ended →
    ∃ after, later.holders.lookup lease = some after ∧ after = { holder with listed := after.listed }
  closed : ∀ (index : Nat) (call : TxCall) holder, later.calls[index]? = some call →
    first.holders.lookup call.lease = some holder → holder.Ended →
      (∃ before, first.calls[index]? = some before ∧ before.lease = call.lease ∧
        before.stage = call.stage) ∨
      call.stage = .looking ∨ call.stage = .sending ∨
        call.stage = .answered (.error transactionClosed)
  /-- After the cancellation of its world a holder sends no `COMMIT`, unless it
  had looked at its token before and was about to look into its channel. -/
  doomed : ∀ lease holder, first.holders.lookup lease = some holder →
    holder.owner ∈ first.cancelled → holder.phase ≠ .selecting true →
      ∃ after, later.holders.lookup lease = some after ∧ after.owner = holder.owner ∧
        after.owner ∈ later.cancelled ∧ after.phase ≠ .selecting true ∧
        after.commits = holder.commits

def TxCommand.Plain : TxCommand → Prop
  | .sql _ request => setting.control request.sql = .neutral
  | .finish _ => True

/-- No statement that names a lease opens or ends a transaction itself. -/
def Plain (_ : Manager) : TxLabel → Prop
  | .enter _ operation =>
    match operation.route with
    | .command _ command => command.Plain setting
    | _ => True
  | _ => True

instance (command : TxCommand) : Decidable (command.Plain setting) := by
  unfold TxCommand.Plain
  split <;> infer_instance

instance (label : TxLabel) : Decidable (Plain setting manager label) := by
  unfold Plain
  repeat' split
  all_goals infer_instance

end

section

variable {setting : Setting} {holder next : Holder} {cancelled : Bool}
  {queued : Option (Nat × TxCommand)} {event : HolderEvent} {replies : List (Nat × Reply)}

def Phase.Plain (setting : Setting) : Phase → Prop
  | .preparing _ _ _ request | .executing _ _ request => setting.control request.sql = .neutral
  | _ => True

theorem endings_send (holder : Holder) (issuer : Option Nat) (request : Request) (phase : Phase) :
    (holder.send issuer request phase).endings =
      holder.endings ++ if request.ends then [request] else [] := by
  simp only [endings, send, map_append, filter_append]
  cases ends : request.ends <;> simp [ends]

theorem endRequest_ends (commit : Bool) : (endRequest commit).ends = true := by
  cases commit <;> rfl

variable {endings : List Request} {request : Request} {call world : Nat} {method : Method}
  {ready : Holder}

theorem Holder.Opened.send (opened : holder.Opened endings)
    (issuer : Option Nat) (ends : request.ends = true) (phase : Phase) :
    (holder.send issuer request phase).Opened (endings ++ [request]) :=
  ⟨opened.1, opened.2.1, by rw [endings_send, opened.2.2, if_pos ends]⟩

theorem Holder.Opened.send_plain (opened : holder.Opened endings)
    (issuer : Option Nat) (ends : request.ends = false) (phase : Phase) :
    (holder.send issuer request phase).Opened endings :=
  ⟨opened.1, opened.2.1, by rw [endings_send, opened.2.2, ends]; simp⟩

theorem Ready.opened {request : SqlRequest}
    (prepared : Ready holder queued call world method request ready) (orderly : holder.Orderly) :
    ready.Opened [] := by
  unfold Holder.Orderly at orderly
  cases prepared with
  | cached selecting _ _ =>
    rw [selecting] at orderly
    exact orderly
  | prepared _ preparing block =>
    rw [preparing] at orderly
    exact ⟨block.trans orderly.1, orderly.2⟩

theorem Ready.neutral {request : SqlRequest}
    (prepared : Ready holder queued call world method request ready)
    (plain : holder.phase.Plain setting)
    (given : ∀ world command, queued = some (world, command) → command.Plain setting) :
    setting.control request.sql = .neutral := by
  cases prepared with
  | cached _ _ command => exact given _ _ command
  | prepared _ preparing _ =>
    rw [preparing] at plain
    exact plain

theorem Settling.opened
    (settling : Settling setting holder queued call ready) (plain : holder.phase.Plain setting)
    (orderly : holder.Orderly) : ready.Opened [] := by
  cases settling with
  | refused prepared => exact prepared.opened orderly
  | unprepared _ preparing block =>
    unfold Holder.Orderly at orderly
    rw [preparing] at orderly
    exact ⟨block.trans orderly.1, orderly.2⟩
  | executed _ executing block =>
    unfold Holder.Orderly at orderly
    rw [executing] at orderly plain
    exact ⟨(block plain).trans orderly.1, orderly.2⟩

variable (move : Move setting holder cancelled queued event next replies)

include move in
theorem Move.plain
    (plain : holder.phase.Plain setting)
    (given : ∀ world command, queued = some (world, command) → command.Plain setting) :
    next.phase.Plain setting := by
  cases move with
  | prepare _ _ command => exact given _ _ command
  | execute prepared => exact prepared.neutral plain given
  | leave | look | idle | finish | settle | quarantine | conclude | undo | undone | left | abandon
    | lose => trivial

theorem orderly_quarantined
    (answers : List (Nat × Reply)) (sent : ready.endings = endings) (few : endings.length ≤ 1) :
    (ready.finish .quarantined answers).1.Orderly :=
  ⟨rfl, sent ▸ few⟩

include move in
theorem Move.orderly
    (plain : holder.phase.Plain setting) (orderly : holder.Orderly) : next.Orderly := by
  have before := orderly
  unfold Holder.Orderly at before
  cases move with
  | leave selecting fired =>
    rw [selecting] at before
    exact before.send none rfl .leaving
  | look selecting unfired | idle selecting =>
    rw [selecting] at before
    exact before
  | prepare selecting taken command =>
    rw [selecting] at before
    have taken : Holder.Opened { holder with queue := none } [] := before
    exact taken.send_plain _ rfl _
  | finish selecting taken command =>
    rw [selecting] at before
    have taken : Holder.Opened { holder with queue := none } [] := before
    exact taken.send _ (endRequest_ends _) _
  | execute prepared => exact (prepared.opened orderly).send_plain _ rfl _
  | settle reply settling => exact settling.opened plain orderly
  | quarantine reply settling =>
    exact orderly_quarantined _ (settling.opened plain orderly).2.2 (by simp)
  | conclude session finishing outside =>
    rename_i commit
    rw [finishing] at before
    cases commit with
    | true | false => exact ⟨outside, rfl, before.2.2⟩
  | undo session error finishing =>
    rename_i commit
    rw [finishing] at before
    exact ⟨before.2.1, commit, (endings_send _ _ _ _).trans (congrArg (· ++ _) before.2.2)⟩
  | undone session answered undoing outside =>
    rw [undoing] at before
    exact ⟨outside, rfl, before.2⟩
  | left session leaving outside =>
    rw [leaving] at before
    exact ⟨outside, rfl, before.2.2⟩
  | abandon session leaving =>
    rw [leaving] at before
    exact orderly_quarantined _ before.2.2 (by simp)
  | lose session error pending =>
    rcases pending with ⟨_, _, executing⟩ | ⟨_, finishing⟩
    · rw [executing] at before
      exact orderly_quarantined _ before.2.2 (by simp)
    · rw [finishing] at before
      exact orderly_quarantined _ before.2.2 (by simp)

theorem Settling.queue
    (settling : Settling setting holder queued call ready) (busy : holder.phase ≠ .selecting true) :
    ready.queue = holder.queue := by
  cases settling with
  | refused prepared =>
    cases prepared with
    | cached selecting _ _ => exact absurd selecting busy
    | prepared => rfl
  | unprepared => rfl
  | executed => rfl

attribute [local simp] Phase.remaining Holder.finish send resume

theorem Ready.remaining {request : SqlRequest}
    (prepared : Ready holder queued call world method request ready) :
    3 < holder.phase.remaining := by
  cases prepared with
  | cached selecting _ _ => simp [selecting]
  | prepared _ preparing _ => simp [preparing]

theorem Settling.remaining
    (settling : Settling setting holder queued call ready) : 2 < holder.phase.remaining := by
  cases settling with
  | refused prepared => exact Nat.lt_of_succ_lt prepared.remaining
  | unprepared _ preparing _ => simp [preparing]
  | executed _ executing _ => simp [executing]

include move in
theorem Move.remaining
    (leaves : cancelled = true ∨ holder.phase ≠ .selecting false) :
    next.phase.remaining < holder.phase.remaining := by
  cases move with
  | leave selecting | prepare selecting | finish selecting | idle selecting => simp [selecting]
  | look selecting unfired => simp [selecting, unfired] at leaves
  | execute prepared => exact prepared.remaining
  | settle _ settling => exact settling.remaining
  | quarantine _ settling => exact Nat.zero_lt_of_lt settling.remaining
  | conclude _ finishing _ | undo _ _ finishing => simp [finishing]
  | undone _ _ undoing _ => simp [undoing]
  | left _ leaving _ | abandon _ leaving => simp [leaving]
  | lose _ _ pending =>
    rcases pending with ⟨_, _, executing⟩ | ⟨_, finishing⟩
    · simp [executing]
    · simp [finishing]

theorem answered_isSome (unended : ¬ holder.Ended) (waits : ∀ looked, holder.phase ≠ .selecting looked)
    (answer : Answer) (noticed : Bool) : (holder.answered setting answer noticed).isSome = true := by
  unfold answered
  cases phase : holder.phase with
  | selecting looked => exact absurd phase (waits looked)
  | preparing | leaving => cases answer.result <;> rfl
  | executing => rfl
  | finishing =>
    dsimp only
    split
    · rfl
    · split <;> rfl
  | undoing => rfl
  | ended ending => exact absurd ⟨ending, phase⟩ unended

theorem step_isSome (setting : Setting) (cancelled : Bool) (queued : Option (Nat × TxCommand))
    (unended : ¬ holder.Ended) (answer : Answer) :
    ∃ event ∈ [HolderEvent.poll, .receive, .answer answer false],
      (holder.step setting cancelled queued event).isSome = true := by
  by_cases waits : ∀ looked, holder.phase ≠ .selecting looked
  · refine ⟨.answer answer false, by simp, ?_⟩
    simpa [Holder.step] using answered_isSome unended waits answer false
  · simp only [not_forall, not_not] at waits
    obtain ⟨looked, selecting⟩ := waits
    cases looked with
    | false =>
      refine ⟨.poll, by simp, ?_⟩
      simp only [Holder.step, selecting]
      split <;> rfl
    | true =>
      refine ⟨.receive, by simp, ?_⟩
      simp only [Holder.step, selecting]
      split <;> rfl

include move in
theorem Move.dropped (waiting : holder.queue = some index) (busy : holder.phase ≠ .selecting true)
    (ended : next.Ended) : ∃ front, replies = front ++ [(index, .error transactionClosed)] := by
  have finish (ready : Holder) (ending : Ending) (answers : List (Nat × Reply))
      (same : ready.queue = holder.queue) :
      ∃ front, (ready.finish ending answers).2 = front ++ [(index, .error transactionClosed)] :=
    ⟨answers, by simp [Holder.finish, same, waiting]⟩
  cases move with
  | quarantine _ settling => exact finish _ _ _ (settling.queue busy)
  | conclude | undone | left | abandon | lose => exact finish _ _ _ rfl
  | leave | look | idle | prepare | finish | execute | settle | undo =>
    obtain ⟨_, phase⟩ := ended
    cases phase

theorem commits_send (holder : Holder) (issuer : Option Nat) (phase : Phase)
    (other : request ≠ .commit) : (holder.send issuer request phase).commits = holder.commits := by
  simp only [commits, endings_send, count_append]
  split
  · simp [other]
  · simp

theorem commits_of_sent {other : Holder} (sent : other.sent = holder.sent) :
    other.commits = holder.commits := by
  simp only [commits, endings, sent]

include move in
theorem Move.commits
    (fired : cancelled = true) (busy : holder.phase ≠ .selecting true) :
    next.phase ≠ .selecting true ∧ next.commits = holder.commits := by
  cases move with
  | leave | undo => exact ⟨nofun, commits_send _ _ _ nofun⟩
  | look _ unfired =>
    rw [fired] at unfired
    cases unfired
  | idle selecting | prepare selecting _ _ | finish selecting _ _ =>
    exact absurd selecting busy
  | execute prepared =>
    refine ⟨nofun, ?_⟩
    rw [commits_send _ _ _ (by simp)]
    exact commits_of_sent prepared.serving.sent
  | settle _ settling | quarantine _ settling =>
    exact ⟨nofun, commits_of_sent settling.serving.sent⟩
  | conclude | undone | left | abandon | lose => exact ⟨nofun, commits_of_sent rfl⟩

end

section

variable {setting : Setting} {manager next : Manager} {label : TxLabel}

structure Sequential (setting : Setting) (manager : Manager) : Prop where
  coherent : Coherent manager
  commands : ∀ (index : Nat) (call : TxCall), manager.calls[index]? = some call →
    call.command.Plain setting
  plain : ∀ lease holder, manager.holders.lookup lease = some holder → holder.phase.Plain setting
  orderly : ∀ lease holder, manager.holders.lookup lease = some holder → holder.Orderly

theorem sequential_new (setting : Setting) : Sequential setting new := by
  refine ⟨coherent_new, ?_, ?_, ?_⟩ <;> intros <;> simp_all [new, AList.lookup_empty]

theorem Sequential.queued (sequential : Sequential setting manager) (holder : Holder)
    (given : manager.queued holder = some (world, command)) :
    command.Plain setting := by
  obtain ⟨index, _, found⟩ := bind_eq_some_iff.mp given
  obtain ⟨call, here, same⟩ := map_eq_some_iff.mp found
  cases same
  exact sequential.commands index call here

theorem sequential_step (sequential : Sequential setting manager)
    (allowed : Plain setting manager label) (step : manager.step setting label = some next) :
    Sequential setting next := by
  have change := change_of_step step
  have unused := sequential.coherent.unused
  refine ⟨coherent_step sequential.coherent step, ?_, ?_, ?_⟩
  · intro index call here
    rcases change.call here with ⟨before, known, advances⟩ | ⟨_, _, world, _, rfl, route⟩
    · rw [advances.command]
      exact sequential.commands index before known
    · simpa only [Plain, route] using allowed
  · refine change.holders unused (fun _ _ _ _ => trivial) ?_
    intro lease before after found evolves
    have plain := sequential.plain lease before found
    cases evolves with
    | same | queue | delist => exact plain
    | move move _ => exact move.plain plain (fun _ _ => sequential.queued before)
  · refine change.holders unused (fun _ _ _ inside => ⟨inside, rfl, rfl⟩) ?_
    intro lease before after found evolves
    have orderly := sequential.orderly lease before found
    cases evolves with
    | same | queue | delist => exact orderly
    | move move _ => exact move.orderly (sequential.plain lease before found) orderly

variable {lease index : Nat} {holder after : Holder} {event : HolderEvent}

theorem step_holder (found : manager.holders.lookup lease = some holder) (event : HolderEvent) :
    manager.step setting (.holder lease event) =
      (holder.step setting (holder.owner ∈ manager.cancelled) (manager.queued holder) event).map
        fun outcome => (manager.setHolder lease outcome.1).reply outcome.2 := by
  simp only [Manager.step, found]
  split
  · rename_i none
    rw [none]
    rfl
  · rename_i some
    rw [some]
    rfl

theorem ending_of_sequential (sequential : Sequential setting manager)
    (found : manager.holders.lookup lease = some holder)
    (leaves : holder.owner ∈ manager.cancelled ∨ holder.endings ≠ [])
    (step : manager.step setting (.holder lease event) = some next) :
    ∃ after, next.holders.lookup lease = some after ∧
      after.phase.remaining < holder.phase.remaining := by
  have change := change_of_step step
  cases change with
  | hold known move =>
    obtain rfl := some.inj (found.symm.trans known)
    refine ⟨_, by rw [reply_holders, lookup_setHolder, if_pos rfl], move.remaining ?_⟩
    rcases leaves with cancelled | sent
    · exact .inl (decide_eq_true cancelled)
    · refine .inr ?_
      intro selecting
      have orderly := sequential.orderly lease holder found
      unfold Holder.Orderly at orderly
      rw [selecting] at orderly
      exact sent orderly.2.2

theorem Evolves.ended
    (evolves : Evolves setting manager next lease before after) (ended : before.Ended) :
    after = { before with listed := after.listed } := by
  cases evolves with
  | same => rfl
  | queue _ _ _ unended _ => exact absurd ended unended
  | move move _ => exact absurd ended move.handles.unended
  | delist => rfl

theorem Evolves.doomed (evolves : Evolves setting manager next lease before after)
    (cancelled : before.owner ∈ manager.cancelled) (busy : before.phase ≠ .selecting true) :
    after.owner = before.owner ∧ after.phase ≠ .selecting true ∧ after.commits = before.commits := by
  cases evolves with
  | same | queue | delist => exact ⟨rfl, busy, rfl⟩
  | move move _ => exact ⟨move.handles.owner, move.commits (decide_eq_true cancelled) busy⟩

theorem Change.cancelled (change : Change setting manager label next)
    (gone : world ∈ manager.cancelled) : world ∈ next.cancelled := by
  cases change with
  | cancel => exact mem_cons_of_mem _ gone
  | hold =>
    rw [reply_cancelled]
    exact gone
  | begin | refuse | enter | skip | find | miss | late | hand | delist => exact gone

section

variable (coherent : Coherent manager)
include coherent

theorem Coherent.unawaited
    (found : manager.holders.lookup lease = some holder) (ended : holder.Ended) (index : Nat) :
    index ∉ holder.awaited := by
  obtain ⟨ending, phase⟩ := ended
  have empty := coherent.drained lease holder found ⟨ending, phase⟩
  simp [mem_awaited, empty, phase, Phase.serves]

theorem closed_to_ended (here : manager.calls[index]? = some call)
    (found : manager.holders.lookup call.lease = some holder) (ended : holder.Ended) :
    ClosedTo setting manager index call.stage := by
  obtain ⟨_, _, _, stage⟩ := call
  cases stage with
  | looking =>
    simp only [ClosedTo, Manager.step, here]
    split
    · exact .inl rfl
    · exact .inr rfl
  | sending =>
    obtain ⟨_, phase⟩ := ended
    simp only [ClosedTo, Manager.step, here, found, phase]
  | handed =>
    obtain ⟨_, there, member⟩ := coherent.handed index _ here rfl
    obtain rfl := some.inj (found.symm.trans there)
    exact coherent.unawaited found ended index member
  | answered => trivial

theorem dropped_at_end (found : manager.holders.lookup lease = some holder)
    (waiting : holder.queue = some index) (busy : holder.phase ≠ .selecting true)
    (step : manager.step setting (.holder lease event) = some next)
    (there : next.holders.lookup lease = some after) (ended : after.Ended) :
    ∃ call, next.calls[index]? = some call ∧ call.stage = .answered (.error transactionClosed) := by
  have change := change_of_step step
  cases change with
  | hold known move =>
    obtain rfl := some.inj (found.symm.trans known)
    rw [reply_holders, lookup_setHolder, if_pos rfl] at there
    obtain rfl := some.inj there
    obtain ⟨front, rfl⟩ := move.dropped waiting busy ended
    obtain ⟨_, here, _⟩ :=
      coherent.awaited lease holder found index (mem_awaited.mpr (.inl waiting))
    exact calls_reply_last _ front _ (List.getElem?_eq_some_iff.mp here).1

omit coherent in
theorem protocol_of_sequential (sequential : Sequential setting manager) :
    Protocol setting manager where
  orderly := sequential.orderly
  ending lease holder found unended leaves := by
    refine ⟨?_, fun event next step => ending_of_sequential sequential found leaves step⟩
    intro answer
    obtain ⟨event, member, enabled⟩ :=
      step_isSome setting (holder.owner ∈ manager.cancelled) (manager.queued holder) unended answer
    refine ⟨event, member, ?_⟩
    rw [step_holder found, isSome_map]
    exact enabled
  closed index call holder here found ended := closed_to_ended sequential.coherent here found ended
  dropped lease holder index event next after found waiting busy step there ended :=
    dropped_at_end sequential.coherent found waiting busy step there ended

theorem Advances.closed {before after : TxCall}
    (advances : Advances manager next label index before after)
    (here : manager.calls[index]? = some before)
    (found : manager.holders.lookup before.lease = some holder) (ended : holder.Ended) :
    before.stage = after.stage ∨ after.stage = .sending ∨
      after.stage = .answered (.error transactionClosed) := by
  cases advances with
  | same => exact .inl rfl
  | find => exact .inr (.inl rfl)
  | close => exact .inr (.inr rfl)
  | hand known unended _ =>
    obtain rfl := some.inj (found.symm.trans known)
    exact absurd ended unended
  | answer _ known unended awaited =>
    obtain ⟨_, there, rfl⟩ := coherent.awaited _ _ known index awaited
    obtain rfl := some.inj (here.symm.trans there)
    obtain rfl := some.inj (found.symm.trans known)
    exact absurd ended unended

theorem lasting_step (step : manager.step setting label = some next) :
    Lasting manager next := by
  have change := change_of_step step
  have unused := coherent.unused
  refine ⟨?_, ?_, ?_⟩
  · intro lease holder found ended
    obtain ⟨after, there, evolves⟩ := change.evolves unused found
    exact ⟨after, there, evolves.ended ended⟩
  · intro index call holder there found ended
    rcases change.call there with ⟨before, here, advances⟩ | ⟨_, looking, _⟩
    · rw [advances.lease] at found
      rcases advances.closed coherent here found ended with same | sending | closed
      · exact .inl ⟨before, here, advances.lease.symm, same⟩
      · exact .inr (.inr (.inl sending))
      · exact .inr (.inr (.inr closed))
    · exact .inr (.inl looking)
  · intro lease holder found cancelled busy
    obtain ⟨after, there, evolves⟩ := change.evolves unused found
    obtain ⟨owner, still, commits⟩ := evolves.doomed cancelled busy
    exact ⟨after, there, owner, owner ▸ change.cancelled cancelled, still, commits⟩

end

theorem Lasting.still_ended (front : Lasting first second)
    (found : first.holders.lookup lease = some holder) (ended : holder.Ended) :
    ∃ middle, second.holders.lookup lease = some middle ∧
      middle = { holder with listed := middle.listed } ∧ middle.Ended := by
  obtain ⟨middle, there, same⟩ := front.ended lease holder found ended
  refine ⟨middle, there, same, ?_⟩
  rw [same]
  exact ended

theorem lasting_trans (first second third : Manager) (front : Lasting first second)
    (back : Lasting second third) : Lasting first third := by
  refine ⟨?_, ?_, ?_⟩
  · intro lease holder found ended
    obtain ⟨middle, there, same, closed⟩ := front.still_ended found ended
    obtain ⟨after, last, again⟩ := back.ended lease middle there closed
    refine ⟨after, last, ?_⟩
    rw [again, same]
  · intro index call holder there found ended
    obtain ⟨middle, known, _, closed⟩ := front.still_ended found ended
    rcases back.closed index call middle there known closed with ⟨before, here, lease, stage⟩ | rest
    · rw [← lease] at found
      rcases front.closed index before holder here found ended with ⟨origin, start, names, kept⟩ | rest
      · exact .inl ⟨origin, start, names.trans lease, kept.trans stage⟩
      · exact .inr (stage ▸ rest)
    · exact .inr rest
  · intro lease holder found cancelled busy
    obtain ⟨middle, there, owner, gone, still, commits⟩ :=
      front.doomed lease holder found cancelled busy
    obtain ⟨after, last, owner', gone', still', commits'⟩ := back.doomed lease middle there gone still
    exact ⟨after, last, owner'.trans owner, gone', still', commits'.trans commits⟩

/-- A call whose command is with its transaction can go on: the transaction has not ended,
and it has a step to take or takes one with the next answer of the server. -/
def Served (setting : Setting) (manager : Manager) : Prop :=
  ∀ (index : Nat) (call : TxCall), manager.calls[index]? = some call → call.stage = .handed →
    ∀ answer, ∃ event ∈ [HolderEvent.poll, .receive, .answer answer false],
      (manager.step setting (.holder call.lease event)).isSome = true

theorem Coherent.served (coherent : Coherent manager) : Served setting manager := by
  intro index call there handed answer
  obtain ⟨holder, found, awaits⟩ := coherent.handed index call there handed
  have unended : ¬ holder.Ended := fun ended => coherent.unawaited found ended index awaits
  obtain ⟨event, member, takes⟩ := step_isSome setting (holder.owner ∈ manager.cancelled)
    (manager.queued holder) unended answer
  exact ⟨event, member, by rw [step_holder found, isSome_map]; exact takes⟩

/-- In every run, whatever the statements. -/
theorem calls_served (setting : Setting) (labels : List TxLabel) :
    Along (Manager.step setting) (fun manager => Coherent manager ∧ Served setting manager)
      Manager.new labels :=
  along_imp (fun _ coherent => ⟨coherent, coherent.served⟩)
    (along_of_meets (fun _ _ _ coherent _ => coherent_step coherent) coherent_new (meets_true _ _))

/-- An end lasts, and so does a cancellation, whatever the statements. -/
theorem transactions_lasting (setting : Setting) (labels : List TxLabel) :
    Between (Manager.step setting) Lasting Manager.new labels :=
  between_of_meets lasting_trans (fun _ _ _ coherent _ => coherent_step coherent)
    (fun _ _ _ coherent _ => lasting_step coherent) coherent_new (meets_true _ _)

/-- In every run in which no statement controls the transaction by itself. -/
theorem transaction_holder_protocol (setting : Setting) (labels : List TxLabel)
    (run : Meets (Manager.step setting) (Plain setting) Manager.new labels) :
    Along (Manager.step setting) (Protocol setting) Manager.new labels ∧
      Between (Manager.step setting) Lasting Manager.new labels := by
  have preserved : ∀ start label next, Sequential setting start → Plain setting start label →
      step setting start label = some next → Sequential setting next :=
    fun _ _ _ => sequential_step
  constructor
  · exact along_imp (fun _ => protocol_of_sequential)
      (along_of_meets preserved (sequential_new setting) run)
  · exact between_of_meets lasting_trans preserved
      (fun _ _ _ sequential _ => lasting_step sequential.coherent) (sequential_new setting) run

end

def committedRun : List TxLabel :=
  [.beginBy 7, .execute 7 1 "DELETE FROM carts", .commitBy 7 1] ++
    takeCommand 0 1 ++ serverAnswers 1 [[], []] ++ takeCommand 1 1 ++ serverAnswers 1 [[]] ++
    [.execute 7 1 "DELETE FROM orders", .look 2, .send 2, .delist 1]

theorem transaction_holder_protocol_committed :
    firstAfter committedRun =
        some (7, false, [⟨some 7, .begin⟩, ⟨some 7, .prepare "DELETE FROM carts"⟩,
          ⟨some 7, .statement "DELETE FROM carts"⟩, ⟨some 7, .commit⟩]) ∧
      Along (Manager.step serverSetting) (Protocol serverSetting) Manager.new committedRun ∧
      Between (Manager.step serverSetting) Lasting Manager.new committedRun :=
  ⟨by decide, transaction_holder_protocol serverSetting committedRun (by decide)⟩

def statementCommits : List TxLabel :=
  [.beginBy 7, .execute 7 1 "commit"] ++ takeCommand 0 1 ++ serverAnswers 1 [[], []]

def servedAfterwards : List TxLabel :=
  [.execute 7 1 "DELETE FROM carts"] ++ takeCommand 1 1 ++ serverAnswers 1 [[], []] ++
    [.commitBy 7 1] ++ takeCommand 2 1

def cancelledInSelect : List TxLabel :=
  [.beginBy 7, .commitBy 7 1, .look 0, .send 0, .holder 1 .poll, .cancel 7]

/-- The server has ended the transaction, and the holder serves a statement and
sends a second `COMMIT`; the world is cancelled, and its `COMMIT` is sent. -/
theorem transaction_ends_before_its_holder :
    firstAfter statementCommits =
        some (7, false, [⟨some 7, .begin⟩, ⟨some 7, .prepare "commit"⟩,
          ⟨some 7, .statement "commit"⟩]) ∧
      firstAfter (statementCommits ++ servedAfterwards) =
        some (7, false, [⟨some 7, .begin⟩, ⟨some 7, .prepare "commit"⟩,
          ⟨some 7, .statement "commit"⟩, ⟨some 7, .prepare "DELETE FROM carts"⟩,
          ⟨some 7, .statement "DELETE FROM carts"⟩, ⟨some 7, .commit⟩]) ∧
      firstAfter cancelledInSelect = some (7, true, [⟨some 7, .begin⟩]) ∧
      firstAfter (cancelledInSelect ++ [.holder 1 .receive]) =
        some (7, true, [⟨some 7, .begin⟩, ⟨some 7, .commit⟩]) := by
  decide

end Usai.Postgres
