import Usai.Postgres.Transactions

/-! What one step of a transaction's holder can do, and what it means for the
calls whose commands the holder has. -/

namespace Usai.Postgres

open Holder Session

def Phase.serves : Phase → Option Nat
  | .preparing call _ _ _ | .executing call _ _ | .finishing call _ | .undoing call _ => some call
  | .selecting _ | .leaving | .ended _ => none

namespace Holder

def Ended (holder : Holder) : Prop := ∃ ending, holder.phase = .ended ending

def awaited (holder : Holder) : List Nat := holder.queue.toList ++ holder.phase.serves.toList

end Holder

section

variable (setting : Setting) (holder : Holder) (cancelled : Bool) (queued : Option (Nat × TxCommand))

inductive Ready : Nat → Nat → Method → SqlRequest → Holder → Prop where
  | cached (selecting : holder.phase = .selecting true) (taken : holder.queue = some call)
      (command : queued = some (world, .sql method request)) :
      Ready call world method request { holder with queue := none }
  | prepared (session : Session)
      (preparing : holder.phase = .preparing call world method request)
      (block : session.block = holder.session.block) :
      Ready call world method request { holder with session }

inductive Settling : Nat → Holder → Prop where
  | refused (prepared : Ready holder queued call world method request ready) : Settling call ready
  | unprepared (session : Session)
      (preparing : holder.phase = .preparing call world method request)
      (block : session.block = holder.session.block) : Settling call { holder with session }
  | executed (session : Session)
      (executing : holder.phase = .executing call method request)
      (block : setting.control request.sql = .neutral → session.block = holder.session.block) :
      Settling call { holder with session }

inductive Move : HolderEvent → Holder → List (Nat × Reply) → Prop where
  | leave (selecting : holder.phase = .selecting false) (fired : cancelled = true) :
      Move .poll (holder.send none .rollback .leaving) []
  | look (selecting : holder.phase = .selecting false) (unfired : cancelled = false) :
      Move .poll { holder with phase := .selecting true } []
  | idle (selecting : holder.phase = .selecting true) : Move .receive holder.resume []
  | prepare (selecting : holder.phase = .selecting true) (taken : holder.queue = some call)
      (command : queued = some (world, .sql method request)) :
      Move .receive ({ holder with queue := none }.send (some world) (.prepare request.sql)
        (.preparing call world method request)) []
  | finish (selecting : holder.phase = .selecting true) (taken : holder.queue = some call)
      (command : queued = some (world, .finish commit)) :
      Move .receive ({ holder with queue := none }.send (some world) (endRequest commit)
        (.finishing call commit)) []
  | execute (prepared : Ready holder queued call world method request ready) :
      Move event
        (ready.send (some world) (.statement request.sql) (.executing call method request)) []
  | settle (reply : Reply)
      (settling : Settling setting holder queued call ready) :
      Move event ready.resume [(call, reply)]
  | quarantine (reply : Reply)
      (settling : Settling setting holder queued call ready) :
      Move event (ready.finish .quarantined [(call, reply)]).1
        (ready.finish .quarantined [(call, reply)]).2
  | conclude (session : Session)
      (finishing : holder.phase = .finishing call commit) (outside : session.block = false) :
      Move event
        ({ holder with session }.finish (if commit then .committed else .rolledBack) [(call, .ok ())]).1
        ({ holder with session }.finish (if commit then .committed else .rolledBack) [(call, .ok ())]).2
  | undo (session : Session)
      (error : ResourceError) (finishing : holder.phase = .finishing call commit) :
      Move event ({ holder with session }.send none .rollback (.undoing call error)) []
  | undone (session : Session) (answered : Bool)
      (undoing : holder.phase = .undoing call error)
      (outside : answered = true → session.block = false) :
      Move event ({ holder with session }.finish (.undone answered) [(call, .error error)]).1
        ({ holder with session }.finish (.undone answered) [(call, .error error)]).2
  | left (session : Session) (leaving : holder.phase = .leaving)
      (outside : session.block = false) :
      Move event ({ holder with session }.finish .rolledBack []).1
        ({ holder with session }.finish .rolledBack []).2
  | abandon (session : Session) (leaving : holder.phase = .leaving) :
      Move event ({ holder with session }.finish .quarantined []).1
        ({ holder with session }.finish .quarantined []).2
  | lose (session : Session) (error : ResourceError)
      (pending : (∃ method request, holder.phase = .executing call method request) ∨
        ∃ commit, holder.phase = .finishing call commit) :
      Move event ({ holder with session }.finish .quarantined [(call, .error error)]).1
        ({ holder with session }.finish .quarantined [(call, .error error)]).2

end

section

variable {setting : Setting} {holder next : Holder} {cancelled : Bool}
  {queued : Option (Nat × TxCommand)} {replies : List (Nat × Reply)}

theorem outcome_eq (step : some outcome = some (next, replies)) :
    outcome.1 = next ∧ outcome.2 = replies :=
  Prod.ext_iff.mp (Option.some.inj step)

theorem receive_prepare_block (setting : Setting) (session : Session) (sql : String) (answer : Answer) :
    (session.receive setting (.prepare sql) answer).block = session.block := by
  unfold receive
  split <;> simp [Request.succeed, Request.fail]

theorem receive_end_block (session : Session) (commit : Bool)
    (answered : answer.result = .ok success) :
    (session.receive setting (endRequest commit) answer).block = false := by
  cases commit <;> simp [receive, answered, endRequest, Request.succeed]

theorem judged_ok {Value : Type} {result : Except DriverError Value} {value : Value}
    (accepted : judged noticed result = .ok value) : result = .ok value := by
  unfold judged at accepted
  split at accepted
  · unfold afterCancel at accepted
    split at accepted <;> cases accepted
  · cases result with
    | error => cases accepted
    | ok => exact congrArg Except.ok (Except.ok.inj accepted)

variable {event : HolderEvent} {call : Nat}

theorem move_settle (reply : Reply)
    (settling : Settling setting holder queued call ready) :
    Move setting holder cancelled queued event (ready.settle call reply).1
      (ready.settle call reply).2 := by
  unfold settle
  split
  · exact .settle reply settling
  · exact .quarantine reply settling

theorem move_execute (types : List String)
    (prepared : Ready holder queued call world method request ready) :
    Move setting holder cancelled queued event
      (ready.execute setting call world method request types).1
      (ready.execute setting call world method request types).2 := by
  unfold execute
  split
  · exact move_settle _ (.refused prepared)
  · split
    · exact move_settle _ (.refused prepared)
    · exact .execute prepared

theorem move_serve (selecting : holder.phase = .selecting true) (taken : holder.queue = some call)
    (given : queued = some (world, command)) :
    Move setting holder cancelled queued .receive
      ({ holder with queue := none }.serve setting call world command).1
      ({ holder with queue := none }.serve setting call world command).2 := by
  cases command with
  | sql =>
    simp only [serve]
    split
    · exact move_execute _ (.cached selecting taken given)
    · exact .prepare selecting taken given
  | finish => exact .finish selecting taken given

theorem move_answered (step : holder.answered setting answer noticed = some (next, replies)) :
    Move setting holder cancelled queued (.answer answer noticed) next replies := by
  unfold answered at step
  split at step
  · rename_i call world method request preparing
    have block := receive_prepare_block setting holder.session request.sql answer
    split at step
    · obtain ⟨rfl, rfl⟩ := outcome_eq step
      exact move_settle _ (.unprepared _ preparing block)
    · obtain ⟨rfl, rfl⟩ := outcome_eq step
      exact move_execute _ (.prepared _ preparing block)
  · rename_i call method request executing
    obtain ⟨rfl, rfl⟩ := outcome_eq step
    refine move_settle _ (.executed _ executing ?_)
    intro neutral
    unfold receive
    split <;> simp [Request.succeed, Request.fail, neutral]
  · rename_i call commit finishing
    split at step
    · rename_i accepted
      obtain ⟨rfl, rfl⟩ := outcome_eq step
      have answered := judged_ok accepted
      cases result : answer.result with
      | error => rw [result] at answered; cases answered
      | ok => exact .conclude _ finishing (receive_end_block holder.session commit result)
    · split at step
      · obtain ⟨rfl, rfl⟩ := outcome_eq step
        exact .undo _ _ finishing
      · obtain ⟨rfl, rfl⟩ := outcome_eq step
        exact .lose _ _ (.inr ⟨commit, finishing⟩)
  · rename_i call error undoing
    obtain ⟨rfl, rfl⟩ := outcome_eq step
    refine .undone _ _ undoing ?_
    cases result : answer.result with
    | error => exact nofun
    | ok => exact fun _ => receive_end_block holder.session false result
  · rename_i leaving
    split at step
    · rename_i success answered
      obtain ⟨rfl, rfl⟩ := outcome_eq step
      exact .left _ leaving (receive_end_block holder.session false answered)
    · obtain ⟨rfl, rfl⟩ := outcome_eq step
      exact .abandon _ leaving
  · cases step
  · cases step

theorem move_of_step (step : holder.step setting cancelled queued event = some (next, replies)) :
    Move setting holder cancelled queued event next replies := by
  cases event <;> simp only [Holder.step] at step
  case poll =>
    split at step
    · rename_i selecting
      split at step
      · rename_i fired
        obtain ⟨rfl, rfl⟩ := outcome_eq step
        exact .leave selecting fired
      · rename_i unfired
        obtain ⟨rfl, rfl⟩ := outcome_eq step
        exact .look selecting (Bool.eq_false_iff.mpr unfired)
    · cases step
  case receive =>
    split at step
    · rename_i selecting
      split at step
      · rename_i call world command taken
        obtain ⟨rfl, rfl⟩ := outcome_eq step
        exact move_serve selecting taken rfl
      · obtain ⟨rfl, rfl⟩ := outcome_eq step
        exact .idle selecting
    · cases step
  case answer =>
    split at step
    · cases step
    · exact move_answered step
  case giveUp =>
    split at step
    · rename_i call method request executing
      obtain ⟨rfl, rfl⟩ := outcome_eq step
      exact .lose holder.session _ (.inl ⟨method, request, executing⟩)
    · rename_i call commit finishing
      obtain ⟨rfl, rfl⟩ := outcome_eq step
      exact .lose holder.session _ (.inr ⟨commit, finishing⟩)
    · rename_i leaving
      obtain ⟨rfl, rfl⟩ := outcome_eq step
      exact .abandon holder.session leaving
    · cases step

end

section

variable {setting : Setting} {holder next : Holder} {cancelled : Bool}
  {queued : Option (Nat × TxCommand)} {event : HolderEvent} {replies : List (Nat × Reply)}

attribute [local simp] Holder.Ended Phase.serves send resume

@[local simp] theorem mem_awaited :
    index ∈ holder.awaited ↔ holder.queue = some index ∨ holder.phase.serves = some index := by
  simp [awaited]

structure Serving (holder ready : Holder) (call : Nat) : Prop where
  owner : ready.owner = holder.owner
  listed : ready.listed = holder.listed
  sent : ready.sent = holder.sent
  unended : ¬ holder.Ended
  awaited : ∀ index, index ∈ holder.awaited ↔ ready.queue = some index ∨ call = index

variable {ready : Holder}

theorem Ready.serving (prepared : Ready holder queued call world method request ready) :
    Serving holder ready call := by
  cases prepared with
  | cached selecting taken _ =>
    exact ⟨rfl, rfl, rfl, by simp [selecting], by simp [selecting, taken]⟩
  | prepared _ preparing _ =>
    exact ⟨rfl, rfl, rfl, by simp [preparing], by simp [preparing]⟩

theorem Settling.serving
    (settling : Settling setting holder queued call ready) : Serving holder ready call := by
  cases settling with
  | refused prepared => exact prepared.serving
  | unprepared _ preparing _ =>
    exact ⟨rfl, rfl, rfl, by simp [preparing], by simp [preparing]⟩
  | executed _ executing _ =>
    exact ⟨rfl, rfl, rfl, by simp [executing], by simp [executing]⟩

/-- What a step of a holder means for the calls: only calls whose command it has
are answered, and it keeps the commands of the others. -/
structure Handles (holder next : Holder) (replies : List (Nat × Reply)) : Prop where
  owner : next.owner = holder.owner
  listed : next.listed = holder.listed
  unended : ¬ holder.Ended
  asked : ∀ answer ∈ replies, answer.1 ∈ holder.awaited
  kept : ∀ index ∈ holder.awaited, index ∈ next.awaited ∨ index ∈ replies.map Prod.fst
  fewer : ∀ index ∈ next.awaited, index ∈ holder.awaited
  drained : next.Ended → next.queue = none

theorem handles_finish (owner : ready.owner = holder.owner) (listed : ready.listed = holder.listed)
    (unended : ¬ holder.Ended)
    (awaited : ∀ index, index ∈ holder.awaited ↔
      ready.queue = some index ∨ index ∈ answers.map Prod.fst) :
    Handles holder (ready.finish ending answers).1 (ready.finish ending answers).2 := by
  refine ⟨owner, listed, unended, ?_, ?_, ?_, fun _ => rfl⟩
  · intro answer member
    rcases List.mem_append.mp member with given | dropped
    · exact (awaited answer.1).mpr (.inr (List.mem_map_of_mem given))
    · obtain ⟨index, waiting, rfl⟩ := List.mem_map.mp dropped
      exact (awaited index).mpr (.inl (Option.mem_toList.mp waiting))
  · intro index member
    right
    simp only [finish, List.map_append, List.mem_append]
    rcases (awaited index).mp member with waiting | given
    · simp [waiting]
    · exact .inl given
  · intro index member
    simp [finish] at member

theorem handles_quiet (owner : next.owner = holder.owner) (listed : next.listed = holder.listed)
    (unended : ¬ holder.Ended) (going : ¬ next.Ended)
    (awaited : ∀ index, index ∈ holder.awaited ↔ index ∈ next.awaited) : Handles holder next [] := by
  refine ⟨owner, listed, unended, by simp, ?_, ?_, fun ended => absurd ended going⟩
  · intro index member
    exact .inl ((awaited index).mp member)
  · intro index member
    exact (awaited index).mpr member

theorem Move.handles (move : Move setting holder cancelled queued event next replies) :
    Handles holder next replies := by
  cases move with
  | leave selecting | look selecting | idle selecting =>
    exact handles_quiet rfl rfl (by simp [selecting]) (by simp) (by simp [selecting])
  | prepare selecting taken _ | finish selecting taken _ =>
    exact handles_quiet rfl rfl (by simp [selecting]) (by simp) (by simp [selecting, taken])
  | execute prepared =>
    have serving := prepared.serving
    refine handles_quiet serving.owner serving.listed serving.unended (by simp) ?_
    intro index
    rw [serving.awaited index]
    simp
  | settle _ settling =>
    have serving := settling.serving
    refine ⟨serving.owner, serving.listed, serving.unended, ?_, ?_, ?_, ?_⟩
    · intro answer member
      rw [List.mem_singleton.mp member]
      exact (serving.awaited _).mpr (.inr rfl)
    · intro index member
      rcases (serving.awaited index).mp member with waiting | rfl
      · exact .inl (mem_awaited.mpr (.inl waiting))
      · exact .inr (by simp)
    · intro index member
      refine (serving.awaited index).mpr (.inl ?_)
      simpa using member
    · simp
  | quarantine _ settling =>
    have serving := settling.serving
    refine handles_finish serving.owner serving.listed serving.unended ?_
    intro index
    rw [serving.awaited index]
    simp [eq_comm]
  | conclude _ finishing _ =>
    refine handles_finish rfl rfl (by simp [finishing]) ?_
    simp [finishing, eq_comm]
  | undo _ _ finishing =>
    exact handles_quiet rfl rfl (by simp [finishing]) (by simp) (by simp [finishing])
  | undone _ _ undoing _ =>
    refine handles_finish rfl rfl (by simp [undoing]) ?_
    simp [undoing, eq_comm]
  | left _ leaving _ | abandon _ leaving =>
    refine handles_finish rfl rfl (by simp [leaving]) ?_
    simp [leaving]
  | lose _ _ pending =>
    rcases pending with ⟨_, _, executing⟩ | ⟨_, finishing⟩
    · refine handles_finish rfl rfl (by simp [executing]) ?_
      simp [executing, eq_comm]
    · refine handles_finish rfl rfl (by simp [finishing]) ?_
      simp [finishing, eq_comm]

end

end Usai.Postgres
