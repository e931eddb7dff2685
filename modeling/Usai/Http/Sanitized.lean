import Usai.Http.Exchange

/-! What a client sees of a failure inside the runtime, when diagnostics are not
exposed: two runs that differ only in the texts of such failures, and the bodies
they send. -/

namespace Usai.Http

open Hosting List Option Transition
open Execution (Termination)

def GuestError.unexpected (error : GuestError) : Bool :=
  match error.usai with
  | none => true
  | some usai => isServerError (usaiStatus usai)

def GuestError.blurred (error : GuestError) : GuestError :=
  if error.unexpected then ⟨"", "", none, error.usai⟩ else { error with stack := none }

def blurredTermination : Termination → Termination
  | .faulted _ => .faulted ""
  | termination => termination

def blurredOutcome : Option (Except GuestError Json) → Option (Except GuestError Json)
  | some (.error error) => some (.error error.blurred)
  | outcome => outcome

def WorkResult.blurred (result : WorkResult) : WorkResult :=
  { result with
    termination := blurredTermination result.termination
    outcome := blurredOutcome result.outcome }

def Ending.blurred : Ending → Ending
  | .result held => .result held.blurred
  | .failed _ => .failed ""
  | .panicked _ => .panicked ""

def WorldStage.blurred : WorldStage → WorldStage
  | .absent => .absent
  | .running => .running
  | .leaving ending => .leaving ending.blurred
  | .finished ending => .finished ending.blurred

def Act.blurred : Act → Act
  | .leave ending => .leave ending.blurred
  | act => act

def HostAct.blurred : HostAct → HostAct
  | .arrive internal => .arrive internal
  | .act index taken => .act index taken.blurred

def Exchange.blurred (exchange : Exchange) : Exchange :=
  { exchange with world := exchange.world.blurred }

def Hosting.blurred (hosting : Hosting) : Hosting :=
  { hosting with exchanges := hosting.exchanges.map Exchange.blurred }

variable {ending : Ending}

theorem applicationError_blurred (error : GuestError) (violations : List LifecycleViolation) :
    applicationError false error.blurred violations = applicationError false error violations := by
  unfold GuestError.blurred
  cases usai : error.usai with
  | none => simp [GuestError.unexpected, usai, applicationError, unexpectedBody]
  | some held =>
    by_cases server : isServerError (usaiStatus held) = true
    · simp [GuestError.unexpected, usai, server, applicationError, usaiBody]
    · simp [GuestError.unexpected, usai, server, applicationError]

theorem encode_blurred (result : WorkResult) : encode false result.blurred = encode false result := by
  unfold encode WorkResult.blurred
  cases result.termination with
  | completed =>
    unfold encodeOutcome
    cases result.outcome with
    | none => rfl
    | some outcome =>
      cases outcome with
      | error error => exact applicationError_blurred error result.violations
      | ok => rfl
  | cancelled => rfl
  | deadlineExceeded => rfl
  | faulted => rfl

def Ending.failure : Ending → Bool
  | .result _ => false
  | .failed _ | .panicked _ => true

theorem outcome_blurred (failure panic : String → Refusal)
    (fixed : ending.failure = true → ∀ text other, failure text = failure other ∧ panic text = panic other) :
    ending.blurred.outcome false failure panic = ending.outcome false failure panic := by
  cases ending with
  | result held => exact congrArg Except.ok (encode_blurred held)
  | failed text => exact congrArg Except.error (fixed rfl "" text).1
  | panicked text => exact congrArg Except.error (fixed rfl "" text).2

namespace Exchange

def connected (exchange : Exchange) : Bool :=
  match exchange.route with
  | some (_, .stream) | some (_, .socket) => true
  | _ => false

def awaitsFailure (exchange : Exchange) (first : Arm) : Bool :=
  match exchange.stage, exchange.ending with
  | .selecting, some ending => exchange.connected && first == .task && ending.failure
  | .joining, some ending => exchange.connected && ending.failure
  | _, _ => false

def discreet (exchange : Exchange) : Act → Bool
  | .poll first _ => !exchange.awaitsFailure first
  | _ => true

variable (exchange : Exchange)

theorem ending_blurred : exchange.blurred.ending = exchange.ending.map Ending.blurred := by
  unfold Exchange.ending blurred
  cases exchange.world <;> rfl

theorem ready_blurred (first : Arm) (signalled : Bool) :
    exchange.blurred.ready first signalled = exchange.ready first signalled := by
  unfold ready blurred
  cases exchange.world <;> rfl

theorem settle_blurred (recordsItself : Bool) (outcome : Except Refusal HttpResponse) (elapsed : Nat) :
    (exchange.settle recordsItself outcome elapsed).blurred =
      exchange.blurred.settle recordsItself outcome elapsed := by
  cases outcome <;> rfl

theorem commit_blurred (head : Head) (elapsed : Nat) :
    (exchange.commit head elapsed).blurred = exchange.blurred.commit head elapsed := by
  unfold commit
  cases head.response <;> rfl

theorem joinedRecord_blurred (workload : String) (ending : Ending) :
    joinedRecord false workload ending.blurred = joinedRecord false workload ending := by
  cases ending with
  | result held =>
    show Recorded.workload ⟨workload, (encode false held.blurred).status, held.duration, none⟩ = _
    rw [encode_blurred]
    rfl
  | failed => rfl
  | panicked => rfl

theorem observedRecords_blurred (workload : String) (status : Nat) (ending : Ending) :
    observedRecords workload status ending.blurred = observedRecords workload status ending := by
  cases ending with
  | result held =>
    obtain ⟨termination, outcome, _, _⟩ := held
    cases termination with
    | completed =>
      cases outcome with
      | none => rfl
      | some outcome => cases outcome <;> rfl
    | cancelled => rfl
    | deadlineExceeded => rfl
    | faulted => rfl
  | failed => rfl
  | panicked => rfl

theorem failure_blurred (ending : Ending) : ending.blurred.failure = ending.failure := by
  cases ending <;> rfl

theorem discreet_blurred (act : Act) : exchange.blurred.discreet act.blurred = exchange.discreet act := by
  cases act with
  | poll first _ =>
    show (!exchange.blurred.awaitsFailure first) = !exchange.awaitsFailure first
    unfold awaitsFailure
    rw [ending_blurred]
    cases ended : exchange.ending with
    | none => cases stage : exchange.stage <;> simp [stage, blurred]
    | some =>
      cases stage : exchange.stage <;>
        simp [stage, blurred, connected, failure_blurred]
  | _ => rfl

variable {exchange} {first : Arm} {elapsed : Nat}

theorem streamOutcome_blurred (calm : ending.failure = false) :
    streamOutcome false ending.blurred = streamOutcome false ending :=
  outcome_blurred _ _ (fun failed => absurd (failed.symm.trans calm) (by decide))

theorem socketOutcome_blurred (calm : ending.failure = false) :
    socketOutcome false ending.blurred = socketOutcome false ending :=
  outcome_blurred _ _ (fun failed => absurd (failed.symm.trans calm) (by decide))

theorem settle_ending (recordsItself : Bool) (outcome : Ending → Except Refusal HttpResponse)
    (same : ∀ ending, exchange.ending = some ending → outcome ending.blurred = outcome ending) :
    (exchange.ending.map (fun ending =>
        exchange.settle recordsItself (outcome ending) elapsed)).map blurred =
      exchange.blurred.ending.map (fun ending =>
        exchange.blurred.settle recordsItself (outcome ending) elapsed) := by
  rw [ending_blurred]
  cases ended : exchange.ending with
  | none => rfl
  | some ending => simp only [map_some, settle_blurred, same ending ended]

theorem pollStream_blurred (calm : ∀ ending, exchange.ending = some ending → first = .task →
      ending.failure = false) :
    (exchange.pollStream false first elapsed).map blurred =
      exchange.blurred.pollStream false first elapsed := by
  have head : exchange.blurred.head = exchange.head := rfl
  unfold pollStream
  rw [ready_blurred, head]
  cases taken : exchange.ready first exchange.head.isSome with
  | none => rfl
  | some arm =>
    cases arm with
    | signal =>
      cases exchange.head with
      | none => rfl
      | some head => exact congrArg some (commit_blurred exchange head elapsed)
    | task =>
      apply settle_ending
      intro ending ended
      exact streamOutcome_blurred (calm ending ended (ready_task taken).1)

theorem pollSocket_blurred (calm : ∀ ending, exchange.ending = some ending → first = .task →
      ending.failure = false) :
    (exchange.pollSocket false first elapsed).map blurred =
      exchange.blurred.pollSocket false first elapsed := by
  have accepted : exchange.blurred.accepted = exchange.accepted := rfl
  unfold pollSocket
  rw [ready_blurred, accepted]
  cases taken : exchange.ready first exchange.accepted.isSome with
  | none => rfl
  | some arm =>
    cases arm with
    | signal =>
      cases exchange.accepted with
      | none => rfl
      | some => rfl
    | task =>
      apply settle_ending
      intro ending ended
      exact socketOutcome_blurred (calm ending ended (ready_task taken).1)

theorem joinStream_blurred (workload : String)
    (calm : ∀ ending, exchange.ending = some ending → ending.failure = false) :
    (exchange.joinStream false workload elapsed).map blurred =
      exchange.blurred.joinStream false workload elapsed := by
  unfold joinStream
  rw [ending_blurred]
  cases ended : exchange.ending with
  | none => rfl
  | some ending =>
    simp only [map_some, settle_blurred, joinedRecord_blurred,
      streamOutcome_blurred (calm ending ended)]
    rfl

theorem poll_blurred (quiet : exchange.awaitsFailure first = false) :
    (exchange.poll false first elapsed).map blurred = exchange.blurred.poll false first elapsed := by
  have stage : exchange.blurred.stage = exchange.stage := rfl
  have route : exchange.blurred.route = exchange.route := rfl
  unfold poll
  rw [stage, route]
  split
  case h_1 => exact settle_ending false _ (fun _ _ => outcome_blurred _ _ (fun _ _ _ => ⟨rfl, rfl⟩))
  case h_2 workload stage route =>
    apply pollStream_blurred
    rintro ending ended rfl
    simpa [awaitsFailure, stage, connected, route, ended] using quiet
  case h_3 workload stage route =>
    apply pollSocket_blurred
    rintro ending ended rfl
    simpa [awaitsFailure, stage, connected, route, ended] using quiet
  case h_4 workload stage route =>
    apply joinStream_blurred
    intro ending ended
    simpa [awaitsFailure, stage, connected, route, ended] using quiet
  case h_5 workload stage route =>
    apply settle_ending
    intro ending ended
    apply socketOutcome_blurred
    simpa [awaitsFailure, stage, connected, route, ended] using quiet
  case h_6 => rfl

theorem observe_blurred : exchange.observe.map blurred = exchange.blurred.observe := by
  obtain ⟨_, route, _, world, _, _, _, observer, _, _⟩ := exchange
  cases observer with
  | none => rfl
  | some =>
    cases world with
    | absent | running | leaving => rfl
    | finished =>
      cases route with
      | none => rfl
      | some =>
        simp only [observe, blurred, WorldStage.blurred, observedRecords_blurred]
        rfl

theorem step_blurred {act : Act} (quiet : exchange.discreet act = true) :
    (exchange.step false act).map blurred = exchange.blurred.step false act.blurred := by
  cases act
  case poll => exact poll_blurred (Bool.not_eq_true' _ ▸ quiet)
  case observe => exact observe_blurred
  all_goals
    obtain ⟨internal, route, stage, world, head, sent, accepted, observer, answer, recorded⟩ :=
      exchange
  case refuse | surface | route | abandon =>
    cases stage <;> cases internal <;> rfl
  case admitted | expire =>
    cases stage with
    | checking | selecting =>
      rcases route with _ | ⟨workload, kind⟩
      · rfl
      · cases kind <;> rfl
    | _ => rfl
  case commitHead | accept =>
    cases world with
    | running =>
      rcases route with _ | ⟨workload, kind⟩
      · cases head <;> cases accepted <;> rfl
      · cases kind <;> cases head <;> cases accepted <;> rfl
    | _ => rfl
  case send =>
    cases world with
    | running => cases head <;> rfl
    | _ => rfl
  case leave ending =>
    cases world with
    | running =>
      rcases route with _ | ⟨_, kind⟩
      · cases ending <;> rfl
      · cases kind <;> cases ending <;> rfl
    | _ => rfl
  case finish => cases world <;> rfl

theorem discreet_of_stuck {act : Act} (stuck : exchange.step false act = none) :
    exchange.discreet act = true := by
  cases act with
  | poll =>
    refine Bool.not_eq_true' _ ▸ Bool.eq_false_iff.mpr ?_
    intro awaits
    unfold awaitsFailure at awaits
    split at awaits
    case h_1 ending stage ended =>
      have world := ending_cases ended
      obtain ⟨connects, failed⟩ := Bool.and_eq_true_iff.mp awaits
      obtain ⟨connects, polled⟩ := Bool.and_eq_true_iff.mp connects
      cases eq_of_beq polled
      unfold connected at connects
      split at connects
      case h_1 route => simp [step, poll, stage, route, pollStream, ready, world, Exchange.ending] at stuck
      case h_2 route => simp [step, poll, stage, route, pollSocket, ready, world, Exchange.ending] at stuck
      case h_3 => cases connects
    case h_2 ending stage ended =>
      obtain ⟨connects, _⟩ := Bool.and_eq_true_iff.mp awaits
      unfold connected at connects
      split at connects
      case h_1 route => simp [step, poll, stage, route, joinStream, ended] at stuck
      case h_2 route => simp [step, poll, stage, route, joinSocket, ended] at stuck
      case h_3 => cases connects
    case h_3 => cases awaits
  | _ => rfl

end Exchange

def Exchange.sentBody (exchange : Exchange) : Option (Payload × List Payload) :=
  exchange.answer.map (fun response =>
    match response.body with
    | .chunks => (.chunks, exchange.sent)
    | body => (body, []))

namespace Hosting

def bodies (hosting : Hosting) : List (Option (Payload × List Payload)) :=
  hosting.exchanges.map Exchange.sentBody

def Discreet (hosting : Hosting) : HostAct → Prop
  | .arrive _ => True
  | .act index act => (hosting.exchanges[index]?).all (fun exchange => exchange.discreet act) = true

instance (hosting : Hosting) : DecidablePred hosting.Discreet
  | .arrive _ => inferInstanceAs (Decidable True)
  | .act _ _ => inferInstanceAs (Decidable (_ = true))

theorem bodies_blurred (hosting : Hosting) : hosting.blurred.bodies = hosting.bodies := by
  unfold bodies blurred
  rw [List.map_map]
  rfl

theorem discreet_blurred (hosting : Hosting) (act : HostAct) :
    hosting.blurred.Discreet act.blurred ↔ hosting.Discreet act := by
  cases act with
  | arrive => exact Iff.rfl
  | act index _ =>
    show ((hosting.exchanges.map Exchange.blurred)[index]?).all _ = true ↔
      (hosting.exchanges[index]?).all _ = true
    rw [getElem?_map]
    cases hosting.exchanges[index]? with
    | none => exact Iff.rfl
    | some exchange => simp only [map_some, all_some, exchange.discreet_blurred]

theorem step_blurred (hosting : Hosting) (act : HostAct) (quiet : hosting.Discreet act) :
    (hosting.step false act).map blurred = hosting.blurred.step false act.blurred := by
  cases act with
  | arrive =>
    show some (blurred _) = some _
    simp only [blurred, map_append]
    rfl
  | act index act =>
    show Option.map blurred ((hosting.exchanges[index]?).bind _) =
      ((hosting.exchanges.map Exchange.blurred)[index]?).bind _
    rw [getElem?_map]
    cases found : hosting.exchanges[index]? with
    | none => rfl
    | some exchange =>
      have calm : exchange.discreet act = true := by
        simpa only [Discreet, found, all_some] using quiet
      have stepped := Exchange.step_blurred calm
      simp only [bind_some, map_some, ← stepped]
      cases exchange.step false act with
      | none => rfl
      | some =>
        simp only [Option.bind_eq_bind, Option.bind_some, Option.map_some, Option.pure_def, blurred,
          map_set]
        rfl

theorem discreet_of_stuck (hosting : Hosting) (act : HostAct) (stuck : hosting.step false act = none) :
    hosting.Discreet act := by
  cases act with
  | arrive => trivial
  | act index act =>
    show (hosting.exchanges[index]?).all _ = true
    cases found : hosting.exchanges[index]? with
    | none => rfl
    | some exchange =>
      apply Exchange.discreet_of_stuck
      have stuck : ((hosting.exchanges[index]?).bind _ : Option Hosting) = none := stuck
      rw [found, bind_some] at stuck
      cases stepped : exchange.step false act with
      | none => rfl
      | some =>
        rw [stepped] at stuck
        cases stuck

end Hosting

/-- Two runs of a host, with diagnostics off, whose acts differ only in the texts
of failures inside the runtime: if no stream and no socket of the one is answered
by the failure of its task, both take the same steps and send the same bodies. -/
theorem bodies_without_texts (stats : HttpStats) (first second : List HostAct)
    (alike : first.map HostAct.blurred = second.map HostAct.blurred)
    (discreet : Meets (Hosting.step false) Hosting.Discreet ⟨stats, []⟩ first) :
    (exec (Hosting.step false) ⟨stats, []⟩ first).map Hosting.bodies =
      (exec (Hosting.step false) ⟨stats, []⟩ second).map Hosting.bodies := by
  -- the blurred host takes the blurred acts of both runs
  have other : Meets (step false) Hosting.Discreet ⟨stats, []⟩ second := by
    have seen := fun acts => meets_view step_blurred discreet_of_stuck
      discreet_blurred discreet_of_stuck ⟨stats, []⟩ acts
    rw [← seen second, ← alike, seen first]
    exact discreet
  have bodies : ∀ acts, Meets (step false) Hosting.Discreet ⟨stats, []⟩ acts →
      (exec (step false) ⟨stats, []⟩ acts).map bodies =
        (exec (step false) ⟨stats, []⟩ (acts.map HostAct.blurred)).map bodies := by
    intro acts meets
    have seen : (exec (Hosting.step false) ⟨stats, []⟩ acts).map Hosting.blurred =
        exec (Hosting.step false) ⟨stats, []⟩ (acts.map HostAct.blurred) :=
      exec_view step_blurred discreet_of_stuck meets
    rw [← seen, Option.map_map]
    congr 1
    funext hosting
    exact hosting.bodies_blurred.symm
  rw [bodies first discreet, bodies second other, alike]

def endingRun (kind : RouteKind) (ending : Ending) : List HostAct :=
  [.arrive false, .act 0 (.route "items" kind), .act 0 .admitted, .act 0 (.leave ending),
    .act 0 .finish, .act 0 (.poll .task 3)]

def throwing (message : String) : Ending :=
  .result ⟨.completed, some (.error ⟨"Error", message, some "at handler (app.js:4)", none⟩), [], 2⟩

theorem bodies_without_texts_thrown :
    Meets (Hosting.step false) Hosting.Discreet ⟨.zero, []⟩
        (endingRun .stream (throwing "password authentication failed for user admin")) ∧
      (exec (Hosting.step false) ⟨.zero, []⟩
          (endingRun .stream (throwing "password authentication failed for user admin"))).map
          Hosting.bodies =
        (exec (Hosting.step false) ⟨.zero, []⟩ (endingRun .stream (throwing "disk full"))).map
          Hosting.bodies := by
  refine ⟨?discreet, bodies_without_texts .zero _ _ rfl ?discreet⟩
  decide +kernel

/-- The body that a stream or a socket gets when its task fails or panics has the
text in it. -/
theorem failure_text_sent :
    (exec (Hosting.step false) ⟨.zero, []⟩
        (endingRun .stream (.failed "instantiate failed: /srv/usai/items.cwasm"))).map Hosting.bodies =
      some [some (.json (errorBody "world_creation_failed"
        [("message", .string "instantiate failed: /srv/usai/items.cwasm")]), [])] ∧
    (exec (Hosting.step false) ⟨.zero, []⟩
        (endingRun .stream (.panicked "task 7 panicked with message budget poisoned"))).map
        Hosting.bodies =
      some [some (.json (errorBody "stream_failed"
        [("message", .string "task 7 panicked with message budget poisoned")]), [])] ∧
    (exec (Hosting.step false) ⟨.zero, []⟩
        (endingRun .socket (.failed "instantiate failed: /srv/usai/items.cwasm"))).map Hosting.bodies =
      some [some (.json (errorBody "socket_world_failed"
        [("message", .string "instantiate failed: /srv/usai/items.cwasm")]), [])] ∧
    (exec (Hosting.step false) ⟨.zero, []⟩
        (endingRun .stream (.failed "instantiate failed: /srv/usai/items.cwasm"))).map Hosting.bodies ≠
      (exec (Hosting.step false) ⟨.zero, []⟩
        (endingRun .stream (.failed "engine capacity exhausted"))).map Hosting.bodies ∧
    (endingRun .stream (.failed "instantiate failed: /srv/usai/items.cwasm")).map HostAct.blurred =
      (endingRun .stream (.failed "engine capacity exhausted")).map HostAct.blurred := by
  have sent : ∀ text, (exec (step false) ⟨.zero, []⟩
      (endingRun .stream (.failed text))).map bodies =
        some [some (.json (errorBody "world_creation_failed" [("message", .string text)]), [])] := by
    intro text
    rfl
  refine ⟨sent _, rfl, rfl, ?_, rfl⟩
  rw [sent, sent]
  simp [errorBody]

end Usai.Http
