import Usai.Transition

/-! `runSocket`, the guest's side of one WebSocket connection: authentication, the
upgrade, `open`, the receive loop and `close`, as a machine that moves whenever what
it awaits is answered. -/

namespace Usai.Sockets

open List Transition

/-- What a promise rejects with. A handler may throw `undefined`, which
`failure !== undefined` does not tell from no failure. -/
inductive Thrown where
  | undefined
  | usai (code : String)
  | other (text : String)
  deriving DecidableEq, Repr

def Thrown.clientGone : Thrown → Bool
  | .usai code => code == "client_gone"
  | .undefined | .other _ => false

def Thrown.real (error : Thrown) : Bool := error != .undefined && !error.clientGone

inductive Moment where
  | onOpen
  | onMessage
  | onClose
  deriving DecidableEq, Repr

structure Handlers where
  onOpen : Bool
  onMessage : Bool
  onClose : Bool
  deriving DecidableEq, Repr

inductive Call where
  | entered (moment : Moment)
  | left (moment : Moment)
  deriving DecidableEq, Repr

inductive Stage where
  | authenticating
  | accepting
  | opening
  | hangingUp
  | receiving
  | reporting
  | messaging
  | closing
  | returned
  | threw (error : Thrown)
  deriving DecidableEq, Repr

def Stage.ended : Stage → Bool
  | .returned | .threw _ => true
  | _ => false

/-- How the message contract takes a frame. A refused one is reported to the client;
building the report runs application code too (a schema may itself throw `null`, or an
error whose details `JSON.stringify` refuses). -/
inductive Verdict where
  | accepted
  | refused (report : Except Thrown Unit)

inductive Received where
  | frame (verdict : Verdict)
  | close

/-- An awaited promise settles, or the host cancels the world. In `accepting` a
rejection stands also for a context that cannot be built, which follows at once. -/
inductive Answer where
  | settled (result : Except Thrown Unit)
  | received (event : Received)
  | cancel

structure Guest where
  handlers : Handlers
  stage : Stage
  failure : Thrown
  calls : List Call
  cancelled : Bool
  deriving DecidableEq, Repr

namespace Guest

def start (handlers : Handlers) : Guest := ⟨handlers, .authenticating, .undefined, [], false⟩

variable (guest : Guest)

def enter (moment : Moment) (stage : Stage) : Guest :=
  { guest with stage, calls := guest.calls ++ [.entered moment] }

def leave (moment : Moment) (stage : Stage) : Guest :=
  { guest with stage, calls := guest.calls ++ [.left moment] }

def ending : Stage := if guest.failure.real then .threw guest.failure else .returned

def begin : Guest :=
  if guest.handlers.onOpen then guest.enter .onOpen .opening else { guest with stage := .receiving }

def openFailed (error : Thrown) : Guest :=
  { guest with failure := error }.leave .onOpen (if error.real then .hangingUp else .receiving)

def receive : Received → Guest
  | .close =>
    if guest.handlers.onClose then guest.enter .onClose .closing
    else { guest with stage := guest.ending }
  | .frame (.refused (.ok _)) => { guest with stage := .reporting }
  | .frame (.refused (.error error)) => { guest with stage := .threw error }
  | .frame .accepted =>
    if guest.failure ≠ .undefined then guest
    else if guest.handlers.onMessage then guest.enter .onMessage .messaging
    else guest

def closed (result : Except Thrown Unit) : Guest :=
  let failure := match result with
    | .ok _ => guest.failure
    | .error error => if guest.failure = .undefined then error else guest.failure
  let guest := { guest with failure }
  guest.leave .onClose guest.ending

def step : Answer → Option Guest
  | .cancel => some { guest with cancelled := true }
  | .settled result =>
    match guest.stage, result with
    | .authenticating, .ok _ => some { guest with stage := .accepting }
    | .accepting, .ok _ => some guest.begin
    | .opening, .ok _ => some (guest.leave .onOpen .receiving)
    | .opening, .error error => some (guest.openFailed error)
    | .hangingUp, _ => some { guest with stage := .receiving }
    | .reporting, _ => some { guest with stage := .receiving }
    | .messaging, .ok _ => some (guest.leave .onMessage .receiving)
    | .messaging, .error error => some (guest.leave .onMessage (.threw error))
    | .closing, result => some (guest.closed result)
    | .authenticating, .error error | .accepting, .error error | .receiving, .error error =>
      some { guest with stage := .threw error }
    | .receiving, .ok _ | .returned, _ | .threw _, _ => none
  | .received event =>
    match guest.stage with
    | .receiving => some (guest.receive event)
    | _ => none

end Guest

section

def inTurn (served : List Moment) : List Call :=
  served.flatMap fun moment => [.entered moment, .left moment]

theorem entered_mem_inTurn {served : List Moment} {moment : Moment}
    (member : Call.entered moment ∈ inTurn served) : moment ∈ served := by
  obtain ⟨_, served, same⟩ := mem_flatMap.mp member
  rcases mem_cons.mp same with same | same
  · cases same
    exact served
  · cases mem_singleton.mp same

def Stage.underway : Stage → List Call
  | .opening => [.entered .onOpen]
  | .messaging => [.entered .onMessage]
  | .closing => [.entered .onClose]
  | _ => []

namespace Guest

def Sequential (guest : Guest) : Prop :=
  guest.stage.ended = false →
    ∃ served, Moment.onClose ∉ served ∧ guest.calls = inTurn served ++ guest.stage.underway

/-- When `runSocket` has ended, in a world that the host has not cancelled and of a
connection whose `open` was entered, a declared `close` was invoked exactly once and
after everything else had finished. -/
def ClosedOnce (guest : Guest) : Prop :=
  guest.stage.ended = true → guest.cancelled = false → guest.handlers.onClose = true →
    Call.entered .onOpen ∈ guest.calls →
      ∃ served, Moment.onClose ∉ served ∧
        guest.calls = inTurn served ++ [.entered .onClose, .left .onClose]

/-- A rejection that leaves the receive loop: of `message`, of `socket.recv`, or of
the report of a refused frame. -/
def Abrupt (guest : Guest) : Answer → Prop
  | .settled (.error _) => guest.stage = .messaging ∨ guest.stage = .receiving
  | .received (.frame (.refused (.error _))) => True
  | _ => False

def Reaches (guest : Guest) (answer : Answer) : Prop :=
  guest.Abrupt answer →
    guest.cancelled = true ∨ guest.handlers.onClose = false ∨ Call.entered .onOpen ∉ guest.calls

structure Traced (guest : Guest) : Prop where
  early : guest.stage = .authenticating ∨ guest.stage = .accepting → guest.calls = []
  sequential : guest.Sequential

variable {guest next : Guest} {answer : Answer} {stage : Stage} {result : Except Thrown Unit}

theorem start_traced (handlers : Handlers) : (start handlers).Traced where
  early := fun _ => rfl
  sequential := fun _ => ⟨[], not_mem_nil, rfl⟩

theorem traced_idle (stage : Stage)
    (late : stage ≠ .authenticating ∧ stage ≠ .accepting) (idle : stage.underway = [])
    (at_stage : guest.stage = stage)
    (trace : ∃ served, Moment.onClose ∉ served ∧ guest.calls = inTurn served) : guest.Traced where
  early := by
    rintro (early | early)
    · exact absurd (at_stage.symm.trans early) late.1
    · exact absurd (at_stage.symm.trans early) late.2
  sequential := by
    intro _
    obtain ⟨served, fresh, calls⟩ := trace
    exact ⟨served, fresh, by rw [calls, at_stage, idle, append_nil]⟩

theorem enter_traced {moment : Moment} (late : stage ≠ .authenticating ∧ stage ≠ .accepting)
    (underway : stage.underway = [.entered moment])
    (trace : ∃ served, Moment.onClose ∉ served ∧ guest.calls = inTurn served) :
    (guest.enter moment stage).Traced where
  early := by
    rintro (early | early)
    · exact absurd early late.1
    · exact absurd early late.2
  sequential := by
    intro _
    obtain ⟨served, fresh, calls⟩ := trace
    refine ⟨served, fresh, ?_⟩
    show guest.calls ++ [.entered moment] = inTurn served ++ stage.underway
    rw [calls, underway]

theorem ended_traced (ended : guest.stage.ended = true) : guest.Traced where
  early := by
    rintro (early | early) <;>
    · rw [early] at ended
      cases ended
  sequential := by
    intro running
    cases running.symm.trans ended

theorem ending_ended (guest : Guest) : guest.ending.ended = true := by
  unfold ending
  split <;> rfl

section

variable (traced : guest.Traced)
include traced

theorem Traced.idle (at_stage : guest.stage = stage)
    (running : stage.ended = false) (idle : stage.underway = []) :
    ∃ served, Moment.onClose ∉ served ∧ guest.calls = inTurn served := by
  subst at_stage
  obtain ⟨served, fresh, calls⟩ := traced.sequential running
  exact ⟨served, fresh, by rw [calls, idle, append_nil]⟩

theorem Traced.done (moment : Moment)
    (at_stage : guest.stage = stage) (running : stage.ended = false)
    (underway : stage.underway = [.entered moment]) (other : moment ≠ .onClose) :
    ∃ served, Moment.onClose ∉ served ∧ guest.calls ++ [.left moment] = inTurn served := by
  subst at_stage
  obtain ⟨served, fresh, calls⟩ := traced.sequential running
  refine ⟨served ++ [moment], ?_, ?_⟩
  · intro member
    rcases mem_append.mp member with member | member
    · exact fresh member
    · exact other (mem_singleton.mp member).symm
  · rw [calls, underway]
    simp only [inTurn, flatMap_append, flatMap_singleton, append_assoc]
    rfl

theorem receive_traced (receiving : guest.stage = .receiving)
    (event : Received) : (guest.receive event).Traced := by
  have trace := traced.idle receiving rfl rfl
  cases event with
  | close =>
    simp only [receive]
    split
    · exact enter_traced (by decide) rfl trace
    · exact ended_traced (ending_ended guest)
  | frame verdict =>
    cases verdict with
    | accepted =>
      simp only [receive]
      split
      · exact traced
      · split
        · exact enter_traced (by decide) rfl trace
        · exact traced
    | refused report =>
      cases report with
      | ok => exact traced_idle .reporting (by decide) rfl rfl trace
      | error => exact ended_traced rfl

theorem settle_traced (taken : guest.step (.settled result) = some next) : next.Traced := by
  cases stage : guest.stage <;> cases result <;> simp only [step, stage] at taken <;> cases taken
  case authenticating.ok =>
    have calls := traced.early (.inl stage)
    exact ⟨fun _ => calls, fun _ => ⟨[], not_mem_nil, calls⟩⟩
  case accepting.ok =>
    have trace := traced.idle stage rfl rfl
    unfold begin
    split
    · exact enter_traced (by decide) rfl trace
    · exact traced_idle .receiving (by decide) rfl rfl trace
  case opening.ok =>
    have trace := traced.done .onOpen stage rfl rfl (by decide)
    exact traced_idle .receiving (by decide) rfl rfl trace
  case opening.error =>
    have trace := traced.done .onOpen stage rfl rfl (by decide)
    unfold openFailed
    split
    · exact traced_idle .hangingUp (by decide) rfl rfl trace
    · exact traced_idle .receiving (by decide) rfl rfl trace
  case hangingUp.ok | hangingUp.error | reporting.ok | reporting.error =>
    have trace := traced.idle stage rfl rfl
    exact traced_idle .receiving (by decide) rfl rfl trace
  case messaging.ok =>
    have trace := traced.done .onMessage stage rfl rfl (by decide)
    exact traced_idle .receiving (by decide) rfl rfl trace
  case closing.ok | closing.error => exact ended_traced (ending_ended _)
  case authenticating.error | accepting.error | receiving.error | messaging.error =>
    exact ended_traced rfl

theorem step_traced (taken : guest.step answer = some next) : next.Traced := by
  cases answer with
  | cancel =>
    cases taken
    exact ⟨traced.early, traced.sequential⟩
  | received event =>
    simp only [step] at taken
    split at taken <;> cases taken
    case h_1 receiving => exact receive_traced traced receiving event
  | settled => exact settle_traced traced taken

end

theorem iff_of_calm (calm : ¬ guest.Abrupt answer) (closed : next.ClosedOnce) :
    next.ClosedOnce ↔ guest.Reaches answer :=
  ⟨fun _ abrupt => absurd abrupt calm, fun _ => closed⟩

theorem closedOnce_running (running : next.stage.ended = false) : next.ClosedOnce := by
  intro ended
  cases running.symm.trans ended

theorem iff_of_abrupt (abrupt : guest.Abrupt answer) (ended : next.stage.ended = true)
    (frame : next.handlers = guest.handlers ∧ next.cancelled = guest.cancelled)
    (opened : Call.entered .onOpen ∈ next.calls ↔ Call.entered .onOpen ∈ guest.calls)
    (trace : ∃ served, Moment.onClose ∉ served ∧ next.calls = inTurn served) :
    next.ClosedOnce ↔ guest.Reaches answer := by
  constructor
  · intro closed _
    by_contra relied
    simp only [not_or, Bool.not_eq_true, Bool.not_eq_false, not_not] at relied
    obtain ⟨live, declared, entered⟩ := relied
    obtain ⟨_, _, calls⟩ := closed ended (frame.2.trans live)
      ((congrArg Handlers.onClose frame.1).trans declared) (opened.mpr entered)
    obtain ⟨_, fresh, same⟩ := trace
    apply fresh
    apply entered_mem_inTurn
    rw [← same, calls]
    simp
  · intro reaches _ live declared entered
    rcases reaches abrupt with cancelled | undeclared | unopened
    · cases (frame.2.symm.trans live).symm.trans cancelled
    · cases ((congrArg Handlers.onClose frame.1).symm.trans declared).symm.trans undeclared
    · exact absurd (opened.mp entered) unopened

theorem receive_closedOnce (traced : guest.Traced) (receiving : guest.stage = .receiving)
    (event : Received) :
    (guest.receive event).ClosedOnce ↔ guest.Reaches (.received event) := by
  have running : guest.stage.ended = false := by rw [receiving]; rfl
  cases event with
  | close =>
    refine iff_of_calm id ?_
    simp only [receive]
    split
    · exact closedOnce_running rfl
    case isFalse undeclared =>
      intro _ _ declared
      exact absurd declared undeclared
  | frame verdict =>
    cases verdict with
    | accepted =>
      refine iff_of_calm id ?_
      apply closedOnce_running
      simp only [receive]
      split
      · exact running
      · split
        · rfl
        · exact running
    | refused report =>
      cases report with
      | ok => exact iff_of_calm id (closedOnce_running rfl)
      | error error =>
        have abrupt : guest.Abrupt (.received (.frame (.refused (.error error)))) := trivial
        exact iff_of_abrupt abrupt rfl ⟨rfl, rfl⟩ Iff.rfl (traced.idle receiving rfl rfl)

theorem closed_closedOnce (traced : guest.Traced) (closing : guest.stage = .closing)
    (result : Except Thrown Unit) : (guest.closed result).ClosedOnce := by
  intro _ _ _ _
  obtain ⟨served, fresh, calls⟩ := traced.sequential (by rw [closing]; rfl)
  refine ⟨served, fresh, ?_⟩
  show guest.calls ++ [.left .onClose] = _
  rw [calls, closing, append_assoc]
  rfl

theorem settle_closedOnce (traced : guest.Traced)
    (taken : guest.step (.settled result) = some next) :
    next.ClosedOnce ↔ guest.Reaches (.settled result) := by
  cases result with
  | ok =>
    refine iff_of_calm id ?_
    cases stage : guest.stage <;> simp only [step, stage] at taken <;> cases taken
    case ok.authenticating | ok.opening | ok.hangingUp | ok.reporting | ok.messaging =>
      exact closedOnce_running rfl
    case ok.accepting =>
      apply closedOnce_running
      unfold begin
      split <;> rfl
    case ok.closing => exact closed_closedOnce traced stage _
  | error error =>
    cases stage : guest.stage <;> simp only [step, stage] at taken <;> cases taken
    case error.receiving =>
      exact iff_of_abrupt (.inr stage) rfl ⟨rfl, rfl⟩ Iff.rfl (traced.idle stage rfl rfl)
    case error.messaging =>
      have trace := traced.done .onMessage stage rfl rfl (by decide)
      refine iff_of_abrupt (.inl stage) rfl ⟨rfl, rfl⟩ ?_ trace
      simp [leave]
    all_goals
      have calm : ¬ guest.Abrupt (.settled (.error error)) := by simp [Abrupt, stage]
      refine iff_of_calm calm ?_
    case error.authenticating | error.accepting =>
      have calls := traced.early (by simp [stage])
      intro _ _ _ entered
      rw [calls] at entered
      cases entered
    case error.opening =>
      apply closedOnce_running
      unfold openFailed
      split <;> rfl
    case error.hangingUp | error.reporting => exact closedOnce_running rfl
    case error.closing => exact closed_closedOnce traced stage _

theorem step_closedOnce (traced : guest.Traced) (taken : guest.step answer = some next) :
    next.ClosedOnce ↔ guest.Reaches answer := by
  cases answer with
  | cancel =>
    cases taken
    exact iff_of_calm id nofun
  | received event =>
    simp only [step] at taken
    split at taken <;> cases taken
    case h_1 receiving => exact receive_closedOnce traced receiving event
  | settled => exact settle_closedOnce traced taken

def Orderly (guest : Guest) : Prop := guest.Sequential ∧ guest.ClosedOnce

end Guest

/-- Whatever rejects, no handler is entered while another one runs. -/
theorem handlers_in_turn (handlers : Handlers) (answers : List Answer) :
    Along Guest.step Guest.Traced (Guest.start handlers) answers :=
  along_of_meets (fun _ _ _ traced _ => Guest.step_traced traced) (Guest.start_traced handlers)
    (meets_true _ _)

/-- The runs of `runSocket` in which `close` runs once and last are those in which
neither `message`, `socket.recv` nor the report of a refused frame rejects while an
opened connection relies on `close`. A failed `open` does reach it. -/
theorem close_runs_once (handlers : Handlers) (answers : List Answer) :
    Along Guest.step Guest.Orderly (Guest.start handlers) answers ↔
      Meets Guest.step Guest.Reaches (Guest.start handlers) answers := by
  have preserved (guest : Guest) (answer : Answer) (next : Guest) (traced : guest.Traced)
      (taken : guest.step answer = some next) : next.Traced := Guest.step_traced traced taken
  have started := Guest.start_traced handlers
  refine along_iff_meets preserved ?_ started ⟨started.sequential, nofun⟩ answers
  intro guest answer next traced _ taken
  have kept := (preserved guest answer next traced taken).sequential
  rw [← Guest.step_closedOnce traced taken]
  exact ⟨fun orderly => orderly.2, fun closed => ⟨kept, closed⟩⟩

/-- A `message` that throws once: the run ends and `close` was never entered. -/
theorem thrown_message_skips_close :
    ∃ guest, exec Guest.step (Guest.start ⟨true, true, true⟩)
        [.settled (.ok ()), .settled (.ok ()), .settled (.ok ()), .received (.frame .accepted),
          .settled (.error (.other "boom"))] = some guest ∧
      guest.stage = .threw (.other "boom") ∧ guest.cancelled = false ∧
      guest.calls = [.entered .onOpen, .left .onOpen, .entered .onMessage, .left .onMessage] :=
  ⟨_, rfl, rfl, rfl, rfl⟩

end

end Usai.Sockets
