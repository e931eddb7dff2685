import Usai.Sockets.Run

/-! The pump of one WebSocket connection, the two bounded channels that link it to
the world, and the guest on their other side. -/

namespace Usai.Sockets

open List Option Transition

def capacity : Nat := 64

inductive Inbound where
  | text (data : String)
  | binary (base64 : String)
  | close (code : Option Nat) (reason : String)
  deriving DecidableEq, Repr

inductive Message where
  | text (data : String)
  | binary (data : List UInt8)
  | pong (payload : List UInt8)
  | close (code : Nat) (reason : String)
  deriving DecidableEq, Repr

def Message.closing : Message → Bool
  | .close _ _ => true
  | _ => false

/-- What the guest pushes besides the frames of its handlers: the close of a connection
whose `open` failed, and the report of a refused message. -/
def Stage.pushes (report : String) : Stage → Option Message
  | .hangingUp => some (.close 1000 "")
  | .reporting => some (.text report)
  | _ => none

def Stage.handling : Stage → Bool
  | .opening | .messaging | .closing => true
  | _ => false

/-- What the connection yields: a frame, an error, or its end. Binary data is kept
as its base64 text. -/
inductive Incoming where
  | text (data : String)
  | binary (base64 : String)
  | close (frame : Option (Nat × String))
  | ping (payload : List UInt8)
  | other
  | error (detail : String)
  | ended
  deriving DecidableEq, Repr

/-- What the pump does once a frame is written: go back to its select, leave the loop,
or tell the guest of the closing and leave. -/
inductive Written where
  | resume
  | leave
  | tell (event : Inbound)
  deriving DecidableEq, Repr

inductive PumpStage where
  | upgrading
  | selecting
  | pushing (event : Inbound) (last : Bool)
  | writing (message : Message) (next : Written)
  | closing
  | finished
  deriving DecidableEq, Repr

def Incoming.taken : Incoming → PumpStage
  | .text data => .pushing (.text data) false
  | .binary base64 => .pushing (.binary base64) false
  | .close frame => .pushing (.close (frame.map Prod.fst) ((frame.map Prod.snd).getD "")) true
  | .ping payload => .writing (.pong payload) .resume
  | .other => .selecting
  | .error detail => .pushing (.close none detail) true
  | .ended => .pushing (.close none "connection closed") true

def Incoming.forwarded : Incoming → Bool
  | .ping _ | .other => false
  | .text _ | .binary _ | .close _ | .error _ | .ended => true

def goodbye (draining : Bool) : Nat × String :=
  if draining then (1012, "server draining") else (1001, "server closed this connection")

/-- A pump, its link and the guest. `sending` is the `socket.send` or `socket.close`
the guest awaits, `linked` says that the world's end of the channels is there. -/
structure Connection where
  pump : PumpStage
  inbound : List Inbound
  outbound : List Message
  guest : Guest
  sending : Option Message
  linked : Bool
  stop : Bool
  draining : Bool
  deriving DecidableEq, Repr

inductive Step where
  | upgraded
  | upgradeFailed
  | idle
  | incoming (item : Incoming)
  | outgoing
  | stopArm
  | pushed
  | wrote (ok : Bool)
  | shut
  | send (message : Message)
  | sent
  | settle (result : Except Thrown Unit)
  | recv (verdict : Verdict) (report : String)
  | stopToken
  | drain
  | unlink

namespace Connection

def start (handlers : Handlers) : Connection where
  pump := .upgrading
  inbound := []
  outbound := []
  guest := { Guest.start handlers with stage := .accepting }.begin
  sending := none
  linked := true
  stop := false
  draining := false

variable (connection : Connection)

/-- A frame has been written, or its writing failed. A message of the guest that is a
close, or that cannot be written, ends the loop; the other writes are not checked. -/
def written (message : Message) (ok : Bool) : Written → PumpStage
  | .resume => .selecting
  | .tell event => .pushing event true
  | .leave => if !ok || message.closing then .closing else .selecting

def resume (guest : Guest) (report : String) : Connection :=
  { connection with guest, sending := guest.stage.pushes report }

def answered : Connection :=
  { connection with
    sending := none
    guest := if connection.guest.stage.handling then connection.guest
      else { connection.guest with stage := .receiving } }

def select (stage : PumpStage) : Option Connection :=
  if connection.pump = .selecting then some { connection with pump := stage } else none

def step : Step → Option Connection
  | .upgraded =>
    if connection.pump = .upgrading then some { connection with pump := .selecting } else none
  | .upgradeFailed =>
    if connection.pump = .upgrading then some { connection with pump := .finished } else none
  | .idle =>
    connection.select
      (.writing (.close 1008 "idle timeout") (.tell (.close (some 1008) "idle timeout")))
  | .incoming item => connection.select item.taken
  | .outgoing =>
    match connection.outbound with
    | message :: rest => { connection with outbound := rest }.select (.writing message .leave)
    | [] => if connection.linked then none else connection.select .closing
  | .stopArm =>
    if connection.stop then
      let (code, reason) := goodbye connection.draining
      connection.select (.writing (.close code reason) (.tell (.close (some code) reason)))
    else none
  | .pushed =>
    match connection.pump with
    | .pushing event last =>
      if connection.linked = false then some { connection with pump := .closing }
      else if connection.inbound.length < capacity then
        some { connection with
          inbound := connection.inbound ++ [event]
          pump := if last then .closing else .selecting }
      else none
    | _ => none
  | .wrote ok =>
    match connection.pump with
    | .writing message next => some { connection with pump := written message ok next }
    | _ => none
  | .shut =>
    if connection.pump = .closing then some { connection with pump := .finished, stop := true }
    else none
  | .send message =>
    if connection.linked ∧ connection.guest.stage.handling ∧ connection.sending = none then
      some { connection with sending := some message }
    else none
  | .sent =>
    match connection.sending with
    | some message =>
      if connection.pump = .finished then some connection.answered
      else if connection.outbound.length < capacity then
        some { connection.answered with outbound := connection.outbound ++ [message] }
      else none
    | none => none
  | .settle result =>
    if connection.linked ∧ connection.guest.stage.handling ∧ connection.sending = none then
      (connection.guest.step (.settled result)).map (connection.resume · "")
    else none
  | .recv verdict report =>
    if connection.linked ∧ connection.guest.stage = .receiving then
      match connection.inbound with
      | .close _ _ :: rest =>
        some ({ connection with inbound := rest }.resume (connection.guest.receive .close) report)
      | _ :: rest =>
        some ({ connection with inbound := rest }.resume
          (connection.guest.receive (.frame verdict)) report)
      | [] =>
        if connection.pump = .finished then
          some (connection.resume (connection.guest.receive .close) report)
        else none
    else none
  | .stopToken => some { connection with stop := true }
  | .drain => some { connection with stop := true, draining := true }
  | .unlink => some { connection with linked := false, sending := none }

end Connection

def Step.ofGuest : Step → Bool
  | .send _ | .sent | .settle _ | .recv _ _ | .stopToken | .drain | .unlink => true
  | .upgraded | .upgradeFailed | .idle | .incoming _ | .outgoing | .stopArm | .pushed | .wrote _
  | .shut => false

def PumpStage.telling : PumpStage → Bool
  | .writing _ (.tell _) => true
  | _ => false

namespace Connection

variable (connection : Connection)

def pumpBlocked : Bool :=
  match connection.pump with
  | .pushing _ _ => connection.linked && decide (capacity ≤ connection.inbound.length)
  | _ => false

def guestBlocked : Bool :=
  connection.sending.isSome && decide (capacity ≤ connection.outbound.length)

def Deadlocked : Prop := connection.pumpBlocked = true ∧ connection.guestBlocked = true

instance : Decidable connection.Deadlocked := inferInstanceAs (Decidable (_ ∧ _))

/-- What the pump takes up for the guest, a frame or the news of its own goodbye, finds
fewer than 64 events waiting. -/
def RoomInbound : Step → Prop
  | .incoming item => item.forwarded = true → connection.inbound.length < capacity
  | .wrote _ => connection.pump.telling = true → connection.inbound.length < capacity
  | _ => True

/-- What the guest sends, a frame of a handler, the report of a refused message or the
close after a failed `open`, finds fewer than 64 frames waiting. -/
def RoomOutbound : Step → Prop
  | .send _ | .settle (.error _) | .recv (.refused (.ok _)) _ =>
    connection.outbound.length < capacity
  | _ => True

/-- Of pump and guest, neither takes up what it would wait with while the other waits. -/
def Clear (label : Step) : Prop :=
  (connection.guestBlocked = true → connection.RoomInbound label) ∧
    (connection.pumpBlocked = true → connection.RoomOutbound label)

instance (label : Step) : Decidable (connection.RoomInbound label) := by
  unfold RoomInbound
  split <;> infer_instance

instance (label : Step) : Decidable (connection.RoomOutbound label) := by
  unfold RoomOutbound
  split <;> infer_instance

instance (label : Step) : Decidable (connection.Clear label) := inferInstanceAs (Decidable (_ ∧ _))

variable {connection} {next : Connection} {label : Step}

theorem pumpBlocked_iff : connection.pumpBlocked = true ↔
    (∃ event last, connection.pump = .pushing event last) ∧ connection.linked = true ∧
      capacity ≤ connection.inbound.length := by
  unfold pumpBlocked
  split
  case h_1 event last pushing => simp [pushing]
  case h_2 other =>
    refine ⟨nofun, ?_⟩
    rintro ⟨⟨event, last, pushing⟩, _⟩
    exact absurd pushing (other event last)

theorem guestBlocked_iff : connection.guestBlocked = true ↔
    connection.sending ≠ none ∧ capacity ≤ connection.outbound.length := by
  simp [guestBlocked, isSome_iff_ne_none]

theorem select_cases (taken : connection.select stage = some next) :
    connection.pump = .selecting ∧ next = { connection with pump := stage } := by
  obtain ⟨selecting, same⟩ := ite_none_right_eq_some.mp taken
  exact ⟨selecting, (some.inj same).symm⟩

def InboundFree (connection : Connection) : Prop :=
  ∀ event last, connection.pump = .pushing event last → connection.inbound.length < capacity

def OutboundFree (connection : Connection) : Prop :=
  connection.sending ≠ none → connection.outbound.length < capacity

theorem pump_frame (pumped : label.ofGuest = false) (taken : connection.step label = some next) :
    next.sending = connection.sending ∧ next.outbound.length ≤ connection.outbound.length ∧
      (connection.RoomInbound label → next.InboundFree) := by
  cases label with
  | incoming item =>
    obtain ⟨_, rfl⟩ := select_cases taken
    refine ⟨rfl, Nat.le_refl _, fun room event last pushing => room ?_⟩
    cases item <;> first | rfl | cases pushing
  | wrote =>
    simp only [step] at taken
    split at taken <;> cases taken
    case h_1 message written stage =>
      refine ⟨rfl, Nat.le_refl _, fun room event last pushing => room ?_⟩
      rw [stage]
      cases written with
      | tell => rfl
      | resume => cases pushing
      | leave =>
        simp only [Connection.written] at pushing
        split at pushing <;> cases pushing
  | pushed =>
    simp only [step] at taken
    split at taken
    · split at taken
      · cases taken
        exact ⟨rfl, Nat.le_refl _, nofun⟩
      · obtain ⟨_, rfl⟩ := ite_some_none_eq_some.mp taken
        refine ⟨rfl, Nat.le_refl _, fun _ event last pushing => ?_⟩
        split at pushing <;> cases pushing
    · cases taken
  | outgoing =>
    simp only [step] at taken
    split at taken
    case h_1 message rest outbound =>
      obtain ⟨_, rfl⟩ := select_cases taken
      refine ⟨rfl, ?_, nofun⟩
      show rest.length ≤ connection.outbound.length
      simp [outbound]
    case h_2 =>
      split at taken
      · cases taken
      · obtain ⟨_, rfl⟩ := select_cases taken
        exact ⟨rfl, Nat.le_refl _, nofun⟩
  | idle =>
    obtain ⟨_, rfl⟩ := select_cases taken
    exact ⟨rfl, Nat.le_refl _, nofun⟩
  | stopArm =>
    obtain ⟨_, selected⟩ := ite_none_right_eq_some.mp taken
    obtain ⟨_, rfl⟩ := select_cases selected
    exact ⟨rfl, Nat.le_refl _, nofun⟩
  | upgraded | upgradeFailed | shut =>
    obtain ⟨_, rfl⟩ := ite_some_none_eq_some.mp taken
    exact ⟨rfl, Nat.le_refl _, nofun⟩
  | send | sent | settle | recv | stopToken | drain | unlink => cases pumped

theorem settled_pushes {guest after : Guest}
    (settled : guest.step (.settled (.ok ())) = some after) (handling : guest.stage.handling = true) :
    after.stage.pushes report = none := by
  cases stage : guest.stage with
  | opening | messaging =>
    simp only [Guest.step, stage] at settled
    cases settled
    rfl
  | closing =>
    simp only [Guest.step, stage] at settled
    cases settled
    simp only [Guest.closed, Guest.leave, Guest.ending]
    split <;> rfl
  | authenticating | accepting | hangingUp | receiving | reporting | returned | threw =>
    rw [stage] at handling
    cases handling

theorem received_pushes {guest : Guest} (event : Received) (receiving : guest.stage = .receiving)
    (calm : ∀ built, event ≠ .frame (.refused (.ok built))) :
    (guest.receive event).stage.pushes report = none := by
  have idle : guest.stage.pushes report = none := by rw [receiving]; rfl
  cases event with
  | close =>
    simp only [Guest.receive]
    split
    · rfl
    · simp only [Guest.ending]
      split <;> rfl
  | frame verdict =>
    cases verdict with
    | accepted =>
      simp only [Guest.receive]
      split
      · exact idle
      · split
        · rfl
        · exact idle
    | refused report =>
      cases report with
      | ok built => exact absurd rfl (calm built)
      | error => rfl

theorem guest_frame (guestly : label.ofGuest = true) (taken : connection.step label = some next) :
    next.pump = connection.pump ∧ next.inbound.length ≤ connection.inbound.length ∧
      (next.linked = true → connection.linked = true) ∧
      (connection.OutboundFree → connection.RoomOutbound label → next.OutboundFree) := by
  cases label with
  | send =>
    obtain ⟨_, rfl⟩ := ite_some_none_eq_some.mp taken
    exact ⟨rfl, Nat.le_refl _, fun linked => linked, fun _ room _ => room⟩
  | sent =>
    simp only [step] at taken
    split at taken
    · split at taken
      · cases taken
        exact ⟨rfl, Nat.le_refl _, fun linked => linked, fun _ _ sending => absurd rfl sending⟩
      · obtain ⟨_, rfl⟩ := ite_some_none_eq_some.mp taken
        exact ⟨rfl, Nat.le_refl _, fun linked => linked, fun _ _ sending => absurd rfl sending⟩
    · cases taken
  | settle result =>
    obtain ⟨⟨_, handling, _⟩, settled⟩ := ite_none_right_eq_some.mp taken
    obtain ⟨_, stepped, rfl⟩ := map_eq_some_iff.mp settled
    refine ⟨rfl, Nat.le_refl _, fun linked => linked, fun _ room sending => ?_⟩
    cases result with
    | ok => exact absurd (settled_pushes stepped handling) sending
    | error => exact room
  | recv verdict _ =>
    obtain ⟨⟨_, receiving⟩, received⟩ := ite_none_right_eq_some.mp taken
    split at received
    case h_1 rest inbound =>
      cases received
      refine ⟨rfl, ?_, fun linked => linked, fun _ _ sending => ?_⟩
      · show rest.length ≤ connection.inbound.length
        simp [inbound]
      · exact absurd (received_pushes .close receiving nofun) sending
    case h_2 rest _ inbound =>
      cases received
      refine ⟨rfl, ?_, fun linked => linked, fun _ room sending => ?_⟩
      · show rest.length ≤ connection.inbound.length
        simp [inbound]
      · by_cases refused : ∃ built, verdict = .refused (.ok built)
        · obtain ⟨built, rfl⟩ := refused
          exact room
        · refine absurd (received_pushes (.frame verdict) receiving ?_) sending
          intro built same
          cases same
          exact refused ⟨built, rfl⟩
    case h_3 =>
      obtain ⟨_, rfl⟩ := ite_some_none_eq_some.mp received
      refine ⟨rfl, Nat.le_refl _, fun linked => linked, fun _ _ sending => ?_⟩
      exact absurd (received_pushes .close receiving nofun) sending
  | stopToken | drain =>
    cases taken
    exact ⟨rfl, Nat.le_refl _, fun linked => linked, fun free _ => free⟩
  | unlink =>
    cases taken
    exact ⟨rfl, Nat.le_refl _, nofun, fun _ _ sending => absurd rfl sending⟩
  | upgraded | upgradeFailed | idle | incoming | outgoing | stopArm | pushed | wrote | shut =>
    cases guestly

theorem step_not_deadlocked (connection : Connection) (label : Step) (next : Connection)
    (free : ¬ connection.Deadlocked) (clear : connection.Clear label)
    (taken : connection.step label = some next) : ¬ next.Deadlocked := by
  rintro ⟨pump, guest⟩
  obtain ⟨⟨event, last, pushing⟩, linked, full⟩ := pumpBlocked_iff.mp pump
  obtain ⟨sending, stuffed⟩ := guestBlocked_iff.mp guest
  cases guestly : label.ofGuest with
  | false =>
    -- the guest waits already, so that the pump takes up only what has room
    obtain ⟨same, shrinks, room⟩ := pump_frame guestly taken
    have waits := guestBlocked_iff.mpr ⟨same ▸ sending, Nat.le_trans stuffed shrinks⟩
    exact absurd (room (clear.1 waits) event last pushing) (Nat.not_lt.mpr full)
  | true =>
    obtain ⟨same, shrinks, bound, room⟩ := guest_frame guestly taken
    have waits := pumpBlocked_iff.mpr
      ⟨⟨event, last, same ▸ pushing⟩, bound linked, Nat.le_trans full shrinks⟩
    have before : connection.OutboundFree := fun pending =>
      Nat.lt_of_not_le fun stuffed => free ⟨waits, guestBlocked_iff.mpr ⟨pending, stuffed⟩⟩
    exact absurd (room before (clear.2 waits) sending) (Nat.not_lt.mpr stuffed)

/-- A deadlock stays: neither the stop token nor a drain reaches the pump, and none of
its other arms is polled. Only the end of the world ends it. -/
theorem deadlocked_stays (deadlocked : connection.Deadlocked)
    (handling : connection.guest.stage.handling = true) (bound : label ≠ .unlink)
    (taken : connection.step label = some next) :
    next.Deadlocked ∧ next.guest.stage.handling = true := by
  obtain ⟨⟨event, last, pushing⟩, linked, full⟩ := pumpBlocked_iff.mp deadlocked.1
  obtain ⟨pending, stuffed⟩ := guestBlocked_iff.mp deadlocked.2
  obtain ⟨message, sending⟩ := ne_none_iff_exists'.mp pending
  have unselected (stage : PumpStage) (selected : connection.select stage = some next) : False := by
    cases pushing.symm.trans (select_cases selected).1
  cases label with
  | upgraded | upgradeFailed | shut =>
    obtain ⟨stage, _⟩ := ite_none_right_eq_some.mp taken
    cases pushing.symm.trans stage
  | idle | incoming => exact absurd taken (unselected _)
  | stopArm => exact absurd (ite_none_right_eq_some.mp taken).2 (unselected _)
  | outgoing =>
    simp only [step, linked, if_true] at taken
    split at taken
    · cases pushing.symm.trans (select_cases taken).1
    · cases taken
  | pushed =>
    simp only [step, pushing, linked] at taken
    obtain ⟨room, _⟩ := ite_none_right_eq_some.mp taken
    omega
  | wrote =>
    simp only [step, pushing] at taken
    cases taken
  | send | settle =>
    obtain ⟨⟨_, _, none⟩, _⟩ := ite_none_right_eq_some.mp taken
    cases sending.symm.trans none
  | sent =>
    simp only [step, sending, pushing] at taken
    obtain ⟨_, _⟩ := ite_none_right_eq_some.mp taken
    omega
  | recv =>
    obtain ⟨⟨_, receiving⟩, _⟩ := ite_none_right_eq_some.mp taken
    rw [receiving] at handling
    cases handling
  | stopToken | drain =>
    cases taken
    exact ⟨deadlocked, handling⟩
  | unlink => exact absurd rfl bound

theorem deadlocked_run (deadlocked : connection.Deadlocked)
    (handling : connection.guest.stage.handling = true) (bound : Step.unlink ∉ labels)
    (run : exec step connection labels = some final) : final.Deadlocked := by
  induction labels generalizing connection with
  | nil =>
    cases run
    exact deadlocked
  | cons _ _ ih =>
    rw [mem_cons, not_or] at bound
    obtain ⟨_, taken, rest⟩ := bind_eq_some_iff.mp run
    obtain ⟨deadlocked, handling⟩ := deadlocked_stays deadlocked handling (Ne.symm bound.1) taken
    exact ih deadlocked handling bound.2 rest

end Connection

def flood : List Step :=
  [.upgraded, .incoming (.text "0"), .pushed, .recv .accepted ""] ++
    (List.replicate 64 [Step.incoming (.text "n"), .pushed]).flatten ++ [.incoming (.text "n")]

end Usai.Sockets
