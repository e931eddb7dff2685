import Usai.Tally
import Usai.Transition

/-! The way of chunks and frames from a handler to its client (`http/stream.rs`,
`http/socket.rs`). Each `stream.send`, `stream.event` or `socket.send` is an operation of its
own: `start` is called at once, and the future it returns, which sends into a bounded channel,
is driven by a task of its own. -/

namespace Usai.Http

inductive ChunkKind where
  | stream
  | socket
  deriving DecidableEq

def chunkCapacity : Nat := 64

/-- `sending` are the chunks whose tasks have not ended, in the order of the calls. `issued`
and `received` are the history of the handler and of the client. -/
structure ChunkPipe (Chunk : Type) where
  kind : ChunkKind
  issued : List Chunk
  sending : List Chunk
  channel : List Chunk
  received : List Chunk
  clientGone : Bool
  cancelled : Bool
  retired : Bool
  deriving DecidableEq

inductive ChunkLabel (Chunk : Type) where
  | issue (chunk : Chunk)
  | push (index : Nat)
  | receive
  | leave
  | cancel
  | retire
  | abandon (index : Nat)

namespace ChunkPipe

variable {Chunk : Type}

def new (kind : ChunkKind) : ChunkPipe Chunk := ⟨kind, [], [], [], [], false, false, false⟩

/-- The token of the world, of which the cancellation and the end of the world are the same
to a task. Only the `select!` of a stream waits for it. -/
def released (pipe : ChunkPipe Chunk) : Bool :=
  match pipe.kind with
  | .stream => pipe.cancelled || pipe.retired
  | .socket => false

def step (pipe : ChunkPipe Chunk) : ChunkLabel Chunk → Option (ChunkPipe Chunk)
  | .issue chunk =>
    if pipe.retired then none
    else some { pipe with issued := pipe.issued ++ [chunk], sending := pipe.sending ++ [chunk] }
  | .push index =>
    match pipe.sending[index]? with
    | some chunk =>
      if pipe.clientGone = false ∧ pipe.channel.length < chunkCapacity then
        some { pipe with
          sending := pipe.sending.eraseIdx index
          channel := pipe.channel ++ [chunk] }
      else none
    | none => none
  | .receive =>
    match pipe.channel with
    | [] => none
    | chunk :: rest => some { pipe with channel := rest, received := pipe.received ++ [chunk] }
  | .leave => some { pipe with clientGone := true }
  | .cancel => some { pipe with cancelled := true }
  | .retire => some { pipe with retired := true }
  | .abandon index =>
    if pipe.clientGone ∨ pipe.released then
      some { pipe with sending := pipe.sending.eraseIdx index }
    else none

def underway (pipe : ChunkPipe Chunk) : List Chunk :=
  pipe.received ++ (pipe.channel ++ pipe.sending)

/-- The client gets the chunks in the order of the calls and none of them twice. While it is
there and the world is not cancelled it gets all of them, also past the end of the world: none
is missing, and as long as one is on its way the channel can move. -/
structure Faithful (pipe : ChunkPipe Chunk) : Prop where
  ordered : pipe.underway.Sublist pipe.issued
  complete : pipe.clientGone = false → pipe.cancelled = false → pipe.underway = pipe.issued
  moves : pipe.clientGone = false → pipe.received.length < pipe.underway.length →
    (pipe.step .receive).isSome ∨ (pipe.step (.push 0)).isSome

/-- The handler has at most one send outstanding: it makes a call when the one before has
ended, and does not return from a stream in the middle of one. -/
def Awaits (pipe : ChunkPipe Chunk) : ChunkLabel Chunk → Prop
  | .issue _ => pipe.sending = []
  | .retire => pipe.kind = .stream → pipe.sending = []
  | _ => True

structure Awaited (pipe : ChunkPipe Chunk) : Prop extends Faithful pipe where
  single : pipe.sending.length ≤ 1
  settled : pipe.kind = .stream → pipe.retired = true → pipe.sending = []

theorem step_moves (pipe : ChunkPipe Chunk) (present : pipe.clientGone = false)
    (left : pipe.received.length < pipe.underway.length) :
    (pipe.step .receive).isSome ∨ (pipe.step (.push 0)).isSome := by
  obtain ⟨_, _, sending, channel, _, _, _, _⟩ := pipe
  cases present
  cases channel with
  | cons => exact .inl rfl
  | nil =>
    cases sending with
    | cons => exact .inr rfl
    | nil => simp [underway] at left

theorem Faithful.of_underway {pipe next : ChunkPipe Chunk} (faithful : pipe.Faithful)
    (same : next.underway = pipe.underway) (issued : next.issued = pipe.issued)
    (gone : next.clientGone = false → pipe.clientGone = false)
    (cancelled : next.cancelled = false → pipe.cancelled = false) : next.Faithful where
  ordered := by
    rw [same, issued]
    exact faithful.ordered
  complete present running := by
    rw [same, issued]
    exact faithful.complete (gone present) (cancelled running)
  moves := step_moves next

theorem step_awaited (pipe : ChunkPipe Chunk) (label : ChunkLabel Chunk) (next : ChunkPipe Chunk)
    (awaited : pipe.Awaited) (awaits : pipe.Awaits label) (taken : pipe.step label = some next) :
    next.Awaited := by
  obtain ⟨faithful, single, settled⟩ := awaited
  cases label with
  | issue chunk =>
    obtain ⟨running, same⟩ := Option.ite_none_left_eq_some.mp taken
    cases same
    have none : pipe.sending = [] := awaits
    refine ⟨⟨?_, ?_, step_moves _⟩, by simp [none], fun _ ended => absurd ended running⟩
    · simpa [underway] using faithful.ordered.append (List.Sublist.refl [chunk])
    · intro present running
      simpa [underway] using congrArg (· ++ [chunk]) (faithful.complete present running)
  | push index =>
    obtain ⟨_, _, sending, _, _, _, _, _⟩ := pipe
    match sending, index with
    | [], _ => cases taken
    | chunk :: rest, index + 1 =>
      cases List.eq_nil_of_length_eq_zero (Nat.le_zero.mp (Nat.le_of_succ_le_succ single))
      cases taken
    | chunk :: rest, 0 =>
      obtain ⟨_, rfl⟩ := Option.ite_some_none_eq_some.mp taken
      refine ⟨faithful.of_underway (by simp [underway]) rfl id id, Nat.le_of_succ_le single, ?_⟩
      intro stream ended
      cases settled stream ended
  | receive =>
    obtain ⟨_, _, _, channel, _, _, _, _⟩ := pipe
    cases channel with
    | nil => cases taken
    | cons =>
      cases taken
      exact ⟨faithful.of_underway (by simp [underway]) rfl id id, single, settled⟩
  | leave =>
    cases taken
    exact ⟨faithful.of_underway rfl rfl nofun id, single, settled⟩
  | cancel =>
    cases taken
    exact ⟨faithful.of_underway rfl rfl id nofun, single, settled⟩
  | retire =>
    cases taken
    exact ⟨faithful.of_underway rfl rfl id id, single, fun stream _ => awaits stream⟩
  | abandon index =>
    obtain ⟨ended, rfl⟩ := Option.ite_some_none_eq_some.mp taken
    have fewer := List.eraseIdx_sublist pipe.sending index
    refine ⟨⟨?_, ?_, step_moves _⟩, Nat.le_trans fewer.length_le single, ?_⟩
    · exact ((List.Sublist.refl _).append ((List.Sublist.refl _).append fewer)).trans
        faithful.ordered
    · -- With the client there and no cancellation, the world of a stream is ended, and its
      -- handler has left nothing to abandon.
      intro present running
      simp only at present running
      have none : pipe.sending = [] := by
        unfold released at ended
        cases kind : pipe.kind with
        | stream => exact settled kind (by simpa [kind, present, running] using ended)
        | socket => simp [kind, present] at ended
      simpa [underway, none] using faithful.complete present running
    · intro stream ended
      simp [settled stream ended]

def Conserved (pipe : ChunkPipe Chunk) : Prop :=
  pipe.channel.length ≤ chunkCapacity ∧ ∃ lost, (lost ++ pipe.underway).Perm pipe.issued ∧
    (pipe.clientGone = false → pipe.released = false → lost = [])

theorem Conserved.keeps {pipe next : ChunkPipe Chunk} (conserved : pipe.Conserved)
    (room : next.channel.length ≤ chunkCapacity) (same : next.underway.Perm pipe.underway)
    (issued : next.issued = pipe.issued)
    (gone : next.clientGone = false → pipe.clientGone = false)
    (released : next.released = false → pipe.released = false) : next.Conserved := by
  obtain ⟨_, lost, conserved, kept⟩ := conserved
  refine ⟨room, lost, issued ▸ (same.append_left lost).trans conserved, ?_⟩
  intro present running
  exact kept (gone present) (released running)

theorem step_conserved (pipe : ChunkPipe Chunk) (label : ChunkLabel Chunk) (next : ChunkPipe Chunk)
    (conserved : pipe.Conserved) (_ : True) (taken : pipe.step label = some next) :
    next.Conserved := by
  have whole := conserved
  obtain ⟨room, lost, same, kept⟩ := conserved
  have erased (front : List Chunk) (index : Nat) (chunk : Chunk)
      (found : pipe.sending[index]? = some chunk) :
      (front ++ chunk :: pipe.sending.eraseIdx index).Perm (front ++ pipe.sending) :=
    (Tally.eraseIdx_perm found).append_left front
  cases label with
  | issue chunk =>
    obtain ⟨_, same'⟩ := Option.ite_none_left_eq_some.mp taken
    cases same'
    exact ⟨room, lost, by simpa [underway] using same.append_right [chunk], kept⟩
  | push index =>
    cases found : pipe.sending[index]? with
    | none => simp [step, found] at taken
    | some chunk =>
      simp only [step, found] at taken
      obtain ⟨⟨_, free⟩, rfl⟩ := Option.ite_some_none_eq_some.mp taken
      refine whole.keeps (by simp; omega) ?_ rfl id id
      simpa [underway] using erased (pipe.received ++ pipe.channel) index chunk found
  | receive =>
    cases full : pipe.channel with
    | nil => simp [step, full] at taken
    | cons chunk rest =>
      simp only [step, full] at taken
      cases taken
      rw [full] at room
      exact whole.keeps (Nat.le_of_succ_le room) (by simp [underway, full]) rfl id id
  | leave =>
    cases taken
    exact whole.keeps room (.refl _) rfl (by simp) id
  | cancel =>
    cases taken
    refine whole.keeps room (.refl _) rfl id ?_
    unfold released
    cases pipe.kind <;> simp
  | retire =>
    cases taken
    refine whole.keeps room (.refl _) rfl id ?_
    unfold released
    cases pipe.kind <;> simp +contextual
  | abandon index =>
    obtain ⟨ended, rfl⟩ := Option.ite_some_none_eq_some.mp taken
    cases found : pipe.sending[index]? with
    | none =>
      have nothing : pipe.sending.eraseIdx index = pipe.sending :=
        List.eraseIdx_of_length_le (by simpa using found)
      exact whole.keeps room (by simp [underway, nothing]) rfl id id
    | some chunk =>
      refine ⟨room, chunk :: lost, .trans ?_ same, ?_⟩
      · simpa [underway] using List.perm_middle.symm.trans
          (erased (lost ++ pipe.received ++ pipe.channel) index chunk found)
      · intro present running
        have still : pipe.released = false := running
        simp only at present
        simp [present, still] at ended

end ChunkPipe

open ChunkPipe

end Usai.Http
