import Usai.Http.Exchange

/-! The three ways in which guest code gets a response: what a handler returns,
the head of a stream (`http/stream.rs`), and the accepted upgrade of a socket.
`none` is a panic of the host: the response builder has recorded an error, and
its `body()` is unwrapped by an `expect`. -/

namespace Usai.Http

open List Option
open Text (toAsciiLowercase)

inductive Sent where
  | returned (result : WorkResult)
  | start (status : Nat) (headers : List (String × String))
  | send (text base64 : Option String)
  | accept (protocol : Option String)

def commitHead (contentType : String) (status : Nat) (headers : List (String × String)) : Head :=
  ⟨status, headers ++
    if headers.any (fun header => toAsciiLowercase header.1 = "content-type") then []
    else [("content-type", contentType)]⟩

def chunk : Option String → Option String → Payload
  | some text, _ => .text text
  | none, some base64 => .base64 base64
  | none, none => .empty

def switchingProtocols (protocol : Option String) : Option HttpResponse :=
  -- the protocol is put into the builder as the guest wrote it
  if protocol.all headerText then some (upgradeResponse protocol) else none

def Sent.response (expose : Bool) (contentType : String) : Sent → Option (HttpResponse × Payload)
  | .returned result => some (encode expose result, (encode expose result).body)
  | .start status headers =>
    (commitHead contentType status headers).response.map fun response => (response, .empty)
  | .send text base64 =>
    (commitHead contentType 200 []).response.map fun response => (response, chunk text base64)
  | .accept protocol => (switchingProtocols protocol).map fun response => (response, .empty)

/-- A header of a stream's head that is not dropped for its value has a name, and a
subprotocol is the value of a header. -/
def Sent.Valid : Sent → Prop
  | .start _ headers =>
    ∀ header ∈ headers, headerText header.2 = true → (headerName header.1).isSome = true
  | .accept protocol => ∀ text ∈ protocol, headerText text = true
  | .returned _ | .send _ _ => True

theorem addHeaders_isSome {headers : List (String × List String)} :
    (addHeaders headers).isSome = true ↔ ∀ header ∈ headers, ∀ value ∈ header.2,
      headerText value = true → (headerName header.1).isSome = true := by
  unfold addHeaders
  rw [Fallible.mapM_isSome]
  constructor
  · intro named header member value given valid
    have chosen := named (header.1, value) (mem_flatMap.mpr ⟨header, member,
      mem_map.mpr ⟨value, mem_filter.mpr ⟨given, valid⟩, rfl⟩⟩)
    simpa using chosen
  · intro named pair member
    obtain ⟨header, here, inside⟩ := mem_flatMap.mp member
    obtain ⟨value, kept, rfl⟩ := mem_map.mp inside
    obtain ⟨given, valid⟩ := mem_filter.mp kept
    simpa using named header here value given valid

theorem commitHead_isSome (contentType : String) (status : Nat)
    (headers : List (String × String)) :
    (commitHead contentType status headers).response.isSome = true ↔
      ∀ header ∈ headers, headerText header.2 = true → (headerName header.1).isSome = true := by
  have built (head : Head) : head.response.isSome = true ↔
      ∀ header ∈ head.headers, headerText header.2 = true →
        (headerName header.1).isSome = true := by
    have same : head.response.isSome =
        (addHeaders (head.headers.map fun header => (header.1, [header.2]))).isSome := by
      unfold Head.response
      cases addHeaders (head.headers.map fun header => (header.1, [header.2])) <;> rfl
    rw [same, addHeaders_isSome, List.forall_mem_map]
    simp only [forall_mem_singleton]
  have own : (headerName "content-type").isSome = true := by decide
  rw [built]
  constructor
  · intro named header member
    exact named header (mem_append_left _ member)
  · intro named header member
    rcases mem_append.mp member with given | added
    · exact named header given
    · split at added
      · cases added
      · cases mem_singleton.mp added
        exact fun _ => own

/-- The host builds a response for everything guest code can send, with what is
invalid dropped or replaced, but for a header of a stream's head that has a value
and no name and for a subprotocol that is no header value. -/
theorem response_sent (expose : Bool) (contentType : String) (sent : Sent) :
    (sent.response expose contentType).isSome = true ↔ sent.Valid := by
  cases sent with
  | returned result => exact iff_of_true rfl trivial
  | start status headers =>
    rw [Sent.response, isSome_map]
    exact commitHead_isSome contentType status headers
  | send text base64 =>
    rw [Sent.response, isSome_map]
    exact iff_of_true ((commitHead_isSome contentType 200 []).mpr nofun) trivial
  | accept protocol =>
    rw [Sent.response, isSome_map]
    cases protocol with
    | none => exact iff_of_true rfl nofun
    | some text => simp [switchingProtocols, Sent.Valid]

/-- Both `expect`s fail: a stream that is started with a header named `x y`, and a
socket that is accepted with a line break in its subprotocol. -/
theorem response_panics :
    (Sent.start 200 [("x y", "1")]).response false "text/event-stream" = none ∧
    (Sent.accept (some "a\nb")).response false "text/event-stream" = none := by
  decide

end Usai.Http
