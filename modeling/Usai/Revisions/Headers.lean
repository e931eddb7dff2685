import Usai.Revisions.Requests

/-! The application's headers on a response. `handle` asks for the compiled revision a
second time when the pipeline has returned, and adds the headers of the revision that is
active by then. -/

namespace Usai.Revisions

open Option

abbrev HeaderList := List (String × String)

def complete (own application : HeaderList) : HeaderList :=
  own ++ application.filter fun header => !own.any fun other => other.1 == header.1

/-- What is read of a definition here: whether it can serve HTTP, and its headers. -/
structure Compilation where
  serves : Definition → Bool
  headers : Definition → HeaderList

/-- A response that has been sent: the definition of the revision that answered, if one
did, and whether application headers belong on it. -/
structure Sent where
  answeredBy : Option Definition
  application : Bool
  own : HeaderList
  headers : HeaderList
  deriving DecidableEq

structure Desk where
  front : Front
  kept : Option RevisionId
  sent : List Sent

inductive Desk.Event where
  | front (event : Revisions.Event)
  /-- The answered request leaves `handle`. Runtime-owned surfaces and sockets get no
  application headers. -/
  | send (index : Nat) (application : Bool) (own : HeaderList)

namespace Desk

variable (compilation : Compilation)

def new (config : Config) : Desk := ⟨Front.new config, none, []⟩

def compiled (desk : Desk) : Option (RevisionId × Definition) :=
  desk.front.system.runtime.activeRevision.bind fun (id, revision) =>
    if desk.kept = some id ∨ compilation.serves revision.definition = true then
      some (id, revision.definition)
    else none

def send (desk : Desk) (answeredBy : Option RevisionId) (application : Bool) (own : HeaderList) :
    Desk :=
  let compiled := if application then desk.compiled compilation else none
  { desk with
    kept := (compiled.map Prod.fst).or desk.kept
    sent := desk.sent ++ [⟨answeredBy.bind desk.front.system.runtime.definitionOf, application, own,
      complete own ((compiled.map fun found => compilation.headers found.2).getD [])⟩] }

def step (desk : Desk) : Event → Option Desk
  | .front event => (desk.front.step event).map fun front => { desk with front }
  | .send index application own =>
    match desk.front.requests[index]? with
    | some (.answered answeredBy _) => some (desk.send compilation answeredBy application own)
    | _ => none

def Single (desk : Desk) : Prop :=
  ∀ sent ∈ desk.sent, sent.application = true → ∀ definition ∈ sent.answeredBy,
    sent.headers = complete sent.own (compilation.headers definition)

def Unmoved (desk : Desk) : Event → Prop
  | .front _ => True
  | .send index application _ =>
    ∀ id answer, desk.front.requests[index]? = some (.answered (some id) answer) →
      application = true → ∃ revision,
        desk.front.system.runtime.activeRevision = some (id, revision) ∧
          (desk.kept = some id ∨ compilation.serves revision.definition = true)

end Desk

variable {compilation : Compilation}

theorem definitionOf_active {runtime : Runtime} {id : RevisionId} {revision : Revision}
    (active : runtime.activeRevision = some (id, revision)) :
    runtime.definitionOf id = some revision.definition := by
  obtain ⟨_, _, found⟩ := bind_eq_some_iff.mp active
  obtain ⟨_, lookup, same⟩ := map_eq_some_iff.mp found
  cases same
  rw [Runtime.definitionOf, (ite_none_right_eq_some.mp lookup).2]
  rfl

theorem step_single (desk : Desk) (event : Desk.Event) (next : Desk)
    (single : desk.Single compilation) (unmoved : desk.Unmoved compilation event)
    (taken : desk.step compilation event = some next) : next.Single compilation := by
  cases event with
  | front =>
    obtain ⟨_, _, rfl⟩ := map_eq_some_iff.mp taken
    exact single
  | send _ application _ =>
    simp only [Desk.step] at taken
    split at taken <;> cases taken
    rename_i answeredBy answer found
    intro sent member applies definition answered
    rcases List.mem_append.mp member with old | new
    · exact single sent old applies definition answered
    · cases List.mem_singleton.mp new
      obtain ⟨id, rfl, recorded⟩ := bind_eq_some_iff.mp answered
      obtain ⟨_, active, builds⟩ := unmoved id answer found applies
      have same := (definitionOf_active active).symm.trans recorded
      cases same
      simp only [show application = true from applies, if_true, Desk.compiled, active,
        bind_some, if_pos builds, map_some, getD_some]

/-- While no response leaves after its revision has been replaced, each has the headers of
the revision that answered it. -/
theorem headers_of_answering_revision (compilation : Compilation) (config : Config)
    (events : List Desk.Event)
    (unmoved : Transition.Meets (Desk.step compilation) (Desk.Unmoved compilation) (Desk.new config)
      events) :
    Transition.Along (Desk.step compilation) (Desk.Single compilation) (Desk.new config) events :=
  Transition.along_of_meets step_single (by rintro _ ⟨⟩) unmoved

def versions : Compilation :=
  ⟨fun _ => true, fun definition => [("x-workloads", toString definition.workloads.length)]⟩

def answerThenSwap : List Desk.Event :=
  [.front (.call (.install uploads)), .front (.call (.resume 0 .done)),
    .front (.call (.activate ⟨1⟩)), .front (.call (.resume 1 .done)),
    .front (.arrive (.handler "http:POST /upload")), .front (.complete 0 (.ok ()) (.ok ())),
    .front (.call (.install ⟨"app", [], true⟩)), .front (.call (.resume 2 .done)),
    .front (.call (.activate ⟨2⟩)), .front (.call (.resume 3 .done))]

theorem headers_of_answering_revision_uploads :
    Transition.Along (Desk.step versions) (Desk.Single versions) (Desk.new ⟨4, false, false, false⟩)
      (answerThenSwap.take 6 ++ [.send 0 true []]) := by
  refine headers_of_answering_revision versions _ _ ⟨trivial, trivial, trivial, trivial, trivial,
    trivial, ?_, trivial⟩
  rintro _ _ ⟨⟩ _
  exact ⟨_, rfl, .inr rfl⟩

/-- The response of the first revision leaves with the headers of the second. -/
theorem swapped_headers :
    (Transition.exec (Desk.step versions) (Desk.new ⟨4, false, false, false⟩)
      (answerThenSwap ++ [.send 0 true []])).map (fun desk => desk.sent) =
        some [⟨some uploads, true, [], [("x-workloads", "0")]⟩] ∧
      complete [] (versions.headers uploads) = [("x-workloads", "1")] := by
  decide +kernel

end Usai.Revisions
