import Mathlib.Data.List.MinMax
import Mathlib.Data.List.Lex
import Usai.Http.Router

/-! A route matcher over segments. A pattern is made of literals, of parameters
that take one segment, and of a last one that takes the rest of the path; at the
first segment where two patterns differ, a literal is more specific than a
parameter and a parameter more than the rest. -/

namespace Usai.Http

open List Option

inductive Segment where
  | literal (text : List Char)
  | parameter (name : List Char)
  | rest (name : List Char)
  deriving DecidableEq, Repr

namespace Segment

def closed (tail : List Char) : Option (List Char) :=
  let name := tail.dropLast
  if tail.getLast? = some '}' ∧ name ≠ [] ∧ '{' ∉ name ∧ '}' ∉ name then some name else none

def parse : List Char → Option Segment
  | '{' :: '*' :: tail => (closed tail).map rest
  | '{' :: tail => (closed tail).map parameter
  | text => if '{' ∈ text ∨ '}' ∈ text then none else some (literal text)

def shape : Segment → Segment
  | literal text => literal text
  | parameter _ => parameter []
  | rest _ => rest []

def rank : Segment → Nat
  | literal _ => 2
  | parameter _ => 1
  | rest _ => 0

def ordered : List Segment → Bool
  | [] => true
  | [_] => true
  | rest _ :: _ :: _ => false
  | _ :: segments => ordered segments

def parseAll (pattern : String) : Option (List Segment) :=
  ((pattern.toList.splitOn '/').mapM parse).filter ordered

def covers : List Segment → List (List Char) → Bool
  | [], [] => true
  | literal text :: segments, part :: parts => text == part && covers segments parts
  | parameter _ :: segments, part :: parts => part != [] && covers segments parts
  | rest _ :: segments, part :: parts => segments.isEmpty && part :: parts != [[]]
  | _, _ => false

theorem shape_eq_of_covers (first : covers one parts = true) (second : covers two parts = true)
    (ranks : one.map rank = two.map rank) : one.map shape = two.map shape := by
  induction one generalizing two parts with
  | nil =>
    cases two with
    | nil => rfl
    | cons => cases ranks
  | cons head _ ih =>
    cases two with
    | nil => cases ranks
    | cons head' _ =>
      obtain ⟨same, later⟩ := cons.inj ranks
      cases parts with
      | nil => cases head <;> cases first
      | cons =>
        cases head with
        | literal =>
          cases head' with
          | literal =>
            obtain ⟨here, covered⟩ := (Bool.and_eq_true _ _).mp first
            obtain ⟨here', covered'⟩ := (Bool.and_eq_true _ _).mp second
            have equal := (beq_iff_eq.mp here).trans (beq_iff_eq.mp here').symm
            rw [map_cons, map_cons, ih covered covered' later, equal]
          | parameter => cases same
          | rest => cases same
        | parameter =>
          cases head' with
          | literal => cases same
          | parameter =>
            obtain ⟨-, covered⟩ := (Bool.and_eq_true _ _).mp first
            obtain ⟨-, covered'⟩ := (Bool.and_eq_true _ _).mp second
            rw [map_cons, map_cons, ih covered covered' later]
            rfl
          | rest => cases same
        | rest =>
          cases head' with
          | literal => cases same
          | parameter => cases same
          | rest =>
            -- nothing comes after a rest
            have last := isEmpty_iff.mp ((Bool.and_eq_true _ _).mp first).1
            have last' := isEmpty_iff.mp ((Bool.and_eq_true _ _).mp second).1
            rw [last, last']
            rfl

/-- How specific a pattern is: the ranks of its segments, in the order of a
dictionary. -/
def Specificity := List Nat

instance : LinearOrder Specificity := inferInstanceAs (LinearOrder (List Nat))

def ranks (pattern : String) : Specificity := ((parseAll pattern).getD []).map rank

def clash (one two : String) : Bool :=
  match parseAll one, parseAll two with
  | some segments, some others => segments.map shape == others.map shape
  | _, _ => false

def answers (pattern path : String) : Bool :=
  (parseAll pattern).any (fun segments => covers segments (path.toList.splitOn '/'))

def choose (inserted : List String) (path : String) : Option String :=
  (inserted.filter (fun pattern => answers pattern path)).argmax ranks

theorem clash_symm (one two : String) : clash one two = clash two one := by
  unfold clash
  cases parseAll one with
  | none => cases parseAll two <;> rfl
  | some =>
    cases parseAll two with
    | none => rfl
    | some => exact Bool.beq_comm

theorem answers_iff :
    answers pattern path = true ↔ ∃ segments, parseAll pattern = some segments ∧
      covers segments (path.toList.splitOn '/') = true := by
  unfold answers
  cases parseAll pattern with
  | none => exact iff_of_false nofun nofun
  | some => simp

theorem clash_of_ranks (first : answers one path = true)
    (second : answers two path = true) (same : ranks one = ranks two) : clash one two = true := by
  obtain ⟨_, parsed, covered⟩ := answers_iff.mp first
  obtain ⟨_, parsed', covered'⟩ := answers_iff.mp second
  unfold ranks at same
  unfold clash
  rw [parsed, parsed', getD_some, getD_some] at same
  rw [parsed, parsed']
  exact beq_iff_eq.mpr (shape_eq_of_covers covered covered' same)

theorem choose_none (inserted : List String) (path : String) :
    choose inserted path = none ↔ ∀ pattern ∈ inserted, answers pattern path = false := by
  unfold choose
  rw [argmax_eq_none, filter_eq_nil_iff]
  simp only [Bool.not_eq_true]

theorem choose_some (apart : inserted.Pairwise (fun one two => clash one two = false))
    (chosen : choose inserted path = some found) :
    found ∈ inserted ∧ answers found path = true ∧
      ∀ other ∈ inserted, other ≠ found → answers other path = true → ranks other < ranks found := by
  obtain ⟨member, covered⟩ := mem_filter.mp (argmax_mem chosen)
  refine ⟨member, covered, ?_⟩
  intro other within differ answered
  have listed : other ∈ inserted.filter (fun pattern => answers pattern path) :=
    mem_filter.mpr ⟨within, answered⟩
  have below : ranks other ≤ ranks found := le_of_mem_argmax listed chosen
  refine lt_of_le_of_ne below ?_
  intro same
  have symmetric : Std.Symm (fun one two => clash one two = false) :=
    ⟨fun one two distinct => (clash_symm two one).trans distinct⟩
  have distinct := apart.forall within member differ
  rw [clash_of_ranks answered covered same] at distinct
  cases distinct

end Segment

def segmentMatcher : Matchit where
  formed pattern := (Segment.parseAll pattern).isSome
  clashes := Segment.clash
  refusal _ pattern := "insertion failed due to conflict with previously registered route: " ++ pattern
  covers := Segment.answers
  beats one two := Segment.ranks two < Segment.ranks one
  best := Segment.choose
  clashes_symm := Segment.clash_symm
  beats_asymm _ _ wins := decide_eq_false (lt_asymm (of_decide_eq_true wins))
  best_none := Segment.choose_none
  best_some _ _ _ _ apart chosen :=
    let ⟨member, covered, beaten⟩ := Segment.choose_some apart chosen
    ⟨member, covered, fun other within differ answered =>
      decide_eq_true (beaten other within differ answered)⟩

end Usai.Http
