import Mathlib.Data.List.Infix
import Mathlib.Data.List.Sort
import Usai.Environment.Declare
import Usai.FiniteMap

/-! Activation: what `describe` writes about the fields, `validate_env` of
`definition.rs`, and the part of `bind` in `runtime.rs` that reads the
environment. -/

namespace Usai.Environment

open FiniteMap List Text

structure EnvRequirement where
  name : String
  kind : Kind
  required : Bool
  values : List (List Char)
  items : Option Kind
  separator : Option (List Char)
  group : Option String
  deriving DecidableEq, Repr

def describe (field : String × EnvField) : EnvRequirement where
  name := field.1
  kind := field.2.kind
  required := field.2.required
  values := field.2.values.getD []
  items := field.2.items
  separator := field.2.separator
  group := field.2.group

/-- What the host takes from its standard library: the debug form of a text,
and the parser of addresses, which says whether one is of version 4. -/
structure Library where
  debug : List Char → String
  parseAddress : List Char → Except String Bool

section

variable (library : Library)

def cidrProblem (value : List Char) : Option String :=
  match splitOnce '/' value with
  | none => some "expected an address with a prefix length, like 10.0.0.0/8"
  | some (address, length) =>
    match library.parseAddress address with
    | .error problem => some (library.debug address ++ " is not an IP address: " ++ problem)
    | .ok version4 =>
      let bits := if version4 then 32 else 128
      match parseUnsigned 256 length with
      | some parsed =>
        if parsed ≤ bits then none
        else some ("prefix /" ++ toString parsed ++ " is longer than the " ++ toString bits ++
          " bits of this address")
      | none => some ("prefix " ++ library.debug length ++ " is not a number")

def valueProblem (kind : Kind) (value : List Char) (values : List (List Char)) : Option String :=
  match kind with
  | .url => if "://".toList <:+: value then none else some "expected a URL"
  | .int => if (parseSigned value).isSome then none else some "expected an integer"
  | .bool =>
    if value ∈ ["true".toList, "false".toList, "1".toList, "0".toList] then none
    else some "expected true/false"
  | .enum =>
    if value ∈ values then none
    else some ("expected one of " ++ ", ".intercalate (values.map String.ofList))
  | .cidr => cidrProblem library value
  | .string | .secret | .list => none

def pieces (separator value : List Char) : List (List Char) :=
  if separator = [] then [] :: (value.map ([·]) ++ [[]]) else split separator value

def itemsProblem (kind : Kind) (values : List (List Char)) : Nat → List (List Char) → Option String
  | _, [] => none
  | index, item :: rest =>
    let item := trim unicodeSpace item
    if item = [] then some ("item " ++ toString (index + 1) ++ " is empty")
    else
      match valueProblem library kind item values with
      | some detail =>
        some ("item " ++ toString (index + 1) ++ " (" ++ library.debug item ++ "): " ++ detail)
      | none => itemsProblem kind values (index + 1) rest

def validateEnv (requirement : EnvRequirement) (value : List Char) : Except String Unit :=
  let problem := match requirement.kind with
    | .list => itemsProblem library (requirement.items.getD .string) requirement.values 0
        (pieces (requirement.separator.getD [',']) value)
    | kind => valueProblem library kind value requirement.values
  match problem with
  | some detail => .error (requirement.name ++ ": " ++ detail)
  | none => .ok ()

end

inductive BindError where
  | missingEnv (names : String)
  | invalidEnv (problems : String)
  deriving DecidableEq, Repr

structure Scan where
  env : FiniteMap String (List Char)
  missing : List String
  invalid : List String

section

variable (library : Library) (assigned : String → Option (List Char))

def given (name : String) : Option (List Char) := (assigned name).filter (fun value => value ≠ [])

def check (scan : Scan) (requirement : EnvRequirement) : Scan :=
  match given assigned requirement.name with
  | some value =>
    match validateEnv library requirement value with
    | .ok () => { scan with env := scan.env.insert requirement.name value }
    | .error problem => { scan with invalid := scan.invalid ++ [problem] }
  | none =>
    if requirement.required then { scan with missing := scan.missing ++ [requirement.name] }
    else scan

def groupProblems (env : FiniteMap String (List Char)) (requirements : List EnvRequirement) :
    List String :=
  ((requirements.filterMap EnvRequirement.group).dedup.insertionSort (· ≤ ·)).filterMap
    (fun group =>
      let names := (requirements.filter (fun requirement => requirement.group = some group)).map
        EnvRequirement.name
      let set := names.filter (fun name => (env.lookup name).isSome)
      let unset := names.filter (fun name => (env.lookup name).isNone)
      if set ≠ [] ∧ unset ≠ [] then
        some (group ++ ": these variables go together — " ++ ", ".intercalate set ++ " " ++
          (if set.length = 1 then "is" else "are") ++ " set, so " ++ ", ".intercalate unset ++
          " must be too")
      else none)

def bind (requirements : List EnvRequirement) :
    Except BindError (FiniteMap String (List Char)) :=
  let scan := requirements.foldl (check library assigned) ⟨∅, [], []⟩
  let invalid := scan.invalid ++ groupProblems scan.env requirements
  if scan.missing ≠ [] then .error (.missingEnv (", ".intercalate scan.missing))
  else if invalid ≠ [] then .error (.invalidEnv ("; ".intercalate invalid))
  else .ok scan.env

structure Accepted (env : FiniteMap String (List Char)) (requirement : EnvRequirement) : Prop where
  bound : env.lookup requirement.name = given assigned requirement.name
  valid : ∀ value ∈ given assigned requirement.name,
    validateEnv library requirement value = .ok ()
  present : given assigned requirement.name = none → requirement.required = false

variable {library assigned}

variable {value : List Char} {scan : Scan} {env : FiniteMap String (List Char)}
  {requirement : EnvRequirement}

theorem validateEnv_eq_ok_iff :
    validateEnv library requirement value = .ok () ↔
      if requirement.kind = .list then
        itemsProblem library (requirement.items.getD .string) requirement.values 0
          (pieces (requirement.separator.getD [',']) value) = none
      else valueProblem library requirement.kind value requirement.values = none := by
  obtain ⟨_, kind, _, _, _, _, _⟩ := requirement
  cases kind with
  | list =>
    simp only [validateEnv, if_pos]
    split
    · next detail problem =>
      rw [problem]
      exact iff_of_false (by nofun) (by nofun)
    · next problem => exact iff_of_true rfl problem
  | string | url | secret | int | bool | enum | cidr =>
    simp only [validateEnv, reduceCtorEq, if_false]
    split
    · next detail problem =>
      rw [problem]
      exact iff_of_false (by nofun) (by nofun)
    · next problem => exact iff_of_true rfl problem

theorem check_cases (nothing : (check library assigned scan requirement).missing = [])
    (fine : (check library assigned scan requirement).invalid = []) :
    scan.missing = [] ∧ scan.invalid = [] ∧
      ((∃ value, given assigned requirement.name = some value ∧
          validateEnv library requirement value = .ok () ∧
          (check library assigned scan requirement).env = scan.env.insert requirement.name value) ∨
        given assigned requirement.name = none ∧ requirement.required = false ∧
          (check library assigned scan requirement).env = scan.env) := by
  cases found : given assigned requirement.name with
  | some value =>
    cases valid : validateEnv library requirement value with
    | ok =>
      simp only [check, found, valid] at nothing fine ⊢
      exact ⟨nothing, fine, .inl ⟨value, rfl, valid, rfl⟩⟩
    | error =>
      simp only [check, found, valid] at fine
      exact absurd fine (append_ne_nil_of_right_ne_nil _ (cons_ne_nil _ _))
  | none =>
    cases required : requirement.required with
    | true =>
      simp only [check, found, required, if_true] at nothing
      exact absurd nothing (append_ne_nil_of_right_ne_nil _ (cons_ne_nil _ _))
    | false =>
      have same : check library assigned scan requirement = scan := by
        simp only [check, found, required, Bool.false_eq_true, if_false]
      rw [same] at nothing fine ⊢
      exact ⟨nothing, fine, .inr ⟨rfl, rfl, rfl⟩⟩

def Faithful (assigned : String → Option (List Char)) (env : FiniteMap String (List Char)) : Prop :=
  ∀ name value, env.lookup name = some value → given assigned name = some value

theorem check_faithful (requirement : EnvRequirement) (faithful : Faithful assigned scan.env) :
    Faithful assigned (check library assigned scan requirement).env := by
  unfold check
  split
  · next value found =>
    split
    · intro other bound present
      rcases of_lookup_insert present with ⟨rfl, rfl⟩ | present
      · exact found
      · exact faithful other bound present
    · exact faithful
  · split
    · exact faithful
    · exact faithful

theorem foldl_check (requirements : List EnvRequirement) {final : Scan}
    (ran : requirements.foldl (check library assigned) scan = final)
    (nothing : final.missing = []) (fine : final.invalid = [])
    (faithful : Faithful assigned scan.env) :
    (scan.missing = [] ∧ scan.invalid = []) ∧
      (∀ name value, scan.env.lookup name = some value → final.env.lookup name = some value) ∧
      Faithful assigned final.env ∧
      ∀ requirement ∈ requirements, Accepted library assigned final.env requirement := by
  induction requirements generalizing scan with
  | nil =>
    cases ran
    exact ⟨⟨nothing, fine⟩, fun _ _ present => present, faithful, (by nofun)⟩
  | cons requirement _ step =>
    obtain ⟨clean, kept, last, accepted⟩ := step ran (check_faithful requirement faithful)
    obtain ⟨missing, invalid, looked⟩ := check_cases clean.1 clean.2
    refine ⟨⟨missing, invalid⟩, ?_, last, forall_mem_cons.mpr ⟨?_, accepted⟩⟩
    · intro name value present
      refine kept name value ?_
      rcases looked with ⟨_, found, _, same⟩ | ⟨_, _, same⟩
      · rw [same, lookup_insert_eq]
        split
        · next here =>
          subst here
          exact found.symm.trans (faithful _ _ present)
        · exact present
      · rw [same]
        exact present
    · rcases looked with ⟨value, found, valid, same⟩ | ⟨absent, optional, _⟩
      · have bound : final.env.lookup requirement.name = some value := by
          refine kept requirement.name value ?_
          rw [same, lookup_insert_eq, if_pos rfl]
        refine ⟨bound.trans found.symm, ?_, ?_⟩
        · intro other again
          cases found.symm.trans again
          exact valid
        · intro absent
          cases found.symm.trans absent
      · refine ⟨?_, ?_, fun _ => optional⟩
        · rw [absent]
          cases present : final.env.lookup requirement.name with
          | none => rfl
          | some value => cases absent.symm.trans (last requirement.name value present)
        · intro value again
          cases absent.symm.trans again

theorem bind_accepted {requirements : List EnvRequirement}
    (activated : bind library assigned requirements = .ok env) :
    ∀ requirement ∈ requirements, Accepted library assigned env requirement := by
  simp only [bind] at activated
  split at activated
  · cases activated
  · next nothing =>
    split at activated <;> cases activated
    next fine =>
      have fine := append_eq_nil_iff.mp (not_not.mp fine)
      have empty : Faithful assigned ∅ := by
        intro name value present
        cases present
      exact (foldl_check requirements rfl (not_not.mp nothing) fine.1 empty).2.2.2

end

def property (env : FiniteMap String (List Char)) (name : String) : Option Raw :=
  match env.lookup name with
  | some value => some (.text value)
  | none => if name ∈ objectMethods then some .method else none

end Usai.Environment
