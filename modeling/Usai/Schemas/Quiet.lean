import Usai.Schemas.Warm

/-! What the guards of the warm-up leave open: which callbacks a run on `undefined`, on
an empty object or on a sample can still come to in a node that they let pass. -/

namespace Usai.Schemas

open List Option Payload

section

variable (zod : Zod)

def Silent (schema : Schema) (value : Value) : Prop := (schema.run zod value).calls = []

def Action.calls : Action → List ℕ
  | .library _ => []
  | .refinement call _ => [call]
  | .overwrite call _ => call.toList

def QuietChecks : List Check → Payload → Prop
  | [], _ => True
  | check :: checks, payload =>
    check.asked = [] ∧ (check.applies payload = true → check.action.calls = []) ∧
      QuietChecks checks (check.run zod payload)

def Leaf.calls : Leaf → List ℕ
  | .custom call _ | .transform call _ => [call]
  | _ => []

/-- `zodFailsFast` leaves open the checks of a leaf that takes `undefined` for a value of
its type, and what comes after the input of a pipe that accepts it. -/
def Schema.OnUndefined : Schema → Prop
  | .leaf kind checks =>
    ∀ typed ∈ kind.typed zod .undefined, QuietChecks zod checks (kind.own zod typed)
  | .wrap .optional inner _ => zod.optin inner = true → inner.OnUndefined
  | .wrap _ inner _ => inner.OnUndefined
  | .pipe input output _ =>
    input.OnUndefined ∧ ∀ middle ∈ input.parse zod .undefined, Silent zod output middle
  | .map keyType valueType checks =>
    zod.entries .undefined ≠ none → Silent zod (.map keyType valueType checks) .undefined
  | .set valueType checks =>
    zod.members .undefined ≠ none → Silent zod (.set valueType checks) .undefined
  | .object _ _ _ | .array _ _ | .tuple _ _ _ | .record _ _ _ | .union _ _ | .intersection _ _ _ =>
    True

/-- The fields of an empty object are `undefined`, but for those that have the name of a
method of every object. Its own checks are run if no field ends them. -/
def Schema.OnEmpty : Schema → Prop
  | .object shape catchall checks =>
    (∀ field ∈ shape, if field.1 ∈ Text.objectMethods then Silent zod field.2 (.other 0)
      else field.2.OnUndefined zod) ∧
    ((∀ field ∈ shape, (field.2.run zod (Value.get [] field.1)).verdict ≠ .aborted) →
      QuietChecks zod checks ((Schema.object shape catchall []).run zod (.object none [])))
  | _ => True

def Unasked (checks : List Check) : Prop := ∀ check ∈ checks, check.asked = []

/-- A factory of a default is called for an absent value, a catch for one that the
inner schema rejects. -/
def Wrapper.Quiet (wrapper : Wrapper) (inner : Schema) (quiet : Value → Prop) (value : Value) :
    Prop :=
  match wrapper with
  | .optional => (value.isUndefined = true → zod.optin inner = true) → quiet value
  | .nullable => value.isNull = false → quiet value
  | .readonly | .nonoptional => quiet value
  | .default supply =>
    if value.isUndefined then supply.call = none
    else quiet value ∧ ((inner.run zod value).value.isUndefined = true → supply.call = none)
  | .prefault supply =>
    if value.isUndefined then supply.call = none ∧ quiet supply.value else quiet value
  | .catching supply => quiet value ∧ (inner.parse zod value = none → supply.call = none)
  | .lazy _ => False

def fitsTuple (items : List Schema) (rest : Option Schema) (given : List Value) : Bool :=
  !(rest.isNone && (given.length < needed zod items || items.length < given.length))

mutual

/-- `zodSample` leaves open the `when` of a check, the supply of a wrapper, the output of a
pipe, the options of a union after the first, the keys of a record, and the `rest` of a tuple and
the `catchall` of an object, which a sample does not come to. -/
def Schema.OnSample : Schema → Value → Prop
  | .leaf _ checks, _ => Unasked checks
  | .wrap wrapper inner checks, value =>
    wrapper.Quiet zod inner (fun value => inner.OnSample value) value ∧ Unasked checks
  | .pipe input output checks, value =>
    (input.OnSample value ∧ ∀ middle, input.parse zod value = some middle → Silent zod output middle) ∧
      Unasked checks
  | .union options checks, value => OnFirst options value ∧ Unasked checks
  | .array element checks, value =>
    (∀ items, value.items = some items → ∀ item ∈ items, element.OnSample item) ∧ Unasked checks
  | .tuple items rest checks, value =>
    (∀ given, value.items = some given → fitsTuple zod items rest given = true →
      OnItems items (needed zod items) 0 given ∧
        ∀ schema ∈ rest, ∀ value ∈ given.drop items.length, Silent zod schema value) ∧
      Unasked checks
  | .record keyType valueType checks, value =>
    (∀ properties, value.properties = some (none, properties) →
      match zod.values keyType with
      | some keys =>
        (∀ property ∈ properties, property.1 ∈ keys.map (Value.name zod) →
          valueType.OnSample property.2) ∧
        ∀ name ∈ keys.map (Value.name zod), (properties.lookup name).isNone = true →
          valueType.OnSample (Value.get properties name)
      | none => ∀ property ∈ properties, Silent zod keyType (.string property.1) ∧
          ((keyType.parse zod (.string property.1)).isSome = true →
            valueType.OnSample property.2)) ∧
      Unasked checks
  | .object shape catchall checks, value =>
    (∀ brand properties, value.properties = some (brand, properties) →
      OnShape shape properties ∧ ∀ schema ∈ catchall, ∀ property ∈ properties,
        property.1 ∉ shape.map Prod.fst → Silent zod schema property.2) ∧
      Unasked checks
  | .intersection _ _ _, _ | .map _ _ _, _ | .set _ _, _ => True

def OnFirst : List Schema → Value → Prop
  | [], _ => True
  | option :: options, value =>
    option.OnSample value ∧
      (option.parse zod value = none → (runOptions zod options value).calls = [])

def OnItems : List Schema → ℕ → ℕ → List Value → Prop
  | [], _, _, _ => True
  | item :: items, needed, index, given =>
    match given with
    | value :: given => item.OnSample value ∧ OnItems items needed (index + 1) given
    | [] => needed ≤ index ∨ (item.OnSample .undefined ∧ OnItems items needed (index + 1) [])

def OnShape : List (String × Schema) → List (String × Value) → Prop
  | [], _ => True
  | (key, field) :: shape, properties =>
    field.OnSample (Value.get properties key) ∧ OnShape shape properties

end

variable {zod}

theorem check_calls (check : Check) (payload : Payload) :
    (check.run zod payload).calls = payload.calls ++ check.asked ++
      (if check.applies payload then check.action.calls else []) := by
  unfold Check.run
  split
  · cases check.action with
    | library =>
      dsimp only
      split
      · exact (append_nil _).symm
      · exact (append_nil _).symm
    | refinement =>
      dsimp only
      split
      · rfl
      · rfl
    | overwrite => rfl
  · exact (append_nil _).symm

theorem runChecks_calls (checks : List Check) (payload : Payload) :
    (runChecks zod checks payload).calls = [] ↔
      payload.calls = [] ∧ QuietChecks zod checks payload := by
  induction checks generalizing payload with
  | nil => exact (and_iff_left trivial).symm
  | cons check _ step =>
    refine (step (check.run zod payload)).trans ?_
    rw [check_calls, append_eq_nil_iff, append_eq_nil_iff, QuietChecks, and_assoc,
      and_assoc]
    refine and_congr_right' (and_congr_right' (and_congr_left' ?_))
    split
    · next applied => exact (imp_iff_right applied).symm
    · next passed => exact iff_of_true rfl (fun applied => absurd applied passed)

theorem quietChecks_library (library : ∀ check ∈ checks, check.libraryCheck.isSome = true)
    (payload : Payload) : QuietChecks zod checks payload ↔ Unasked checks := by
  induction checks generalizing payload with
  | nil => exact iff_of_true trivial (forall_mem_nil _)
  | cons check _ step =>
    rw [forall_mem_cons] at library
    have silent : check.action.calls = [] := by
      have named := library.1
      unfold Check.libraryCheck at named
      split at named
      · next library => rw [library, Action.calls]
      · cases named
      · cases named
    rw [QuietChecks, Unasked, forall_mem_cons, step library.2]
    exact and_congr_right' (and_iff_right (fun _ => silent))

theorem quietChecks_aborted {checks : List Check} {payload : Payload}
    (plain : hasWhen checks = false) (aborted : payload.verdict = .aborted) :
    QuietChecks zod checks payload := by
  induction checks with
  | nil => trivial
  | cons check _ step =>
    rw [hasWhen, any_cons, Bool.or_eq_false_iff] at plain
    have always : check.when = none := by simpa using plain.1
    have passed : check.applies payload = false := by simp [Check.applies, always, aborted]
    have asked : check.asked = [] := by simp [Check.asked, always]
    have same : check.run zod payload = payload := by simp [Check.run, passed, asked]
    exact ⟨asked, by simp [passed], by rw [same]; exact step plain.2⟩

theorem gather_calls (build : List Value → Value) (parts : List Payload) :
    (gather build parts).calls = [] ↔ ∀ part ∈ parts, part.calls = [] :=
  flatMap_eq_nil_iff

theorem called_calls (calls : List ℕ) (payload : Payload) :
    (payload.called calls).calls = [] ↔ calls = [] ∧ payload.calls = [] :=
  append_eq_nil_iff

theorem own_calls (leaf : Leaf) (value : Value) : (leaf.own zod value).calls = leaf.calls := by
  have format (own : LibraryCheck) : (if zod.test own value then accepted value
      else (accepted value).faulted false).calls = [] := by
    split
    · rfl
    · rfl
  cases leaf with
  | string _ own | number _ own | bigint _ own =>
    cases own with
    | none => rfl
    | some own => exact format own
  | custom | transform =>
    rw [Leaf.own]
    split
    · rfl
    · rfl
  | _ => rfl

theorem output_eq_none_iff (payload : Payload) : payload.output = none ↔ payload.verdict ≠ .clean := by
  unfold output
  split
  · next clean => exact iff_of_false nofun (fun failed => failed clean)
  · next failed => exact iff_of_true rfl failed

theorem defaulted_calls (supply : Supply) (payload : Payload) :
    (payload.defaulted supply).calls = [] ↔
      payload.calls = [] ∧ (payload.value.isUndefined = true → supply.call = none) := by
  unfold defaulted
  split
  · next absent =>
    rw [imp_iff_right absent, ← toList_eq_nil_iff]
    exact append_eq_nil_iff
  · next present => exact (and_iff_left (fun absent => absurd absent present)).symm

theorem caught_calls (supply : Supply) (payload : Payload) :
    (payload.caught supply).calls = [] ↔
      payload.calls = [] ∧ (payload.output = none → supply.call = none) := by
  rw [output_eq_none_iff]
  unfold caught
  split
  · next clean => exact (and_iff_left (fun failed => absurd clean failed)).symm
  · next failed =>
    rw [imp_iff_right failed, ← toList_eq_nil_iff]
    exact append_eq_nil_iff

theorem required_calls (payload : Payload) : payload.required.calls = payload.calls := by
  unfold required
  split
  · rfl
  · rfl

theorem absent_calls (payload : Payload) : payload.absent.calls = payload.calls := by
  unfold absent
  split
  · rfl
  · rfl

theorem ended_calls (payload : Payload) : payload.ended.calls = payload.calls := by
  unfold ended
  split
  · rfl
  · rfl

theorem pipe_calls (input output : Schema) (value : Value) :
    Silent zod (.pipe input output []) value ↔ Silent zod input value ∧
      ∀ middle, input.parse zod value = some middle → Silent zod output middle := by
  rw [Silent, Schema.run, Schema.parse, Payload.output]
  dsimp only [runChecks, foldl_nil]
  split
  · simp only [called_calls, some.injEq, forall_eq', Silent]
  · rw [ended_calls]
    exact (and_iff_left nofun).symm

theorem undefined_silent (fast : zodFailsFast schema depth = true) :
    Silent zod schema .undefined ↔ schema.OnUndefined zod := by
  have refused {checks : List Check} (plain : hasWhen checks = false) :
      (runChecks zod checks (rejected .undefined)).calls = [] :=
    (runChecks_calls _ _).mpr ⟨rfl, quietChecks_aborted plain rfl⟩
  induction schema using Schema.induct generalizing depth <;>
    simp only [zodFailsFast, Bool.and_eq_true, Bool.not_eq_true', List.isEmpty_iff] at fast
  case leaf leaf checks =>
    obtain ⟨⟨_, typed⟩, plain⟩ := fast
    rw [Silent, Schema.run, Leaf.run, Schema.OnUndefined]
    cases leaf.typed zod .undefined with
    | none => exact iff_of_true (refused plain) nofun
    | some value =>
      have bare : leaf.calls = [] := by
        cases leaf with
        | custom | transform => cases typed
        | _ => rfl
      simp [runChecks_calls, own_calls, bare]
  case wrap wrapper inner checks step =>
    obtain ⟨⟨⟨_, forwards⟩, rfl⟩, fast⟩ := fast
    have inside : Silent zod inner .undefined ↔ inner.OnUndefined zod := step fast
    cases wrapper with
    | optional =>
      rw [Schema.OnUndefined, ← inside]
      simp only [Silent, Schema.run, Wrapper.run, runChecks, foldl_nil, Value.isUndefined, if_true]
      split
      · next optional => rw [absent_calls, imp_iff_right optional]
      · next required => exact iff_of_true rfl (fun optional => absurd optional required)
    | nullable | readonly => exact inside
    | nonoptional =>
      rw [Schema.OnUndefined, ← inside]
      exact iff_of_eq (congrArg (· = []) (required_calls _))
      all_goals nofun
    | default | prefault | catching | lazy => cases forwards
  case pipe input output checks step _ =>
    obtain ⟨⟨_, rfl⟩, fast⟩ := fast
    exact (pipe_calls ..).trans (and_congr_left' (step fast))
  case union | intersection => cases fast
  case object | array | tuple | record => exact iff_of_true (refused fast.2) trivial
  case map keyType valueType checks _ _ =>
    refine ⟨fun silent _ => silent, fun given => ?_⟩
    cases found : zod.entries .undefined with
    | none =>
      rw [Silent, Schema.run, found]
      exact refused fast.2
    | some => exact given (by rw [found]; exact some_ne_none _)
  case set valueType checks _ =>
    refine ⟨fun silent _ => silent, fun given => ?_⟩
    cases found : zod.members .undefined with
    | none =>
      rw [Silent, Schema.run, found]
      exact refused fast.2
    | some => exact given (by rw [found]; exact some_ne_none _)

theorem gather_aborted {build : List Value → Value} (member : part ∈ parts)
    (aborted : part.verdict = .aborted) : (gather build parts).verdict = .aborted := by
  induction parts with
  | nil => cases member
  | cons head tail step =>
    rcases mem_cons.mp member with rfl | member
    · change part.verdict.join _ = .aborted
      rw [aborted]
      rfl
    · change head.verdict.join (gather build tail).verdict = .aborted
      rw [step member]
      cases head.verdict <;> rfl

theorem empty_silent (guard : emptied schema = true) :
    Silent zod schema (.object none []) ↔ schema.OnEmpty zod := by
  cases schema with
  | object shape catchall checks =>
    simp only [emptied, Bool.and_eq_true, Bool.not_eq_true', List.all_eq_true] at guard
    obtain ⟨plain, fast⟩ := guard
    have parts : runShape zod shape [] ++ runCatchall zod catchall [] =
        shape.map (fun field => field.2.run zod (Value.get [] field.1)) := by
      rw [runShape_eq]
      cases catchall <;> simp [runCatchall]
    refine (runChecks_calls _ _).trans (and_congr ?_ ⟨fun quiet _ => quiet, fun quiet => ?_⟩)
    · change (gather _ (runShape zod shape [] ++ runCatchall zod catchall [])).calls = [] ↔ _
      rw [gather_calls, parts, List.forall_mem_map]
      refine forall₂_congr fun field member => ?_
      rw [Value.get, lookup_nil]
      dsimp only
      split
      · rfl
      · exact undefined_silent (fast field member)
    · by_cases ends : ∀ field ∈ shape, (field.2.run zod (Value.get [] field.1)).verdict ≠ .aborted
      · exact quiet ends
      · simp only [not_forall, not_not] at ends
        obtain ⟨field, member, aborted⟩ := ends
        refine quietChecks_aborted plain (gather_aborted ?_ aborted)
        change _ ∈ runShape zod shape [] ++ runCatchall zod catchall []
        rw [parts]
        exact mem_map_of_mem member
  | _ => cases guard

def Heard (zod : Zod) (schema : Schema) : Prop :=
  ∀ value, (schema.run zod value).calls = [] ↔ schema.OnSample zod value

theorem wrapper_calls {inner : Schema} (heard : Heard zod inner) (wrapper : Wrapper)
    (value : Value) :
    (wrapper.run zod inner (inner.run zod) value).calls = [] ↔
      wrapper.Quiet zod inner (inner.OnSample zod) value := by
  cases wrapper with
  | optional =>
    rw [Wrapper.run, Wrapper.Quiet]
    split
    · next absent =>
      rw [forall_prop_of_true absent]
      split
      · next optional =>
        rw [absent_calls, imp_iff_right optional]
        exact heard value
      · next required => exact iff_of_true rfl (fun optional => absurd optional required)
    · next present =>
      rw [imp_iff_right (fun absent => absurd absent present)]
      exact heard value
  | nullable =>
    rw [Wrapper.run, Wrapper.Quiet]
    cases value.isNull with
    | true => exact iff_of_true rfl (by simp)
    | false =>
      rw [imp_iff_right rfl]
      exact heard value
  | readonly => exact heard value
  | nonoptional =>
    rw [Wrapper.run, required_calls]
    exact heard value
  | default =>
    rw [Wrapper.run, Wrapper.Quiet]
    split
    · rw [called_calls, toList_eq_nil_iff]
      exact and_iff_left rfl
    · rw [defaulted_calls, heard value]
  | prefault supply =>
    rw [Wrapper.run, Wrapper.Quiet]
    split
    · rw [called_calls, toList_eq_nil_iff, heard supply.value]
    · exact heard value
  | catching =>
    rw [Wrapper.run, caught_calls, heard value]
    rfl
  | lazy =>
    exact iff_of_false (cons_ne_nil _ _) id

theorem options_calls (heard : ∀ option ∈ options.head?, Heard zod option) (value : Value) :
    (runOptions zod options value).calls = [] ↔ OnFirst zod options value := by
  cases options with
  | nil => exact iff_of_true rfl trivial
  | cons option _ =>
    rw [runOptions, OnFirst, ← heard option rfl value, Schema.parse, output_eq_none_iff]
    split
    · next clean => exact (and_iff_left (fun failed => absurd clean failed)).symm
    · next failed => rw [called_calls, imp_iff_right failed]

theorem items_calls (heard : ∀ item ∈ items, Heard zod item)
    (needed index : ℕ) (given : List Value) :
    (∀ part ∈ runItems zod items needed index given, part.calls = []) ↔
      OnItems zod items needed index given := by
  induction items generalizing index given with
  | nil => exact iff_of_true (forall_mem_nil _) trivial
  | cons _ _ step =>
    rw [forall_mem_cons] at heard
    cases given with
    | cons value _ =>
      rw [runItems, OnItems, forall_mem_cons, heard.1 value, step heard.2]
    | nil =>
      rw [runItems, OnItems]
      split
      · next enough => exact iff_of_true (forall_mem_nil _) (.inl enough)
      · next short =>
        rw [forall_mem_cons, heard.1 .undefined, step heard.2]
        exact (or_iff_right short).symm

theorem shape_calls (heard : ∀ field ∈ shape, Heard zod field.2)
    (properties : List (String × Value)) :
    (∀ part ∈ runShape zod shape properties, part.calls = []) ↔
      OnShape zod shape properties := by
  induction shape with
  | nil => exact iff_of_true nofun trivial
  | cons _ _ step =>
    rw [forall_mem_cons] at heard
    rw [runShape, OnShape, forall_mem_cons, heard.1, step heard.2]

theorem rest_calls (rest : Option Schema) (given : List Value) :
    (∀ part ∈ runRest zod rest given, part.calls = []) ↔
      ∀ schema ∈ rest, ∀ value ∈ given, Silent zod schema value := by
  cases rest <;> simp [runRest, Silent]

theorem catchall_calls (catchall : Option Schema) (extra : List (String × Value)) :
    (∀ part ∈ runCatchall zod catchall extra, part.calls = []) ↔
      ∀ schema ∈ catchall, ∀ property ∈ extra, Silent zod schema property.2 := by
  cases catchall with
  | none => exact iff_of_true (by simp [runCatchall]) (by simp)
  | some =>
    rw [runCatchall, List.forall_mem_map]
    simp only [mem_some_iff, forall_eq', Silent]

theorem present_calls {valueType : Schema} (heard : Heard zod valueType) (names : List String)
    (property : String × Value) :
    (if property.1 ∈ names then valueType.run zod property.2
      else rejected property.2).calls = [] ↔
      (property.1 ∈ names → valueType.OnSample zod property.2) := by
  split
  · next named =>
    rw [imp_iff_right named]
    exact heard property.2
  · next other => exact iff_of_true rfl (fun named => absurd named other)

theorem structural_isSome {sample : List LibraryCheck → Option Value}
    (found : (structural checks depth sample).isSome = true) :
    (∀ check ∈ checks, check.libraryCheck.isSome = true) ∧ ∃ named, (sample named).isSome = true := by
  unfold structural at found
  split at found
  · cases found
  · obtain ⟨_, made⟩ := isSome_iff_exists.mp found
    obtain ⟨named, all, made⟩ := bind_eq_some_iff.mp made
    exact ⟨library_of_mapM all, named, isSome_of_eq_some made⟩

theorem zodSamples_isSome (found : (zodSamples zod schemas depth).isSome = true) :
    ∀ schema ∈ schemas, (zodSample zod schema depth).isSome = true := by
  induction schemas with
  | nil => nofun
  | cons schema _ step =>
    obtain ⟨_, made⟩ := isSome_iff_exists.mp found
    obtain ⟨_, first, made⟩ := bind_eq_some_iff.mp made
    obtain ⟨_, others, _⟩ := bind_eq_some_iff.mp made
    exact forall_mem_cons.mpr ⟨isSome_of_eq_some first, step (isSome_of_eq_some others)⟩

theorem sampleShape_isSome (found : (sampleShape zod shape depth).isSome = true) :
    ∀ field ∈ shape, (zodSample zod field.2 depth).isSome = true := by
  induction shape with
  | nil => nofun
  | cons field _ step =>
    obtain ⟨_, made⟩ := isSome_iff_exists.mp found
    obtain ⟨_, first, made⟩ := bind_eq_some_iff.mp made
    obtain ⟨_, others, _⟩ := bind_eq_some_iff.mp made
    exact forall_mem_cons.mpr ⟨isSome_of_eq_some first, step (isSome_of_eq_some others)⟩

theorem sample_silent (sampled : (zodSample zod schema depth).isSome = true) : Heard zod schema := by
  have checked {checks : List Check} {payload : Payload} {own : Prop}
      (library : ∀ check ∈ checks, check.libraryCheck.isSome = true)
      (quiet : payload.calls = [] ↔ own) :
      (runChecks zod checks payload).calls = [] ↔ own ∧ Unasked checks :=
    (runChecks_calls _ _).trans (and_congr quiet (quietChecks_library library _))
  induction schema using Schema.induct generalizing depth <;> intro value
  case intersection | map | set => cases sampled
  case leaf leaf checks =>
    obtain ⟨library, named, made⟩ := structural_isSome sampled
    have bare : leaf.calls = [] := by
      cases leaf with
      | custom | transform => cases made
      | _ => rfl
    refine (checked library (iff_of_true ?_ trivial)).trans (and_iff_right trivial)
    rw [Leaf.run]
    split
    · rw [own_calls, bare]
    · rfl
  case wrap wrapper inner checks step =>
    cases wrapper with
    | lazy => cases sampled
    | _ =>
      obtain ⟨library, _, made⟩ := structural_isSome sampled
      exact checked library (wrapper_calls (step made) _ value)
  case pipe input output checks step _ =>
    obtain ⟨library, _, made⟩ := structural_isSome sampled
    split at made
    · cases made
    · exact checked library ((pipe_calls ..).trans (and_congr_left' (step made value)))
  case union options checks step =>
    cases options with
    | nil =>
      obtain ⟨_, _, made⟩ := structural_isSome sampled
      cases made
    | cons option _ =>
      obtain ⟨library, _, made⟩ := structural_isSome sampled
      refine checked library (options_calls ?_ value)
      rintro _ ⟨rfl⟩
      exact step option mem_cons_self made
  case array element checks step =>
    obtain ⟨library, _, made⟩ := structural_isSome sampled
    refine checked library ?_
    obtain ⟨_, made⟩ := isSome_iff_exists.mp made
    obtain ⟨_, _, made⟩ := bind_eq_some_iff.mp made
    obtain ⟨_, item, _⟩ := bind_eq_some_iff.mp made
    cases value.items with
    | none => exact iff_of_true rfl (by simp)
    | some =>
      simp only [gather_calls, List.forall_mem_map, Option.some.injEq, forall_eq']
      exact forall₂_congr (fun _ _ => step (isSome_of_eq_some item) _)
  case tuple items rest checks step _ =>
    obtain ⟨library, _, made⟩ := structural_isSome sampled
    refine checked library ?_
    rw [isSome_map] at made
    have heard : ∀ item ∈ items, Heard zod item :=
      fun item member => step item member (zodSamples_isSome made item member)
    cases value.items with
    | none => exact iff_of_true rfl (by simp)
    | some =>
      simp only [some.injEq, forall_eq', fitsTuple]
      split
      · next wrong =>
        rw [wrong]
        exact iff_of_true rfl (by simp)
      · next right =>
        rw [Bool.not_eq_true] at right
        rw [gather_calls, forall_mem_append, items_calls heard, rest_calls, right]
        exact (imp_iff_right rfl).symm
  case record keyType valueType checks _ step =>
    obtain ⟨library, _, made⟩ := structural_isSome sampled
    refine checked library ?_
    rw [isSome_map] at made
    have heard : Heard zod valueType := step made
    cases value.properties with
    | none => exact iff_of_true rfl (by simp)
    | some object =>
      obtain ⟨brand, properties⟩ := object
      cases brand with
      | some => exact iff_of_true rfl (by simp)
      | none =>
        simp only [some.injEq, Prod.mk.injEq, true_and, forall_eq']
        cases zod.values keyType with
        | some =>
          simp only [gather_calls, List.forall_mem_append, List.forall_mem_map,
            present_calls heard, mem_filter, and_imp, heard _]
        | none =>
          simp only [gather_calls, List.forall_mem_map]
          refine forall₂_congr (fun property _ => ?_)
          rw [← heard, Schema.parse, output, Silent]
          split
          · exact (called_calls ..).trans (and_congr_right' (imp_iff_right rfl).symm)
          · rw [ended_calls]
            exact (and_iff_left (by simp)).symm
  case object shape catchall checks step _ =>
    obtain ⟨library, _, made⟩ := structural_isSome sampled
    refine checked library ?_
    split at made
    · rw [isSome_map] at made
      have heard : ∀ field ∈ shape, Heard zod field.2 :=
        fun field member => step field member (sampleShape_isSome made field member)
      cases value.properties with
      | none => exact iff_of_true rfl (by simp)
      | some object =>
        obtain ⟨brand, properties⟩ := object
        simp only [gather_calls, forall_mem_append, shape_calls heard, catchall_calls, mem_filter,
          decide_eq_true_eq, and_imp]
        constructor
        · intro quiet _ _ same
          cases same
          exact quiet
        · intro quiet
          exact quiet brand properties rfl
    · cases made

def WarmsQuietly (zod : Zod) (schema : Schema) : Prop :=
  (∀ node ∈ schema.nodes, zod.touched node = [] ∧
    (zodFailsFast node 0 = true → node.OnUndefined zod) ∧
    (emptied node = true → node.OnEmpty zod)) ∧
  ∀ sample, structuralSample zod schema = some sample → schema.OnSample zod sample

theorem guarded_calls {schema : Schema} {value : Value} {guard : Bool} {quiet : Prop}
    (silent : guard = true → (Silent zod schema value ↔ quiet)) :
    (if guard then (schema.run zod value).calls else []) = [] ↔ (guard = true → quiet) := by
  cases guard with
  | false => exact iff_of_true rfl nofun
  | true => exact (silent rfl).trans (imp_iff_right rfl).symm

theorem warmOne_calls (schema : Schema) : warmOne zod schema = [] ↔ WarmsQuietly zod schema := by
  rw [warmOne, append_eq_nil_iff, prepareSchema, flatMap_eq_nil_iff]
  refine and_congr (forall₂_congr (fun node _ => ?_)) ?_
  · rw [prepareNode, append_eq_nil_iff, append_eq_nil_iff, guarded_calls undefined_silent,
      guarded_calls empty_silent, and_assoc]
  cases found : structuralSample zod schema with
  | none => exact iff_of_true rfl nofun
  | some sample =>
    simp only [some.injEq, forall_eq']
    exact sample_silent (isSome_of_eq_some found) sample

/-- The warm-up of an application calls none of its callbacks just when every
schema it declares warms quietly. -/
theorem warm_runs_no_callback (zod : Zod) (workloads : List Declared) :
    warm zod workloads = [] ↔
      ∀ contracts ∈ workloads, ∀ schema ∈ contracts.schemas, WarmsQuietly zod schema := by
  rw [warm, flatMap_eq_nil_iff]
  refine forall₂_congr ?_
  intro contracts _
  rw [flatMap_eq_nil_iff]
  exact forall₂_congr (fun schema _ => warmOne_calls schema)

def mute : Zod where
  test _ _ := true
  toText _ := none
  toNumber _ := none
  toBigint _ := none
  truthy _ := true
  toDate _ := none
  isDate _ := false
  isSymbol _ := false
  isFile _ := false
  entries _ := none
  members _ := none
  merge _ _ := none
  values _ := none
  optin _ := false
  touched _ := []
  issues _ _ := []

def onlyBody (schema : Schema) : List Declared :=
  [⟨none, none, none, some schema, none, none, []⟩]

def refined (call : ℕ) : Check := ⟨.refinement call (fun _ => true), none, false⟩

/-- The refinement of `z.object({}).refine(f)` is called on `{}`, the transform of
`z.string().optional().transform(f)` on `undefined`, the refinement of
`z.string().pipe(z.string().refine(f))` on the sample. -/
theorem warm_runs_callbacks :
    warm mute (onlyBody (.object [] none [refined 1])) = [1] ∧
    warm mute (onlyBody (.pipe (.wrap .optional (.leaf (.string false none) []) [])
      (.leaf (.transform 2 some) []) [])) = [2] ∧
    warm mute (onlyBody (.pipe (.leaf (.string false none) [])
      (.leaf (.string false none) [refined 3]) [])) = [3] :=
  ⟨rfl, rfl, rfl⟩

end

end Usai.Schemas
