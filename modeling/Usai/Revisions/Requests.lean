import Usai.Admission.Budget
import Usai.Revisions.Tokens

/-! HTTP requests beside the runtime's calls. The pipeline reads the active
revision once, when a request arrives, and admits the request when its body is
complete; until then no count of the runtime includes it. -/

namespace Usai.Revisions

open List Option Transition

open Admission (BudgetExhausted)

inductive AdmissionError where
  | notActive (id : RevisionId) (state : RevisionState) (reason : String)
  | unknownWorkload (name : String)
  | admission (error : BudgetExhausted)
  deriving DecidableEq, Repr

def AdmissionError.text : AdmissionError → String
  | .notActive id state reason =>
    "revision rev" ++ toString id.val ++ " is " ++ state.text ++ ", " ++ reason
  | .unknownWorkload name => "unknown workload " ++ name
  | .admission error => error.budget ++ " budget exhausted (" ++ toString error.max ++ " in use)"

/-- `admit_in_flight`, with the write it makes. `budgets` is the answer of the
three budgets it tries in turn. -/
def Runtime.admitInFlight (runtime : Runtime) (id : RevisionId) (workload : String)
    (budgets : Except BudgetExhausted Unit) : Except AdmissionError Effect :=
  match runtime.arena.lookup id with
  | none => .error (.unknownWorkload workload)
  | some revision =>
    match revision.state with
    | .active | .draining =>
      if revision.definition.workloads.any (fun spec => spec.id == workload) then
        match budgets with
        | .ok () => .ok (.work id (revision.inFlight + 1))
        | .error full => .error (.admission full)
      else .error (.unknownWorkload workload)
    | state => .error (.notActive id state "not active or draining")

inductive RouteError where
  | invalidDefinition
  | notFound
  | methodNotAllowed
  | invalid (slot : String)
  | upgradeRequired
  deriving DecidableEq, Repr

inductive BodyError where
  | tooLarge
  | invalidJson
  | unsupportedMediaType
  | invalid (slot : String)
  deriving DecidableEq, Repr

inductive Refusal where
  | noActiveRevision
  | route (error : RouteError)
  | body (error : BodyError)
  | admission (socket : Bool) (error : AdmissionError)
  deriving DecidableEq, Repr

/-- The status and the code of the reply. Only the socket's upgrade does not
tell a state apart from other failures. -/
def Refusal.reply : Refusal → Nat × String
  | .noActiveRevision => (503, "no_active_revision")
  | .route .invalidDefinition => (500, "invalid_definition")
  | .route .notFound => (404, "route_not_found")
  | .route .methodNotAllowed => (405, "method_not_allowed")
  | .route (.invalid _) | .body (.invalid _) => (400, "validation_failed")
  | .route .upgradeRequired => (426, "upgrade_required")
  | .body .tooLarge => (413, "payload_too_large")
  | .body .invalidJson => (400, "invalid_json")
  | .body .unsupportedMediaType => (415, "unsupported_media_type")
  | .admission _ (.admission _) => (503, "capacity_exhausted")
  | .admission true _ => (503, "admission_failed")
  | .admission false (.notActive _ _ _) => (503, "revision_draining")
  | .admission false (.unknownWorkload _) => (500, "admission_failed")

def Refusal.byState : Refusal → Bool
  | .admission _ (.notActive _ _ _) => true
  | _ => false

inductive Answer where
  | surface
  | served (id : RevisionId)
  | refused (refusal : Refusal)
  deriving DecidableEq, Repr

inductive Request where
  | waiting (id : RevisionId) (workload : String)
  | answered (id : Option RevisionId) (answer : Answer)
  | dropped
  deriving DecidableEq, Repr

inductive Routed where
  | surface
  | refused (error : RouteError)
  | socket (workload : String) (budgets : Except BudgetExhausted Unit)
  | handler (workload : String)

namespace Runtime

def admitRequest (runtime : Runtime) (socket : Bool) (id : RevisionId) (workload : String)
    (budgets : Except BudgetExhausted Unit) : Effect × Request :=
  match runtime.admitInFlight id workload budgets with
  | .ok effect => (effect, .answered (some id) (.served id))
  | .error error => (.none, .answered (some id) (.refused (.admission socket error)))

/-- The pipeline up to the await of the body. A socket has no body and is
admitted at once. -/
def arrive (runtime : Runtime) (routed : Routed) : Effect × Request :=
  match runtime.activeRevision with
  | none => (.none, .answered none (.refused .noActiveRevision))
  | some (id, _) =>
    match routed with
    | .surface => (.none, .answered (some id) .surface)
    | .refused error => (.none, .answered (some id) (.refused (.route error)))
    | .socket workload budgets => runtime.admitRequest true id workload budgets
    | .handler workload => (.none, .waiting id workload)

def complete (runtime : Runtime) (id : RevisionId) (workload : String)
    (body : Except BodyError Unit) (budgets : Except BudgetExhausted Unit) : Effect × Request :=
  match body with
  | .error error => (.none, .answered (some id) (.refused (.body error)))
  | .ok () => runtime.admitRequest false id workload budgets

end Runtime

structure Front where
  system : System
  requests : List Request

def Front.new (config : Config) : Front := ⟨System.new config, []⟩

inductive Event where
  | call (label : Label)
  | arrive (routed : Routed)
  | complete (index : Nat) (body : Except BodyError Unit) (budgets : Except BudgetExhausted Unit)
  | disconnect (index : Nat)

namespace Front

def write (front : Front) (effect : Effect) (requests : List Request) : Front :=
  ⟨{ front.system with runtime := effect.apply front.system.runtime }, requests⟩

def step (front : Front) : Event → Option Front
  | .call label => (front.system.step label).map (fun system => ⟨system, front.requests⟩)
  | .arrive routed =>
    let (effect, request) := front.system.runtime.arrive routed
    some (front.write effect (front.requests ++ [request]))
  | .complete index body budgets =>
    match front.requests[index]? with
    | some (.waiting id workload) =>
      let (effect, request) := front.system.runtime.complete id workload body budgets
      some (front.write effect (front.requests.set index request))
    | _ => none
  | .disconnect index =>
    match front.requests[index]? with
    | some (.waiting _ _) => some (front.write .none (front.requests.set index .dropped))
    | _ => none

end Front

/-- Served by the revision it was routed by, or answered with an error that has
another ground than the revision's state. -/
def Request.Fair : Request → Prop
  | .answered id (.served server) => id = some server
  | .answered _ (.refused refusal) => refusal.byState = false
  | _ => True

theorem refused_fair {id : Option RevisionId} :
    (Request.answered id (.refused refusal)).Fair ↔ refusal.byState = false := Iff.rfl

def Fair (front : Front) : Prop := ∀ request ∈ front.requests, request.Fair

def Request.waitsOn : Request → Option RevisionId
  | .waiting id _ => some id
  | _ => none

/-- No retirement ends while a request that the revision routed still waits for
its body. -/
def Spares (front : Front) : Event → Prop
  | .call label =>
    match front.system.effectOf label with
    | .retire id => ∀ request ∈ front.requests, request.waitsOn ≠ some id
    | _ => True
  | _ => True

instance (front : Front) (event : Event) : Decidable (Spares front event) := by
  unfold Spares
  repeat' split
  all_goals infer_instance

variable {id : RevisionId} {front next : Front} {label : Label} {runtime : Runtime}
  {effect : Effect} {system : System} {calls : List Call} {event : Event}

theorem waitsOn_eq_some {request : Request} :
    request.waitsOn = some id ↔ ∃ workload, request = .waiting id workload := by
  cases request <;> simp [Request.waitsOn]

theorem spares_retire (retires : front.system.effectOf label = .retire id) :
    Spares front (.call label) ↔ ∀ workload, Request.waiting id workload ∉ front.requests := by
  simp only [Spares, retires]
  constructor
  · intro spares workload member
    exact spares _ member rfl
  · intro absent request member waits
    obtain ⟨workload, rfl⟩ := waitsOn_eq_some.mp waits
    exact absent workload member

section

variable {runtime : Runtime}

variable {id : RevisionId}

theorem apply_recorded (effect : Effect) (found : runtime.stateOf id = some state) :
    ∃ after, (effect.apply runtime).stateOf id = some after := by
  have parts : KeptByParts (fun runtime => ∃ revision, runtime.arena.lookup id = some revision) :=
    { state := fun _ target state =>
        Wellformed.recorded_of_absent (Wellformed.setState_absent target id state)
      schedulers := by
        rintro runtime target ⟨revision, present⟩
        have known : runtime.stateOf id = some revision.state := by
          rw [Runtime.stateOf, present, map_some]
        rw [← (Runtime.startSchedulers_started runtime target).states id, Runtime.stateOf,
          map_eq_some_iff] at known
        obtain ⟨after, still, _⟩ := known
        exact ⟨after, still⟩
      active := fun _ _ recorded => recorded
      services := fun _ _ recorded => recorded
      held := fun _ _ recorded => recorded
      work := fun _ target count =>
        Wellformed.recorded_of_absent (Wellformed.work_absent target id count) }
  rw [Runtime.stateOf, map_eq_some_iff] at found
  obtain ⟨revision, present, _⟩ := found
  have inserted : ∀ definition, ∃ revision,
      (runtime.insertRevision definition).arena.lookup id = some revision := by
    intro definition
    rw [Runtime.insertRevision_lookup]
    split
    · exact ⟨_, rfl⟩
    · exact ⟨revision, present⟩
  obtain ⟨after, still⟩ := parts.apply ⟨revision, present⟩ inserted effect
  exact ⟨after.state, by rw [Runtime.stateOf, still, map_some]⟩

theorem active_of_apply (effect : Effect) (active : (effect.apply runtime).active = some id) :
    runtime.active = some id ∨ effect = .swap id := by
  cases effect with
  | swap =>
    cases active
    exact .inr rfl
  | beginDrain =>
    rw [Effect.apply, Runtime.beginDrain_active] at active
    split at active
    · cases active
    · exact .inl active
  | _ => exact .inl ((apply_active runtime _ (by simp) (by simp)).symm.trans active)

theorem apply_held_cases (effect : Effect) :
    (∃ definition, effect = .insertRevision definition ∧ definition.schedulesValid = true ∧
      (effect.apply runtime).held = runtime.held ++ [⟨runtime.nextRevision⟩]) ∨
      (effect.apply runtime).held.Sublist runtime.held := by
  cases effect with
  | insertRevision definition =>
    rw [Effect.apply, Runtime.insertRevision_held]
    split
    · rename_i valid
      exact .inl ⟨definition, rfl, valid, rfl⟩
    · exact .inr (List.Sublist.refl _)
  | swap => exact .inr (by rw [Effect.apply, Runtime.swap, Runtime.setState_held])
  | finishActivation =>
    exact .inr (by rw [Effect.apply, Runtime.finishActivation_held])
  | beginDrain => exact .inr (by rw [Effect.apply, Runtime.beginDrain_held])
  | retire =>
    right
    simp only [Effect.apply, Runtime.retire, Runtime.unhold, Runtime.setState_held]
    exact filter_sublist
  | unhold => exact .inr filter_sublist
  | none | stopServices | work => exact .inr (List.Sublist.refl _)

theorem apply_held (effect : Effect) (member : id ∈ (effect.apply runtime).held) :
    (id ∈ runtime.held ∧ effect ≠ .retire id) ∨
      (effect.apply runtime).stateOf id = some .installed := by
  rcases apply_held_cases effect with ⟨_, rfl, valid, grown⟩ | shrunk
  · rw [grown, mem_append, mem_singleton] at member
    rcases member with old | rfl
    · exact .inl ⟨old, by simp⟩
    · right
      rw [Effect.apply, Runtime.insertRevision_stateOf, if_pos ⟨rfl, valid⟩]
  · refine .inl ⟨shrunk.subset member, ?_⟩
    rintro rfl
    simp [Effect.apply, Runtime.retire, Runtime.unhold] at member

end

/-- What holds of the runtime in every interleaving and lets the pipeline rely
on the pointer: a revision it finds there has been swapped in and is not
retired. -/
structure Pointing (system : System) : Prop where
  wellformed : Wellformed system.runtime
  bound : ∀ id, Call.binding id ∈ system.calls → ∃ state, system.runtime.stateOf id = some state
  pointed : ∀ id, system.runtime.active = some id →
    ∃ state, system.runtime.stateOf id = some state ∧ state ≠ .installed
  held : ∀ id ∈ system.runtime.held, system.runtime.stateOf id ≠ some .retired

theorem new_pointing (config : Config) : Pointing (System.new config) where
  wellformed := Wellformed.new config
  bound := by intro id member; cases member
  pointed := by intro id named; cases named
  held := by intro id member; cases member

theorem segment_binding (segment : Segment system label effect calls)
    (member : Call.binding id ∈ calls) :
    Call.binding id ∈ system.calls ∨ ∃ state, system.runtime.stateOf id = some state := by
  cases segment with
  | begins _ _ _ begun =>
    rw [mem_append, mem_singleton] at member
    rcases member with old | new
    · exact .inl old
    · subst new
      cases begins_awaits begun with
      | binding found _ => exact .inr ⟨_, stateOf_of_revision found⟩
  | resumes _ _ _ _ _ _ resumed =>
    rw [mem_append] at member
    rcases member with changed | spawned
    · rcases mem_or_eq_of_mem_set changed with old | new
      · exact .inl old
      · cases resumed with
        | retirementBegun _ _ _ _ waits => rcases waits with rfl | rfl <;> cases new
        | _ => cases new
    · obtain ⟨_, _, _, _, _, impossible⟩ := mem_spawned spawned
      cases impossible
  | works => exact .inl member

theorem swap_recorded
    (segment : Segment system label (.swap id) calls) (pointing : Pointing system) :
    ∃ state, system.runtime.stateOf id = some state := by
  cases segment with
  | begins _ _ _ begun => cases begun
  | resumes _ _ _ _ _ suspended resumed =>
    cases resumed with
    | swapped => exact pointing.bound id (mem_of_getElem? suspended)

def Runtime.accepts (runtime : Runtime) (id : RevisionId) : Prop :=
  runtime.stateOf id = some .active ∨ runtime.stateOf id = some .draining

inductive Admits (runtime : Runtime) (id : RevisionId) : Except AdmissionError Effect → Prop where
  | counted (count : Nat) : Admits runtime id (.ok (.work id count))
  | unknown (workload : String) : Admits runtime id (.error (.unknownWorkload workload))
  | full (error : BudgetExhausted) : Admits runtime id (.error (.admission error))
  | left (state : RevisionState) (reason : String) (closed : ¬ runtime.accepts id) :
      Admits runtime id (.error (.notActive id state reason))

theorem admitInFlight_admits (runtime : Runtime) (id : RevisionId) (workload : String)
    (budgets : Except BudgetExhausted Unit) :
    Admits runtime id (runtime.admitInFlight id workload budgets) := by
  unfold Runtime.admitInFlight
  cases found : runtime.arena.lookup id with
  | none => exact .unknown workload
  | some revision =>
    have known : runtime.stateOf id = some revision.state := by
      rw [Runtime.stateOf, found, map_some]
    have tried : Admits runtime id
        (if revision.definition.workloads.any (fun spec => spec.id == workload) then
          match budgets with
          | .ok () => .ok (.work id (revision.inFlight + 1))
          | .error full => .error (.admission full)
        else .error (.unknownWorkload workload)) := by
      split
      · cases budgets with
        | ok => exact .counted _
        | error error => exact .full error
      · exact .unknown workload
    cases state : revision.state with
    | active | draining => simpa only [state] using tried
    | installed | retired =>
      rw [state] at known
      have closed : ¬ runtime.accepts id := by simp [Runtime.accepts, known]
      simpa only [state] using Admits.left _ _ closed

def Effect.counts (effect : Effect) : Prop := effect = .none ∨ ∃ id count, effect = .work id count

/-- What an admission makes of a request: it never waits again, its write only
counts, and an accepting revision answers it fairly. -/
structure Settles (runtime : Runtime) (id : RevisionId) (next : Effect × Request) : Prop where
  counts : next.1.counts
  settled : ∀ other workload, next.2 ≠ .waiting other workload
  fair : runtime.accepts id → next.2.Fair

theorem admitRequest_settles (runtime : Runtime) (socket : Bool) (id : RevisionId)
    (workload : String) (budgets : Except BudgetExhausted Unit) :
    Settles runtime id (runtime.admitRequest socket id workload budgets) := by
  have admits := admitInFlight_admits runtime id workload budgets
  unfold Runtime.admitRequest
  cases answer : runtime.admitInFlight id workload budgets with
  | ok =>
    rw [answer] at admits
    cases admits with
    | counted count =>
      exact ⟨.inr ⟨id, count, rfl⟩, fun _ _ clash => (nomatch clash), fun _ => rfl⟩
  | error =>
    rw [answer] at admits
    refine ⟨.inl rfl, fun _ _ clash => (nomatch clash), ?_⟩
    intro accepts
    cases admits with
    | unknown | full => exact refused_fair.mpr rfl
    | left _ _ closed => exact absurd accepts closed

theorem complete_settles (runtime : Runtime) (id : RevisionId) (workload : String)
    (body : Except BodyError Unit) (budgets : Except BudgetExhausted Unit) :
    Settles runtime id (runtime.complete id workload body budgets) := by
  cases body with
  | error =>
    exact ⟨.inl rfl, fun _ _ clash => (nomatch clash),
      fun _ => refused_fair.mpr rfl⟩
  | ok => exact admitRequest_settles runtime false id workload budgets

theorem apply_accepts (wellformed : Wellformed runtime) (effect : Effect)
    (accepts : runtime.accepts id) (spared : effect ≠ .retire id) :
    (effect.apply runtime).accepts id := by
  have known : ∃ state, runtime.stateOf id = some state ∧ (state = .active ∨ state = .draining) := by
    rcases accepts with active | draining
    · exact ⟨.active, active, .inl rfl⟩
    · exact ⟨.draining, draining, .inr rfl⟩
  obtain ⟨_, found, open'⟩ := known
  obtain ⟨after, now⟩ := apply_recorded effect found
  cases after with
  | active => exact .inl now
  | draining => exact .inr now
  | retired =>
    rcases apply_becomes_retired effect now with before | retires
    · rw [found, some.injEq] at before
      rcases open' with rfl | rfl <;> cases before
    · exact absurd retires spared
  | installed =>
    rcases apply_stateOf effect now with before | ⟨leaving, _⟩ | ⟨clash, _⟩ | ⟨_, _, _, fresh, _⟩
    · rw [found, some.injEq] at before
      rcases open' with rfl | rfl <;> cases before
    · cases leaving
    · cases clash
    · rw [Runtime.stateOf, wellformed.fresh id (by rw [fresh])] at found
      cases found

section

variable (pointing : Pointing system)
include pointing

theorem apply_pointing (effect : Effect)
    (recorded : ∀ id, effect = .swap id → ∃ state, system.runtime.stateOf id = some state)
    (bound : ∀ id, Call.binding id ∈ calls →
      Call.binding id ∈ system.calls ∨ ∃ state, system.runtime.stateOf id = some state) :
    Pointing ⟨effect.apply system.runtime, calls⟩ where
  wellformed := pointing.wellformed.apply effect
  bound := by
    intro id member
    have known : ∃ state, system.runtime.stateOf id = some state := by
      rcases bound id member with old | found
      · exact pointing.bound id old
      · exact found
    obtain ⟨state, found⟩ := known
    exact apply_recorded effect found
  pointed := by
    intro id named
    rcases active_of_apply effect named with before | rfl
    · obtain ⟨state, found, different⟩ := pointing.pointed id before
      obtain ⟨after, now⟩ := apply_recorded effect found
      refine ⟨after, now, ?_⟩
      rintro rfl
      rcases apply_stateOf effect now with same | ⟨leaving, _⟩ | ⟨clash, _⟩ | ⟨_, _, _, fresh, _⟩
      · rw [found, some.injEq] at same
        exact different same
      · cases leaving
      · cases clash
      · rw [Runtime.stateOf, pointing.wellformed.fresh id (by rw [fresh])] at found
        cases found
    · obtain ⟨_, found⟩ := recorded id rfl
      refine ⟨.active, ?_, by decide⟩
      have swapped := Runtime.setState_stateOf system.runtime id id .active
      rw [if_pos rfl, found] at swapped
      exact swapped
  held := by
    intro id member retired
    rcases apply_held effect member with ⟨before, other⟩ | installed
    · rcases apply_becomes_retired effect retired with was | retires
      · exact pointing.held id before was
      · exact other retires
    · exact absurd (installed.symm.trans retired) (by decide)

theorem step_pointing {next : System} (taken : system.step label = some next) : Pointing next := by
  obtain ⟨segment, written⟩ := step_inversion taken
  have after := apply_pointing pointing (system.effectOf label)
    (fun id swaps => swap_recorded (swaps ▸ segment) pointing)
    (fun id member => segment_binding segment member)
  rw [← written] at after
  exact after

theorem pointing_accepts (found : system.runtime.activeRevision = some (id, revision)) :
    system.runtime.accepts id := by
  simp only [Runtime.activeRevision, bind_eq_some_iff, map_eq_some_iff,
    Prod.mk.injEq] at found
  obtain ⟨target, named, _, present, rfl, rfl⟩ := found
  obtain ⟨state, known, swapped⟩ := pointing.pointed target named
  have holds : target ∈ system.runtime.held := by
    by_contra absent
    rw [Runtime.revision, if_neg absent] at present
    cases present
  have kept := pointing.held target holds
  cases state with
  | installed => exact absurd rfl swapped
  | active => exact .inl known
  | draining => exact .inr known
  | retired => exact absurd known kept

theorem arrive_spec (routed : Routed) :
    (system.runtime.arrive routed).1.counts ∧
    (system.runtime.arrive routed).2.Fair ∧
    ∀ id workload, (system.runtime.arrive routed).2 = .waiting id workload →
      system.runtime.accepts id := by
  unfold Runtime.arrive
  cases found : system.runtime.activeRevision with
  | none => exact ⟨.inl rfl, refused_fair.mpr rfl, fun _ _ clash => (nomatch clash)⟩
  | some pair =>
    obtain ⟨id, _⟩ := pair
    have accepts := pointing_accepts pointing found
    cases routed with
    | surface => exact ⟨.inl rfl, trivial, fun _ _ clash => (nomatch clash)⟩
    | refused => exact ⟨.inl rfl, refused_fair.mpr rfl, fun _ _ clash => (nomatch clash)⟩
    | handler =>
      refine ⟨.inl rfl, trivial, ?_⟩
      intro other name same
      cases same
      exact accepts
    | socket workload budgets =>
      have settles := admitRequest_settles system.runtime true id workload budgets
      exact ⟨settles.counts, settles.fair accepts,
        fun other name same => absurd same (settles.settled other name)⟩

theorem counts_pointing (counts : effect.counts) :
    Pointing { system with runtime := effect.apply system.runtime } := by
  apply apply_pointing pointing effect
  · rintro id rfl
    rcases counts with clash | ⟨_, _, clash⟩ <;> cases clash
  · exact fun id member => .inl member

end

/-- Every step the front can take: a call of the runtime, or a write that only
counts beside one request that is new or was waiting. -/
inductive Moves (front : Front) : Event → Front → Prop where
  | called (label : Label) (system : System) (taken : front.system.step label = some system) :
      Moves front (.call label) ⟨system, front.requests⟩
  | arrived (routed : Routed) :
      Moves front (.arrive routed)
        (front.write (front.system.runtime.arrive routed).1
          (front.requests ++ [(front.system.runtime.arrive routed).2]))
  | completed (index : Nat) (body : Except BodyError Unit) (budgets : Except BudgetExhausted Unit)
      (id : RevisionId) (workload : String)
      (waits : front.requests[index]? = some (.waiting id workload)) :
      Moves front (.complete index body budgets)
        (front.write (front.system.runtime.complete id workload body budgets).1
          (front.requests.set index (front.system.runtime.complete id workload body budgets).2))
  | disconnected (index : Nat) :
      Moves front (.disconnect index) (front.write .none (front.requests.set index .dropped))

theorem front_inversion (taken : front.step event = some next) : Moves front event next := by
  cases event with
  | call label =>
    rw [Front.step, map_eq_some_iff] at taken
    obtain ⟨system, stepped, rfl⟩ := taken
    exact .called label system stepped
  | arrive routed =>
    cases taken
    exact .arrived routed
  | complete index body budgets =>
    simp only [Front.step] at taken
    split at taken <;> cases taken
    rename_i id workload waits
    exact .completed index body budgets id workload waits
  | disconnect index =>
    simp only [Front.step] at taken
    split at taken <;> cases taken
    exact .disconnected index

theorem front_pointing (pointing : Pointing front.system)
    (taken : front.step event = some next) : Pointing next.system := by
  cases front_inversion taken with
  | called _ _ stepped => exact step_pointing pointing stepped
  | arrived routed => exact counts_pointing pointing (arrive_spec pointing routed).1
  | completed _ body budgets id workload _ =>
    exact counts_pointing pointing (complete_settles _ id workload body budgets).counts
  | disconnected => exact counts_pointing pointing (.inl rfl)

theorem front_waiting (pointing : Pointing front.system) (taken : front.step event = some next) :
    ∃ effect : Effect, next.system.runtime = effect.apply front.system.runtime ∧
      (effect.counts ∨ ∃ label, event = .call label ∧ effect = front.system.effectOf label) ∧
      ∀ id workload, Request.waiting id workload ∈ next.requests →
        Request.waiting id workload ∈ front.requests ∨ front.system.runtime.accepts id := by
  cases front_inversion taken with
  | called label _ stepped =>
    exact ⟨_, (step_inversion stepped).2, .inr ⟨label, rfl, rfl⟩,
      fun id workload member => .inl member⟩
  | arrived routed =>
    obtain ⟨counts, _, waits⟩ := arrive_spec pointing routed
    refine ⟨_, rfl, .inl counts, ?_⟩
    intro id workload member
    rw [Front.write, mem_append, mem_singleton] at member
    rcases member with old | new
    · exact .inl old
    · exact .inr (waits id workload new.symm)
  | completed _ body budgets id workload _ =>
    have settles := complete_settles front.system.runtime id workload body budgets
    refine ⟨_, rfl, .inl settles.counts, ?_⟩
    intro other name member
    rcases mem_or_eq_of_mem_set member with old | new
    · exact .inl old
    · exact absurd new.symm (settles.settled other name)
  | disconnected =>
    refine ⟨_, rfl, .inl (.inl rfl), ?_⟩
    intro id workload member
    rcases mem_or_eq_of_mem_set member with old | new
    · exact .inl old
    · cases new

structure Known (front : Front) : Prop where
  pointing : Pointing front.system
  recorded : ∀ id workload, Request.waiting id workload ∈ front.requests →
    ∃ state, front.system.runtime.stateOf id = some state

theorem new_known (config : Config) : Known (Front.new config) where
  pointing := new_pointing config
  recorded := by intro id workload member; cases member

theorem step_known (front : Front) (event : Event) (next : Front) (known : Known front)
    (taken : front.step event = some next) : Known next := by
  refine ⟨front_pointing known.pointing taken, ?_⟩
  intro id workload member
  obtain ⟨effect, written, _, waits⟩ := front_waiting known.pointing taken
  rw [written]
  rcases waits id workload member with old | active | draining
  · obtain ⟨_, found⟩ := known.recorded id workload old
    exact apply_recorded effect found
  · exact apply_recorded effect active
  · exact apply_recorded effect draining

/-- The requests that wait do so on revisions that would admit them now, and
the answered ones were answered fairly. -/
structure Welcoming (front : Front) : Prop where
  pointing : Pointing front.system
  accepts : ∀ id workload, Request.waiting id workload ∈ front.requests →
    front.system.runtime.accepts id
  fair : Fair front

theorem new_welcoming (config : Config) : Welcoming (Front.new config) where
  pointing := new_pointing config
  accepts := by intro id workload member; cases member
  fair := by intro request member; cases member

theorem step_fair (welcoming : Welcoming front)
    (taken : front.step event = some next) : Fair next := by
  intro request member
  cases front_inversion taken with
  | called => exact welcoming.fair request member
  | arrived routed =>
    rw [Front.write, mem_append, mem_singleton] at member
    rcases member with old | rfl
    · exact welcoming.fair request old
    · exact (arrive_spec welcoming.pointing routed).2.1
  | completed _ body budgets id workload waits =>
    rcases mem_or_eq_of_mem_set member with old | rfl
    · exact welcoming.fair request old
    · apply (complete_settles _ id workload body budgets).fair
      exact welcoming.accepts id workload (mem_of_getElem? waits)
  | disconnected =>
    rcases mem_or_eq_of_mem_set member with old | rfl
    · exact welcoming.fair request old
    · trivial

theorem step_welcoming (front : Front) (event : Event) (next : Front)
    (welcoming : Welcoming front) (spares : Spares front event)
    (taken : front.step event = some next) : Welcoming next := by
  refine ⟨front_pointing welcoming.pointing taken, ?_, step_fair welcoming taken⟩
  intro id workload member
  obtain ⟨effect, written, origin, waits⟩ := front_waiting welcoming.pointing taken
  have accepted : front.system.runtime.accepts id := by
    rcases waits id workload member with old | accepts
    · exact welcoming.accepts id workload old
    · exact accepts
  rw [written]
  apply apply_accepts welcoming.pointing.wellformed effect accepted
  rintro rfl
  rcases origin with (clash | ⟨_, _, clash⟩) | ⟨_, rfl, retires⟩
  · cases clash
  · cases clash
  · -- a call leaves the requests as they are, so the one that waits was there before
    have requests : next.requests = front.requests := by
      cases front_inversion taken with
      | called => rfl
    exact (spares_retire retires.symm).mp spares workload (requests ▸ member)

theorem unspared_refused (known : Known front)
    (taken : front.step event = some next) (unspared : ¬ Spares front event) :
    ∃ index later, next.step (.complete index (.ok ()) (.ok ())) = some later ∧ ¬ Fair later := by
  cases front_inversion taken with
  | called label system stepped =>
    have retires : ∃ id, front.system.effectOf label = .retire id := by
      cases writes : front.system.effectOf label with
      | retire id => exact ⟨id, rfl⟩
      | _ => exact absurd (by simp only [Spares, writes]) unspared
    obtain ⟨id, retires⟩ := retires
    rw [spares_retire retires] at unspared
    simp only [not_forall, not_not] at unspared
    obtain ⟨workload, member⟩ := unspared
    obtain ⟨index, waits⟩ := getElem?_of_mem member
    have retired : system.runtime.stateOf id = some .retired := by
      obtain ⟨_, found⟩ := known.recorded id workload member
      have changed := Runtime.setState_stateOf front.system.runtime id id .retired
      rw [if_pos rfl, found] at changed
      rw [(step_inversion stepped).2, retires]
      exact changed
    have refused : system.runtime.complete id workload (.ok ()) (.ok ()) =
        (.none, .answered (some id)
          (.refused (.admission false (.notActive id .retired "not active or draining")))) := by
      obtain ⟨_, found, state⟩ := map_eq_some_iff.mp retired
      simp only [Runtime.complete, Runtime.admitRequest, Runtime.admitInFlight, found, state]
    refine ⟨index, _, by simp only [Front.step, waits, refused]; rfl, ?_⟩
    intro fair
    have unfair := fair _ (List.mem_set (List.getElem?_eq_some_iff.mp waits).1 _)
    cases refused_fair.mp unfair
  | arrived | completed | disconnected => exact absurd trivial unspared

/-- From the empty runtime: requests are answered fairly in every run in which
no revision is retired under a request it routed; and a retirement that does
not wait for such a request can always be followed by its refusal. -/
theorem requests_survive_swap (config : Config) (events : List Event) :
    (Transition.Meets Front.step Spares (Front.new config) events →
      Transition.Along Front.step Fair (Front.new config) events) ∧
    ∀ front event next, Transition.exec Front.step (Front.new config) events = some front →
      front.step event = some next → ¬ Spares front event →
        ∃ index later, next.step (.complete index (.ok ()) (.ok ())) = some later ∧
          ¬ Fair later := by
  constructor
  · intro meets
    exact along_imp (fun _ welcoming => welcoming.fair)
      (along_of_meets step_welcoming (new_welcoming config) meets)
  · intro front event next reached taken unspared
    have known := along_reached
      (along_of_meets (fun front event next known _ taken =>
        step_known front event next known taken) (new_known config)
        (meets_true (Front.new config) events)) reached
    exact unspared_refused known taken unspared

def uploads : Definition := ⟨"app", [⟨"http:POST /upload", .http, none⟩], true⟩

def requestThenSwap : List Event :=
  [.call (.install uploads), .call (.resume 0 .done),
   .call (.activate ⟨1⟩), .call (.resume 1 .done), .call (.resume 1 .done),
   .arrive (.handler "http:POST /upload"),
   .call (.install uploads), .call (.resume 2 .done),
   .call (.activate ⟨2⟩), .call (.resume 3 .done), .call (.resume 3 .done)]

def retirement : List Event := [.call (.resume 4 .done), .call (.resume 4 .done)]

/-- The body arrives before the first revision is retired, and the retirement
waits for the request; or it arrives after. -/
theorem requests_survive_swap_uploads :
    Transition.Along Front.step Fair (Front.new ⟨4, false, false, false⟩)
      (requestThenSwap ++ [.complete 0 (.ok ()) (.ok ()), .call (.work ⟨1⟩ 0)] ++ retirement) ∧
    ∃ front next, Transition.exec Front.step (Front.new ⟨4, false, false, false⟩)
        (requestThenSwap ++ [.call (.resume 4 .done)]) = some front ∧
      front.step (.call (.resume 4 .done)) = some next ∧
      ∃ index later, next.step (.complete index (.ok ()) (.ok ())) = some later ∧ ¬ Fair later := by
  constructor
  · exact (requests_survive_swap _ _).1 (by decide)
  · have early : ∃ front next, exec Front.step (Front.new ⟨4, false, false, false⟩)
          (requestThenSwap ++ [.call (.resume 4 .done)]) = some front ∧
        front.step (.call (.resume 4 .done)) = some next ∧
        ¬ Spares front (.call (.resume 4 .done)) := by
      refine ⟨_, _, rfl, rfl, ?_⟩
      decide
    obtain ⟨front, next, reached, taken, unspared⟩ := early
    exact ⟨front, next, reached, taken,
      (requests_survive_swap _ _).2 front _ next reached taken unspared⟩

/-- The request was routed by the active revision; when its body is complete
the revision is retired, and the reply says so. -/
theorem request_refused_after_swap :
    ∃ arrived final,
      Transition.exec Front.step (Front.new ⟨4, false, false, false⟩)
        (requestThenSwap.take 6) = some arrived ∧
      arrived.system.runtime.active = some ⟨1⟩ ∧
      arrived.requests = [.waiting ⟨1⟩ "http:POST /upload"] ∧
      Transition.exec Front.step (Front.new ⟨4, false, false, false⟩)
        (requestThenSwap ++ retirement ++ [.complete 0 (.ok ()) (.ok ())]) = some final ∧
      final.requests = [.answered (some ⟨1⟩) (.refused
        (.admission false (.notActive ⟨1⟩ .retired "not active or draining")))] ∧
      (Refusal.admission false (.notActive ⟨1⟩ .retired "not active or draining")).reply =
        (503, "revision_draining") ∧
      ¬ Fair final := by
  refine ⟨_, _, rfl, rfl, rfl, rfl, rfl, rfl, ?_⟩
  intro fair
  have unfair := fair _ (mem_singleton.mpr rfl)
  cases refused_fair.mp unfair

end Usai.Revisions
