import Usai.Revisions.Requests

/-! Installs through the control API. The handler looks for an installed revision of the
same identity, and `install` looks at the number of revisions; both go on to a
compilation, and the revision is inserted when that has ended. -/

namespace Usai.Revisions

open List Option Transition

-- The identity of an artifact is a hash of its content.
variable {Identity : Type} (identity : Definition → Identity)

def Runtime.Offers (runtime : Runtime) (id : RevisionId) (definition : Definition) : Prop :=
  id ∈ runtime.held ∧ runtime.stateOf id = some .installed ∧
    runtime.definitionOf id = some definition

def Runtime.present [DecidableEq Identity] (runtime : Runtime) (definition : Definition) : Bool :=
  runtime.held.any fun id => runtime.stateOf id == some .installed &&
    (runtime.definitionOf id).map identity == some (identity definition)

def System.Compiles (system : System) (index : Nat) (definition : Definition) : Prop :=
  system.calls[index]? = some (.compiling definition)

inductive Posted where
  /-- `POST /revisions`, once the artifact is loaded: nothing awaits from there to the
  compilation. -/
  | install (ifAbsent : Bool) (definition : Definition)
  | other (label : Label)

/-- `absent` are the positions of the installs with `ifAbsent` that went on to a
compilation. -/
structure Control extends System where
  absent : List Nat

namespace Control

def new (config : Config) : Control := ⟨System.new config, []⟩

def step [DecidableEq Identity] (control : Control) : Posted → Option Control
  | .install ifAbsent definition =>
    if ifAbsent && control.runtime.present identity definition then some control
    else
      (control.toSystem.step (.install definition)).map fun system =>
        ⟨system, if ifAbsent then control.calls.length :: control.absent else control.absent⟩
  | .other label => (control.toSystem.step label).map fun system => ⟨system, control.absent⟩

def Bounded (control : Control) : Prop :=
  control.runtime.held.length ≤ control.runtime.config.maxRevisions

/-- An install with `ifAbsent` inserts a revision only if none of its identity is
installed, so that of two at most one does. -/
def First (control : Control) : Posted → Prop
  | .other (.resume index wakeup) => index ∈ control.absent → ∀ definition,
      control.effectOf (.resume index wakeup) = .insertRevision definition → ∀ id other,
        control.runtime.Offers id other → identity other ≠ identity definition
  | _ => True

/-- A revision that is inserted while others compile leaves room for each of them, and has
not the identity of one that is for `ifAbsent`. -/
def Apart (control : Control) : Posted → Prop
  | .other (.resume index wakeup) => ∀ definition,
      control.effectOf (.resume index wakeup) = .insertRevision definition →
        ∀ other two, other ≠ index → control.Compiles other two →
          control.runtime.held.length + 1 < control.runtime.config.maxRevisions ∧
            (other ∈ control.absent → identity two ≠ identity definition)
  | _ => True

end Control

section

variable {runtime : Runtime}

theorem apply_offers (wellformed : Wellformed runtime) (effect : Effect) {id : RevisionId}
    {definition : Definition} (offers : (effect.apply runtime).Offers id definition) :
    runtime.Offers id definition ∨
      effect = .insertRevision definition ∧ id = ⟨runtime.nextRevision⟩ := by
  obtain ⟨member, state, found⟩ := offers
  rcases apply_stateOf effect state with before | ⟨leaving, _⟩ | ⟨active, _⟩ |
    ⟨_, inserted, rfl, rfl, valid⟩
  · have held : id ∈ runtime.held := by
      rcases apply_held_cases effect with ⟨_, rfl, _, grown⟩ | shrunk
      · rw [grown, mem_append, mem_singleton] at member
        refine member.resolve_right fun new => ?_
        rw [new, Runtime.stateOf, wellformed.fresh _ (Nat.le_refl _)] at before
        cases before
      · exact shrunk.subset member
    obtain ⟨revision, recorded⟩ := wellformed.recorded id held
    have known : runtime.definitionOf id = some revision.definition := by
      rw [Runtime.definitionOf, recorded]
      rfl
    have kept := apply_definitionOf wellformed effect known
    rw [kept] at found
    cases found
    exact .inl ⟨held, before, known⟩
  · cases leaving
  · cases active
  · right
    rw [Effect.apply, Runtime.definitionOf, Runtime.insertRevision_lookup, if_pos ⟨rfl, valid⟩] at found
    cases found
    exact ⟨rfl, rfl⟩

end

section

variable {system next : System} {label : Label} {definition : Definition}

theorem compiling_inversion {index : Nat} (taken : system.step label = some next)
    (compiles : next.Compiles index definition) :
    (system.Compiles index definition ∧ ∀ wakeup, label ≠ .resume index wakeup) ∨
      (index = system.calls.length ∧ label = .install definition ∧
        system.runtime.held.length < system.runtime.config.maxRevisions) := by
  obtain ⟨segment, _⟩ := step_inversion taken
  unfold System.Compiles at compiles ⊢
  generalize system.effectOf label = effect at segment
  generalize next.calls = calls at segment compiles
  cases segment with
  | begins _ _ _ begun =>
    rcases Slots.of_getElem?_append compiles with old | ⟨rfl, rfl⟩
    · refine .inl ⟨old, ?_⟩
      rintro wakeup rfl
      cases begun
    · cases begins_awaits begun with
      | compiling room => exact .inr ⟨rfl, rfl, room⟩
  | resumes _ _ _ _ _ _ resumed =>
    rcases resumed_calls compiles with ⟨rfl, rfl⟩ | ⟨apart, old⟩ | ⟨_, spawned⟩
    · cases resumed
      rename_i waits
      rcases waits with waits | waits <;> cases waits
    · refine .inl ⟨old, ?_⟩
      rintro _ ⟨⟩
      exact apart rfl
    · obtain ⟨_, _, _, _, _, impossible⟩ := mem_spawned spawned
      cases impossible
  | works =>
    refine .inl ⟨compiles, ?_⟩
    rintro _ ⟨⟩

theorem inserting (taken : system.step label = some next)
    (effect : system.effectOf label = .insertRevision definition) :
    ∃ index wakeup, label = .resume index wakeup ∧
      system.Compiles index definition := by
  obtain ⟨segment, _⟩ := step_inversion taken
  rw [effect] at segment
  generalize next.calls = calls at segment
  cases segment with
  | begins _ _ _ begun => cases begun
  | resumes index _ _ _ _ suspended resumed =>
    cases resumed
    exact ⟨index, _, rfl, suspended⟩

theorem calls_grow (taken : system.step label = some next) :
    system.calls.length ≤ next.calls.length := by
  obtain ⟨segment, _⟩ := step_inversion taken
  generalize next.calls = calls at segment
  cases segment with
  | begins => simp
  | resumes => simp
  | works => exact Nat.le_refl _

/-- What holds between the steps: a compilation has room, and if it is for `ifAbsent`, no
installed revision has its identity. -/
structure Sound (control : Control) : Prop where
  wellformed : Wellformed control.runtime
  bounded : control.Bounded
  compiling : ∀ index definition, control.Compiles index definition →
    control.runtime.held.length < control.runtime.config.maxRevisions ∧
      (index ∈ control.absent → ∀ id other, control.runtime.Offers id other →
        identity other ≠ identity definition)
  begun : ∀ index ∈ control.absent, index < control.calls.length

variable {identity} {control : Control} {label : Label} {next : System}

theorem other_sound (sound : Sound identity control)
    (begins : ∀ definition, label ≠ .install definition)
    (apart : control.Apart identity (.other label))
    (taken : control.toSystem.step label = some next) :
    Sound identity ⟨next, control.absent⟩ := by
  obtain ⟨_, write⟩ := step_inversion taken
  have config : next.runtime.config = control.runtime.config := by rw [write, apply_config]
  have compiled : ∀ {index definition}, next.Compiles index definition →
      control.Compiles index definition ∧ ∀ wakeup, label ≠ .resume index wakeup := by
    intro index definition compiles
    exact (compiling_inversion taken compiles).resolve_right fun new => begins _ new.2.1
  have wellformed := step_wellformed _ _ _ sound.wellformed taken
  have begun : ∀ index ∈ control.absent, index < next.calls.length :=
    fun index member => Nat.lt_of_lt_of_le (sound.begun index member) (calls_grow taken)
  rcases @apply_held_cases control.runtime (control.effectOf label) with
    ⟨definition, effect, _, grown⟩ | shrinks
  · obtain ⟨index, wakeup, rfl, compiles⟩ := inserting taken effect
    have grown : next.runtime.held.length = control.runtime.held.length + 1 := by
      rw [write, grown, length_append, length_singleton]
    refine ⟨wellformed, ?_, fun other two after => ?_, begun⟩
    · unfold Control.Bounded
      rw [config, grown]
      exact (sound.compiling index definition compiles).1
    · obtain ⟨before, kept⟩ := compiled after
      have elsewhere : other ≠ index := fun same => kept wakeup (same ▸ rfl)
      obtain ⟨room, differs⟩ := apart definition effect other two elsewhere before
      refine ⟨by rwa [config, grown], fun absent id found offers => ?_⟩
      rw [write] at offers
      rcases apply_offers sound.wellformed _ offers with old | ⟨inserted, _⟩
      · exact (sound.compiling other two before).2 absent id found old
      · cases effect.symm.trans inserted
        exact (differs absent).symm
  · have offered : ∀ {id definition}, next.runtime.Offers id definition →
        control.runtime.Offers id definition := by
      intro id definition offers
      rw [write] at offers
      refine (apply_offers sound.wellformed _ offers).resolve_right ?_
      rintro ⟨_, rfl⟩
      exact sound.wellformed.next_unheld (shrinks.subset offers.1)
    rw [← write] at shrinks
    refine ⟨wellformed, ?_, fun index definition compiles => ?_, begun⟩
    · unfold Control.Bounded
      rw [config]
      exact Nat.le_trans shrinks.length_le sound.bounded
    · obtain ⟨room, missing⟩ := sound.compiling index definition (compiled compiles).1
      refine ⟨?_, fun absent id other offers => missing absent id other (offered offers)⟩
      rw [config]
      exact Nat.lt_of_le_of_lt shrinks.length_le room

theorem install_sound {absent : List Nat} (sound : Sound identity control)
    (taken : control.toSystem.step (.install definition) = some next)
    (begun : ∀ index ∈ absent, index ∈ control.absent ∨ index = control.calls.length ∧
      ∀ id other, control.runtime.Offers id other → identity other ≠ identity definition) :
    Sound identity ⟨next, absent⟩ := by
  have starts := fun index other (compiles : next.Compiles index other) =>
    compiling_inversion taken compiles
  have grown := calls_grow taken
  cases taken
  refine ⟨sound.wellformed, sound.bounded, ?_, ?_⟩
  · intro index other compiles
    rcases starts index other compiles with ⟨old, _⟩ | ⟨position, start, room⟩
    · obtain ⟨room, missing⟩ := sound.compiling index other old
      have before : index < control.calls.length := (List.getElem?_eq_some_iff.mp old).1
      refine ⟨room, fun member => missing ((begun index member).resolve_right fun new => ?_)⟩
      omega
    · cases start
      refine ⟨room, fun member => ?_⟩
      rcases begun index member with old | ⟨_, missing⟩
      · exact absurd (sound.begun index old) (by omega)
      · exact missing
  · intro index member
    rcases begun index member with old | ⟨rfl, _⟩
    · exact Nat.lt_of_lt_of_le (sound.begun index old) grown
    · simp

theorem step_sound [DecidableEq Identity] (control : Control) (posted : Posted) (next : Control)
    (sound : Sound identity control) (apart : control.Apart identity posted)
    (taken : control.step identity posted = some next) : Sound identity next := by
  cases posted with
  | install ifAbsent definition =>
    simp only [Control.step] at taken
    split at taken
    · cases taken
      exact sound
    · rename_i going
      obtain ⟨system, run, rfl⟩ := map_eq_some_iff.mp taken
      refine install_sound sound run fun index member => ?_
      cases ifAbsent with
      | false => exact .inl member
      | true =>
        rcases mem_cons.mp member with new | old
        · have absent : control.runtime.present identity definition = false := by
            simpa using going
          refine .inr ⟨new, fun id _ offers same => ?_⟩
          have found : control.runtime.present identity definition = true := by
            refine any_eq_true.mpr ⟨id, offers.1, ?_⟩
            simp [offers.2.1, offers.2.2, same]
          rw [absent] at found
          cases found
        · exact .inl old
  | other label =>
    obtain ⟨_, run, rfl⟩ := map_eq_some_iff.mp taken
    by_cases begins : ∃ definition, label = .install definition
    · obtain ⟨definition, rfl⟩ := begins
      exact install_sound sound run fun index member => .inl member
    · exact other_sound sound (fun definition same => begins ⟨definition, same⟩) apart run

theorem first_of_sound [DecidableEq Identity] (control : Control) (posted : Posted) (next : Control)
    (sound : Sound identity control) (_ : control.Apart identity posted)
    (taken : control.step identity posted = some next) : control.First identity posted := by
  cases posted with
  | install => trivial
  | other label =>
    obtain ⟨_, run, rfl⟩ := map_eq_some_iff.mp taken
    cases label with
    | resume index _ =>
      intro absent definition effect
      obtain ⟨_, _, same, compiles⟩ := inserting run effect
      cases same
      exact (sound.compiling index definition compiles).2 absent
    | _ => trivial

end

theorem new_sound (config : Config) : Sound identity (Control.new config) where
  wellformed := Wellformed.new config
  bounded := Nat.zero_le _
  compiling _ _ compiles := nomatch compiles
  begun _ member := nomatch member

/-- While every insertion is apart from the installs that still compile, the bound holds,
and an install with `ifAbsent` inserts no second revision of its identity. -/
theorem installs_apart_proper [DecidableEq Identity] (identity : Definition → Identity)
    (config : Config) (labels : List Posted)
    (apart : Transition.Meets (Control.step identity) (Control.Apart identity) (Control.new config)
      labels) :
    Transition.Along (Control.step identity) Control.Bounded (Control.new config) labels ∧
      Transition.Meets (Control.step identity) (Control.First identity) (Control.new config)
        labels := by
  refine ⟨?_, ?_⟩
  · exact along_imp (fun _ sound => sound.bounded)
      (along_of_meets step_sound (new_sound identity config) apart)
  · exact meets_of_meets step_sound first_of_sound (new_sound identity config) apart

theorem installs_apart_proper_overlapping :
    Transition.Along (Control.step Definition.name) Control.Bounded
        (Control.new ⟨2, false, false, false⟩)
        [.install true uploads, .install true ⟨"other", [], true⟩, .other (.resume 0 .done),
          .other (.resume 1 .done)] ∧
      Transition.Meets (Control.step Definition.name) (Control.First Definition.name)
        (Control.new ⟨2, false, false, false⟩)
        [.install true uploads, .install true ⟨"other", [], true⟩, .other (.resume 0 .done),
          .other (.resume 1 .done)] := by
  refine installs_apart_proper Definition.name _ _ ⟨trivial, trivial, ?_, ?_, trivial⟩
  · rintro _ ⟨⟩ (_ | _ | _) _ elsewhere ⟨⟩
    · exact absurd rfl elsewhere
    · exact ⟨by decide, fun _ => by decide⟩
  · rintro _ ⟨⟩ (_ | _ | _) _ elsewhere ⟨⟩
    exact absurd rfl elsewhere

/-- Two that overlap: both pass both checks, and both insert a revision. -/
theorem overlapping_installs_exceed :
    (Transition.exec (Control.step Definition.name) (Control.new ⟨1, false, false, false⟩)
      [.install true uploads, .install true uploads, .other (.resume 0 .done),
        .other (.resume 1 .done)]).map (fun control =>
          (control.calls, control.runtime.held.map control.runtime.stateOf,
            control.runtime.config.maxRevisions)) =
      some ([.returned (.installed ⟨1⟩), .returned (.installed ⟨2⟩)],
        [some .installed, some .installed], 1) := by
  decide +kernel

end Usai.Revisions
