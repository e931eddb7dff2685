import Usai.Revisions.Wellformed

/-! Activate requests of the control API that name the same expected previous
revision. The handler compares before `activate` binds resources; the swap
comes after that await. -/

namespace Usai.Revisions

open List Option Transition

def Call.swappedTo : Call → Option RevisionId
  | .warming id _ => some id
  | .returned (.activated id) => some id
  | _ => none

def System.swappedAt (system : System) (index : Nat) : Option RevisionId :=
  (system.calls[index]?).bind Call.swappedTo

def Label.contends (expected : Nat) : Label → Bool
  | .request _ wanted => wanted.expectedPrevious = some expected
  | .resume _ _ => true
  | .work _ _ => true
  | _ => false

def contention (expected : Nat) (system : System) (label : Label) : Option System :=
  if label.contends expected then system.step label else none

def FindsExpected (expected : Nat) (system : System) (label : Label) : Prop :=
  match system.effectOf label with
  | .swap _ => system.runtime.active = some ⟨expected⟩
  | _ => True

/-- Once another revision than the expected one is active, the pointer stays
and no further request succeeds. -/
def Refuses (expected : Nat) (middle final : System) : Prop :=
  middle.runtime.active ≠ some ⟨expected⟩ →
    final.runtime.active = middle.runtime.active ∧
      ∀ index id, final.swappedAt index = some id → middle.swappedAt index = some id

def System.swappedSince (start system : System) (index : Nat) (id : RevisionId) : Prop :=
  start.swappedAt index = none ∧ system.swappedAt index = some id

def OneReplacement (expected : Nat) (start system : System) : Prop :=
  ∀ first second a b, start.swappedSince system first a → start.swappedSince system second b →
    a ≠ ⟨expected⟩ → b ≠ ⟨expected⟩ → first = second

theorem begins_unswapped (begun : Begins runtime label effect call) : call.swappedTo = none := by
  cases begins_awaits begun with
  | @returned reply _ _ other =>
    cases reply with
    | activated id => exact absurd rfl (other id)
    | _ => rfl
  | _ => rfl

theorem resumes_swappedTo {call next : Call}
    (resumed : Resumes runtime call wakeup effect next) :
    (∃ id, call = .binding id ∧ effect = .swap id ∧ next = .warming id runtime.active) ∨
      ((∀ id, effect ≠ .swap id) ∧ (∀ id, effect ≠ .beginDrain id) ∧
        next.swappedTo = call.swappedTo) := by
  cases resumed with
  | swapped id => exact .inl ⟨id, rfl, rfl, rfl⟩
  | compiled _ _ answers =>
    rcases answers with rfl | rfl <;> exact .inr ⟨by simp, by simp, rfl⟩
  | retirementBegun _ _ _ _ waits =>
    rcases waits with rfl | rfl <;> exact .inr ⟨by simp, by simp, rfl⟩
  | pruned _ _ ends =>
    rcases ends with rfl | rfl <;> exact .inr ⟨by simp, by simp, rfl⟩
  | _ => exact .inr ⟨by simp, by simp, rfl⟩

theorem spawned_unswapped (runtime : Runtime) (effect : Effect) :
    ∀ call ∈ runtime.spawned effect, call.swappedTo = none := by
  intro call member
  obtain ⟨_, _, _, _, _, rfl⟩ := mem_spawned member
  rfl

theorem swapped_append {calls added : List Call}
    (unswapped : ∀ call ∈ added, call.swappedTo = none) (index : Nat) :
    ((calls ++ added)[index]?).bind Call.swappedTo = (calls[index]?).bind Call.swappedTo := by
  by_cases inside : index < calls.length
  · rw [getElem?_append_left inside]
  · rw [getElem?_append_right (by omega), getElem?_eq_none (by omega : calls.length ≤ index)]
    cases found : added[index - calls.length]? with
    | none => rfl
    | some call => exact unswapped call (mem_of_getElem? found)

theorem contention_cases {system next : System}
    (taken : contention expected system label = some next) :
    ((∀ id, system.effectOf label ≠ .swap id) ∧
        next.runtime.active = system.runtime.active ∧
        ∀ index, next.swappedAt index = system.swappedAt index) ∨
      ∃ position id, system.effectOf label = .swap id ∧ next.runtime.active = some id ∧
        system.swappedAt position = none ∧
        ∀ index, next.swappedAt index = if index = position then some id
          else system.swappedAt index := by
  unfold contention at taken
  split at taken
  case isFalse => cases taken
  case isTrue contends =>
    obtain ⟨segment, written⟩ := step_inversion taken
    generalize system.effectOf label = effect at segment written ⊢
    simp only [System.swappedAt]
    generalize next.calls = calls at segment ⊢
    rw [written]
    cases segment with
    | begins _ _ _ begun =>
      have unswapped := begins_unswapped begun
      cases begun with
      | request =>
        refine .inl ⟨by simp, rfl, swapped_append ?_⟩
        intro added member
        rw [mem_singleton.mp member]
        exact unswapped
      | _ => simp [Label.contends] at contends
    | works => exact .inl ⟨by simp, rfl, fun _ => rfl⟩
    | resumes position _ _ _ after suspended resumed =>
      have inside : position < system.calls.length :=
        (List.getElem?_eq_some_iff.mp suspended).1
      have calls : ∀ index, ((system.calls.set position after ++
          system.runtime.spawned effect)[index]?).bind Call.swappedTo =
          if index = position then after.swappedTo
          else (system.calls[index]?).bind Call.swappedTo := by
        intro index
        rw [swapped_append (spawned_unswapped system.runtime effect)]
        by_cases same : index = position
        · subst index
          rw [if_pos rfl, getElem?_set_self inside]
          rfl
        · rw [if_neg same, getElem?_set_ne (Ne.symm same)]
      rcases resumes_swappedTo resumed with ⟨id, rfl, rfl, rfl⟩ | ⟨swaps, drains, same⟩
      · exact .inr ⟨position, id, rfl, rfl, by rw [suspended]; rfl, calls⟩
      · refine .inl ⟨swaps, apply_active _ _ swaps drains, ?_⟩
        intro index
        rw [calls]
        split
        · rename_i here
          rw [here, suspended, same]
          rfl
        · rfl

theorem refuses_trans (expected : Nat) (first second third : System)
    (earlier : Refuses expected first second) (later : Refuses expected second third) :
    Refuses expected first third := by
  intro moved
  obtain ⟨pointer, swapped⟩ := earlier moved
  obtain ⟨pointerAfter, swappedAfter⟩ := later (pointer ▸ moved)
  exact ⟨pointerAfter.trans pointer, fun index id found =>
    swapped index id (swappedAfter index id found)⟩

theorem contention_refuses (expected : Nat) (system : System) (label : Label) (next : System)
    (taken : contention expected system label = some next) :
    Refuses expected system next ↔ FindsExpected expected system label := by
  unfold FindsExpected
  rcases contention_cases taken with ⟨swaps, pointer, same⟩ | ⟨position, id, swap, pointer, fresh, now⟩
  · have found : Refuses expected system next := by
      intro _
      exact ⟨pointer, fun index id found => by rw [← same index, found]⟩
    refine iff_of_true found ?_
    split
    · rename_i id swap
      exact absurd swap (swaps id)
    · trivial
  · simp only [swap]
    constructor
    · intro refuses
      by_contra moved
      have before := (refuses moved).2 position id (by rw [now, if_pos rfl])
      rw [fresh] at before
      cases before
    · intro isExpected moved
      exact absurd isExpected moved

/-- While the expected revision is active, only requests for itself have
passed their swap; at most one request has replaced it. -/
def Contended (expected : Nat) (start system : System) : Prop :=
  (system.runtime.active = some ⟨expected⟩ →
    ∀ index id, start.swappedSince system index id → id = ⟨expected⟩) ∧
  OneReplacement expected start system

theorem contention_contended (expected : Nat) (start system : System) (label : Label)
    (next : System) (contended : Contended expected start system)
    (finds : FindsExpected expected system label)
    (taken : contention expected system label = some next) : Contended expected start next := by
  rcases contention_cases taken with ⟨_, pointer, same⟩ | ⟨position, _, swap, pointer, _, now⟩
  · simp only [Contended, OneReplacement, System.swappedSince, same, pointer]
    exact contended
  · have wasExpected : system.runtime.active = some ⟨expected⟩ := by
      simpa only [FindsExpected, swap] using finds
    have others : ∀ index other, start.swappedSince next index other → other ≠ ⟨expected⟩ →
        index = position := by
      rintro index other ⟨before, found⟩ different
      rw [now] at found
      split at found
      · assumption
      · exact absurd (contended.1 wasExpected index other ⟨before, found⟩) different
    refine ⟨?_, ?_⟩
    · rintro named index other ⟨before, found⟩
      rw [pointer, some.injEq] at named
      rw [now] at found
      split at found
      · rw [some.injEq] at found
        rw [← found, named]
      · exact contended.1 wasExpected index other ⟨before, found⟩
    · intro first second a b foundFirst foundSecond aDiffers bDiffers
      rw [others first a foundFirst aDiffers, others second b foundSecond bDiffers]

theorem start_contended (expected : Nat) (start : System) : Contended expected start start := by
  have none : ∀ index id, ¬ start.swappedSince start index id := by
    rintro index id ⟨before, found⟩
    rw [before] at found
    cases found
  exact ⟨fun _ index id found => absurd found (none index id),
    fun first _ a _ found => absurd found (none first a)⟩

/-- Among requests that name one expected revision, at most one replaces it
and after that all others are refused, exactly when every swap still finds
the expected revision. -/
theorem expected_previous_exclusive (expected : Nat) (start : System) (labels : List Label) :
    (Transition.Along (contention expected) (OneReplacement expected start) start labels ∧
        Transition.Between (contention expected) (Refuses expected) start labels) ↔
      Transition.Meets (contention expected) (FindsExpected expected) start labels := by
  have between := between_iff_meets (refuses_trans expected)
    (contention_refuses expected) start labels
  constructor
  · rintro ⟨_, refuses⟩
    exact between.mp refuses
  · intro meets
    have along := along_of_meets (contention_contended expected start)
      (start_contended expected start) meets
    exact ⟨along_imp (fun _ contended => contended.2) along, between.mpr meets⟩

def threeRevisions : List Label :=
  [.install ⟨"app", [], true⟩, .resume 0 .done, .install ⟨"app", [], true⟩, .resume 1 .done,
   .install ⟨"app", [], true⟩, .resume 2 .done, .activate ⟨1⟩, .resume 3 .done, .resume 3 .done]

def twoRequests : List Label :=
  [.request ⟨2⟩ ⟨some 1, false⟩, .request ⟨3⟩ ⟨some 1, false⟩,
   .resume 4 .done, .resume 5 .done, .resume 4 .done, .resume 5 .done]

/-- Both requests answer that they replaced the first revision, and the second
swap reverts what the first one deployed. -/
theorem two_requests_replace_expected :
    ∃ start final, Transition.exec System.step (System.new ⟨4, false, false, false⟩)
        threeRevisions = some start ∧
      start.runtime.active = some ⟨1⟩ ∧
      Transition.exec (contention 1) start twoRequests = some final ∧
      final.calls[4]? = some (.returned (.activated ⟨2⟩)) ∧
      final.calls[5]? = some (.returned (.activated ⟨3⟩)) ∧
      final.runtime.active = some ⟨3⟩ ∧ ¬ OneReplacement 1 start final := by
  refine ⟨_, _, rfl, rfl, rfl, rfl, rfl, rfl, ?_⟩
  intro one
  have same := one 4 5 ⟨2⟩ ⟨3⟩ ⟨rfl, rfl⟩ ⟨rfl, rfl⟩ (by decide) (by decide)
  cases same

end Usai.Revisions
