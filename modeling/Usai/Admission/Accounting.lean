import Usai.Transition
import Usai.Admission.Balance

/-! Conservation of permits and counters over every sequence of admissions,
drops and child transfers. -/

namespace Usai.Admission

open Accounts FiniteMap List Option Tally Transition

open Revisions (RevisionId RevisionState Definition)

inductive Level where
  | runtime
  | application (id : RevisionId)
  | workload (id : RevisionId) (index : Nat)
  deriving DecidableEq, Repr

variable {account : Account} {id : RevisionId}

namespace Accounts

def budgetAt (runtime : Accounts) : Level → Option Budget
  | .runtime => some runtime.worldBudget
  | .application id => (runtime.accounts.lookup id).map Account.appBudget
  | .workload id index =>
    (runtime.accounts.lookup id).bind (fun account => account.workloadBudget index)

def refusedAt (runtime : Accounts) : Level → Accounts
  | .runtime => { runtime with worldBudget := runtime.worldBudget.refused }
  | .application id =>
    match runtime.accounts.lookup id with
    | some account => runtime.update id { account with appBudget := account.appBudget.refused }
    | none => runtime
  | .workload id index =>
    match runtime.accounts.lookup id with
    | some account =>
      match account.workloadBudget index with
      | some budget => runtime.update id (account.setWorkloadBudget index budget.refused)
      | none => runtime
    | none => runtime

theorem acquireWorkload_cases (account : Account) (index : Nat) :
    (∃ budget, account.workloadBudget index = some budget ∧ budget.available = 0 ∧
        acquireWorkload account index =
          (account.setWorkloadBudget index budget.refused, .error ⟨budget.name, budget.max⟩)) ∨
      ((∀ budget, account.workloadBudget index = some budget → budget.available ≠ 0) ∧
        acquireWorkload account index =
          (match account.workloadBudget index with
            | some budget => account.setWorkloadBudget index budget.acquired
            | none => account, .ok (account.workloadBudget index).isSome)) := by
  unfold acquireWorkload
  cases found : account.workloadBudget index with
  | none => exact .inr ⟨by simp, rfl⟩
  | some budget =>
    by_cases exhausted : budget.available = 0
    · refine .inl ⟨budget, rfl, exhausted, ?_⟩
      simp only [Budget.tryAcquire, if_pos exhausted]
    · refine .inr ⟨?_, ?_⟩
      · intro other same
        cases same
        exact exhausted
      · simp only [Budget.tryAcquire, if_neg exhausted, isSome_some]

theorem acquire_cases {runtime : Accounts}
    (found : runtime.accounts.lookup id = some account) (index : Nat) :
    (∃ level budget, runtime.budgetAt level = some budget ∧ budget.available = 0 ∧
        runtime.acquire id account index =
          (runtime.refusedAt level, .error (.exhausted ⟨budget.name, budget.max⟩))) ∨
      (runtime.worldBudget.available ≠ 0 ∧ account.appBudget.available ≠ 0 ∧
        (∀ budget, account.workloadBudget index = some budget → budget.available ≠ 0) ∧
        runtime.acquire id account index =
          ({ runtime with
              worldBudget := runtime.worldBudget.acquired
              admissions := ⟨id, index, (account.workloadBudget index).isSome⟩ ::
                runtime.admissions }.update id (account.taken index),
            .ok ⟨id, index, (account.workloadBudget index).isSome⟩)) := by
  unfold acquire
  by_cases world : runtime.worldBudget.available = 0
  · refine .inl ⟨.runtime, runtime.worldBudget, rfl, world, ?_⟩
    simp only [Budget.tryAcquire, if_pos world]
    rfl
  · have worldFree := Budget.free_acquired world
    by_cases app : account.appBudget.available = 0
    · refine .inl ⟨.application id, account.appBudget, ?_, app, ?_⟩
      · rw [budgetAt, found, map_some]
      · simp only [Budget.tryAcquire, if_neg world, if_pos app, worldFree, refusedAt, found]
    · have appFree := Budget.free_acquired app
      rcases acquireWorkload_cases { account with appBudget := account.appBudget.acquired } index
        with ⟨budget, present, exhausted, refusal⟩ | ⟨free, success⟩
      · refine .inl ⟨.workload id index, budget, ?_, exhausted, ?_⟩
        · rw [budgetAt, found, bind_some]
          exact present
        · have here : account.workloadBudget index = some budget := present
          simp only [Budget.tryAcquire, if_neg world, if_neg app, refusal, worldFree, refusedAt,
            found, here]
          simp only [Account.setWorkloadBudget, appFree]
      · refine .inr ⟨world, app, free, ?_⟩
        simp only [Budget.tryAcquire, if_neg world, if_neg app, success]
        rfl

end Accounts

def liveOf (admissions : List InFlight) (id : RevisionId) : Nat :=
  admissions.countP (fun admission => admission.revision = id)

def liveAt (admissions : List InFlight) (id : RevisionId) (index : Nat) : Nat :=
  admissions.countP (fun admission => admission.revision = id ∧ admission.workloadIndex = index)

theorem liveOf_cons (admission : InFlight) (admissions : List InFlight) (id : RevisionId) :
    liveOf (admission :: admissions) id =
      if admission.revision = id then liveOf admissions id + 1 else liveOf admissions id := by
  by_cases same : admission.revision = id <;> simp [liveOf, same]

theorem liveAt_cons (admission : InFlight) (admissions : List InFlight) (id : RevisionId) :
    liveAt (admission :: admissions) id =
      if admission.revision = id then bump (liveAt admissions id) admission.workloadIndex
      else liveAt admissions id := by
  funext index
  by_cases same : admission.revision = id
  · by_cases here : index = admission.workloadIndex
    · simp [liveAt, bump, same, here]
    · simp [liveAt, bump, same, here, Ne.symm here]
  · simp [liveAt, same]

theorem liveOf_perm (perm : first.Perm second) (id : RevisionId) :
    liveOf first id = liveOf second id :=
  perm.countP_eq _

theorem liveAt_perm (perm : first.Perm second) (id : RevisionId) :
    liveAt first id = liveAt second id :=
  funext fun _ => perm.countP_eq _

namespace Accounts

structure Balanced (runtime : Accounts) : Prop where
  world : runtime.worldBudget.available + runtime.admissions.length = runtime.worldBudget.max
  accounts : ∀ id account, runtime.accounts.lookup id = some account →
    account.Balanced (liveOf runtime.admissions id) (liveAt runtime.admissions id)
      (runtime.children.count id)
  guards : ∀ admission ∈ runtime.admissions, ∃ account,
    runtime.accounts.lookup admission.revision = some account ∧
      admission.workloadIndex < account.liveByWorkload.length ∧
      admission.workloadPermit = (account.workloadBudget admission.workloadIndex).isSome
  children : ∀ id ∈ runtime.children, ∃ account, runtime.accounts.lookup id = some account
  fresh : ∀ id : RevisionId, runtime.nextRevision ≤ id.val → runtime.accounts.lookup id = none

theorem new_balanced (maxWorlds appConcurrency : Nat) :
    (new maxWorlds appConcurrency).Balanced where
  world := rfl
  accounts := by intro id account found; cases found
  guards := by intro admission member; cases member
  children := by intro id member; cases member
  fresh := by intro id _; rfl

theorem update_lookup (runtime : Accounts) (id other : RevisionId) (account : Account) :
    (runtime.update id account).accounts.lookup other =
      if other = id then some account else runtime.accounts.lookup other :=
  lookup_insert_eq _ _ _ _

def post (runtime : Accounts) (world : Budget) (admissions : List InFlight)
    (children : List RevisionId) (id : RevisionId) (account : Account) : Accounts :=
  { runtime with worldBudget := world, admissions := admissions, children := children }.update id
    account

variable {runtime next : Accounts} {id : RevisionId} {account : Account}

theorem post_balanced (balanced : runtime.Balanced) {world : Budget}
    {admissions : List InFlight} {children : List RevisionId}
    {old : Account} (found : runtime.accounts.lookup id = some old)
    (length : account.liveByWorkload.length = old.liveByWorkload.length)
    (bounded : ∀ index, (account.workloadBudget index).isSome = (old.workloadBudget index).isSome)
    (worldBalance : world.available + admissions.length = world.max)
    (own : account.Balanced (liveOf admissions id) (liveAt admissions id) (children.count id))
    (others : ∀ other, other ≠ id → liveOf admissions other = liveOf runtime.admissions other ∧
      liveAt admissions other = liveAt runtime.admissions other ∧
      children.count other = runtime.children.count other)
    (guards : ∀ admission ∈ admissions, admission ∈ runtime.admissions ∨
      (admission.revision = id ∧ admission.workloadIndex < old.liveByWorkload.length ∧
        admission.workloadPermit = (old.workloadBudget admission.workloadIndex).isSome))
    (retained : ∀ child ∈ children, child ∈ runtime.children ∨ child = id) :
    (runtime.post world admissions children id account).Balanced where
  world := worldBalance
  accounts := by
    intro other kept present
    rw [post, update_lookup] at present
    split at present
    · rename_i same
      rw [some.injEq] at present
      rw [← present, same]
      exact own
    · rename_i different
      have before := balanced.accounts other kept present
      obtain ⟨sameOf, sameAt, count⟩ := others other different
      rw [← sameOf, ← sameAt, ← count] at before
      exact before
  guards := by
    intro admission member
    rw [post, update_lookup]
    by_cases same : admission.revision = id
    · rw [if_pos same]
      refine ⟨account, rfl, ?_⟩
      rw [length, bounded]
      rcases guards admission member with before | ⟨_, inside, permit⟩
      · obtain ⟨_, present, rest⟩ := balanced.guards admission before
        rw [same, found, some.injEq] at present
        rw [present]
        exact rest
      · exact ⟨inside, permit⟩
    · rw [if_neg same]
      rcases guards admission member with before | ⟨here, _⟩
      · exact balanced.guards admission before
      · exact absurd here same
  children := by
    intro child member
    rw [post, update_lookup]
    split
    · exact ⟨account, rfl⟩
    · rename_i different
      rcases retained child member with before | same
      · exact balanced.children child before
      · exact absurd same different
  fresh := by
    intro other bound
    have absent := balanced.fresh other bound
    rw [post, update_lookup]
    split
    · rename_i same
      rw [same, found] at absent
      cases absent
    · exact absent

theorem update_balanced (balanced : runtime.Balanced)
    (found : runtime.accounts.lookup id = some old)
    (length : account.liveByWorkload.length = old.liveByWorkload.length)
    (bounded : ∀ index, (account.workloadBudget index).isSome = (old.workloadBudget index).isSome)
    (own : account.Balanced (liveOf runtime.admissions id) (liveAt runtime.admissions id)
      (runtime.children.count id)) :
    (runtime.update id account).Balanced :=
  post_balanced balanced found length bounded balanced.world own
    (fun _ _ => ⟨rfl, rfl, rfl⟩) (fun _ member => .inl member) (fun _ member => .inl member)

theorem refusedAt_balanced (balanced : runtime.Balanced) (level : Level) :
    (runtime.refusedAt level).Balanced := by
  cases level with
  | runtime =>
    exact ⟨balanced.world, balanced.accounts, balanced.guards, balanced.children, balanced.fresh⟩
  | application id =>
    simp only [refusedAt]
    cases found : runtime.accounts.lookup id with
    | none => exact balanced
    | some account =>
      have before := balanced.accounts id account found
      exact update_balanced balanced found rfl (fun _ => rfl)
        (before.balanced_of_budgets _ rfl ⟨rfl, rfl⟩
          (fun _ budget present => ⟨budget, present, rfl, rfl⟩) ⟨rfl, rfl⟩)
  | workload id index =>
    simp only [refusedAt]
    cases found : runtime.accounts.lookup id with
    | none => exact balanced
    | some account =>
      simp only
      cases limited : account.workloadBudget index with
      | none => exact balanced
      | some budget =>
        have set := fun other =>
          account.workloadBudget_set index other budget.refused limited
        have before := balanced.accounts id account found
        refine update_balanced balanced found rfl ?_ ?_
        · intro other
          rw [set]
          split
          · rename_i same
            rw [same, limited]
            rfl
          · rfl
        · refine before.balanced_of_budgets _ rfl ⟨rfl, rfl⟩ ?_ ⟨rfl, rfl⟩
          intro other found present
          rw [set] at present
          split at present
          · rename_i same
            cases present
            exact ⟨budget, by rw [same]; exact limited, rfl, rfl⟩
          · exact ⟨found, present, rfl, rfl⟩

section

variable (balanced : runtime.Balanced)
include balanced

theorem acquire_balanced (found : runtime.accounts.lookup id = some account) {index : Nat}
    (inside : index < account.definition.workloads.length) :
    (runtime.acquire id account index).1.Balanced := by
  rcases acquire_cases found index with ⟨level, _, _, _, refusal⟩ | ⟨world, app, free, success⟩
  · rw [refusal]
    exact refusedAt_balanced balanced level
  · have before := balanced.accounts id account found
    have within : index < account.liveByWorkload.length := by
      rw [before.shape]
      exact inside
    have length : (account.taken index).liveByWorkload.length = account.liveByWorkload.length := by
      rw [(Account.taken_counters account index).2.2.2, length_modify]
    rw [success]
    refine post_balanced balanced found length ?_ ?_ ?_ ?_ ?_ (fun _ member => .inl member)
    · intro other
      rw [Account.workloadBudget_taken]
      split
      · rename_i same
        rw [same, isSome_map]
      · rfl
    · have worldBefore := balanced.world
      simp only [Budget.acquired, length_cons]
      omega
    · rw [liveOf_cons, liveAt_cons, if_pos rfl, if_pos rfl]
      exact before.taken_balanced within app free
    · intro other different
      rw [liveOf_cons, liveAt_cons, if_neg (Ne.symm different), if_neg (Ne.symm different)]
      exact ⟨rfl, rfl, rfl⟩
    · intro admission member
      rcases mem_cons.mp member with rfl | old
      · exact .inr ⟨rfl, within, rfl⟩
      · exact .inl old

theorem admitWhen_balanced (accepts : RevisionState → Bool) (reason : String)
    (found : runtime.accounts.lookup id = some account) (workload : String) :
    (admitWhen accepts reason runtime id account workload).1.Balanced := by
  unfold admitWhen
  split
  · split
    · rename_i index present
      rw [workloadIndex, findIdx?_eq_some_iff_findIdx_eq] at present
      exact acquire_balanced balanced found present.1
    · exact balanced
  · exact balanced

theorem dropAdmission_balanced
    (dropped : runtime.dropAdmission position = some next) : next.Balanced := by
  simp only [dropAdmission, bind_eq_bind, bind_eq_some_iff, some.injEq] at dropped
  obtain ⟨admission, guard, account, found, rfl⟩ := dropped
  obtain ⟨again, present, inside, held⟩ := balanced.guards admission (mem_of_getElem? guard)
  rw [found, some.injEq] at present
  subst again
  have before := balanced.accounts admission.revision account found
  have length : (account.giveBack admission.workloadIndex admission.workloadPermit).liveByWorkload.length =
      account.liveByWorkload.length := by
    rw [(Account.giveBack_counters account _ _).2.2.2, length_modify]
  -- the guards before the drop count as those after it with this one in front
  have perm := eraseIdx_perm guard
  refine post_balanced balanced found length ?_ ?_ ?_ ?_ ?_ (fun _ member => .inl member)
  · intro other
    rw [Account.workloadBudget_giveBack _ _ _ _ held]
    split
    · rename_i same
      rw [same, isSome_map]
    · rfl
  · have worldBefore := balanced.world
    rw [length_eraseIdx guard] at worldBefore
    simp only [Budget.free]
    omega
  · rw [← liveOf_perm perm, ← liveAt_perm perm, liveOf_cons, liveAt_cons, if_pos rfl,
      if_pos rfl] at before
    exact Account.giveBack_balanced before inside held
  · intro other different
    rw [← liveOf_perm perm other, ← liveAt_perm perm other, liveOf_cons, liveAt_cons,
      if_neg (Ne.symm different), if_neg (Ne.symm different)]
    exact ⟨rfl, rfl, rfl⟩
  · intro kept member
    exact .inl (mem_of_mem_eraseIdx member)

theorem retainForChild_balanced
    (retained : runtime.retainForChild id = some next) : next.Balanced := by
  simp only [retainForChild, bind_eq_bind, bind_eq_some_iff, some.injEq]
    at retained
  obtain ⟨account, found, rfl⟩ := retained
  have before := balanced.accounts id account found
  refine post_balanced balanced found rfl (fun _ => rfl) balanced.world ?_ ?_
    (fun _ member => .inl member) ?_
  · refine ⟨before.app, before.workload, before.counted, ?_, before.shape⟩
    have count := before.inFlight
    rw [count_cons_self]
    simp only [Account.retainForChild]
    omega
  · intro other different
    exact ⟨rfl, rfl, count_cons_of_ne (Ne.symm different)⟩
  · intro child member
    rcases mem_cons.mp member with same | old
    · exact .inr same
    · exact .inl old

theorem releaseChild_balanced
    (released : runtime.releaseChild position = some next) : next.Balanced := by
  simp only [releaseChild, bind_eq_bind, bind_eq_some_iff, some.injEq]
    at released
  obtain ⟨id, child, account, found, rfl⟩ := released
  have before := balanced.accounts id account found
  have perm := eraseIdx_perm child
  refine post_balanced balanced found rfl (fun _ => rfl) balanced.world ?_ ?_
    (fun _ member => .inl member) (fun _ member => .inl (mem_of_mem_eraseIdx member))
  · refine ⟨before.app, before.workload, before.counted, ?_, before.shape⟩
    have count := before.inFlight
    rw [← perm.count_eq, count_cons_self] at count
    simp only [Account.releaseChild]
    omega
  · intro other different
    refine ⟨rfl, rfl, ?_⟩
    rw [← perm.count_eq other, count_cons_of_ne (Ne.symm different)]

theorem Balanced.untouched (absent : runtime.accounts.lookup id = none) :
    liveOf runtime.admissions id = 0 ∧ liveAt runtime.admissions id = (fun _ => 0) ∧
      runtime.children.count id = 0 := by
  have recorded : ∀ other account, runtime.accounts.lookup other = some account → other ≠ id := by
    rintro _ account found rfl
    rw [absent] at found
    cases found
  refine ⟨?_, ?_, ?_⟩
  · rw [liveOf, countP_eq_zero]
    intro admission member same
    obtain ⟨account, found, _⟩ := balanced.guards admission member
    exact recorded _ account found (by simpa using same)
  · funext index
    rw [liveAt, countP_eq_zero]
    intro admission member same
    obtain ⟨account, found, _⟩ := balanced.guards admission member
    simp only [decide_eq_true_eq] at same
    exact recorded _ account found same.1
  · rw [count_eq_zero]
    intro member
    obtain ⟨account, found⟩ := balanced.children _ member
    exact recorded _ account found rfl

end

theorem install_lookup (runtime : Accounts) (definition : Definition) (id : RevisionId) :
    (runtime.install definition).accounts.lookup id =
      if id = ⟨runtime.nextRevision⟩ then some (Account.new definition runtime.appConcurrency)
      else runtime.accounts.lookup id :=
  lookup_insert_eq _ _ _ _

theorem install_keeps (balanced : runtime.Balanced) (definition : Definition)
    (found : runtime.accounts.lookup id = some account) :
    (runtime.install definition).accounts.lookup id = some account := by
  have old : id ≠ ⟨runtime.nextRevision⟩ := by
    rintro rfl
    rw [balanced.fresh ⟨runtime.nextRevision⟩ le_rfl] at found
    cases found
  rw [install_lookup, if_neg old]
  exact found

theorem install_balanced (balanced : runtime.Balanced)
    (definition : Definition) : (runtime.install definition).Balanced where
  world := balanced.world
  accounts := by
    intro id account found
    obtain ⟨live, liveAt, children⟩ :=
      balanced.untouched (balanced.fresh ⟨runtime.nextRevision⟩ le_rfl)
    rw [install_lookup] at found
    simp only [install]
    split at found
    · rename_i new
      rw [some.injEq] at found
      rw [← found, new, live, liveAt, children]
      exact Account.new_balanced definition runtime.appConcurrency
    · exact balanced.accounts id account found
  guards := by
    intro admission member
    obtain ⟨account, found, rest⟩ := balanced.guards admission member
    exact ⟨account, install_keeps balanced definition found, rest⟩
  children := by
    intro id member
    obtain ⟨account, found⟩ := balanced.children id member
    exact ⟨account, install_keeps balanced definition found⟩
  fresh := by
    intro id bound
    simp only [install] at bound
    rw [install_lookup, if_neg]
    · exact balanced.fresh id (by omega)
    · rintro rfl
      simp only at bound
      omega

end Accounts

theorem step_balanced (runtime : Accounts) (label : Label) (next : Accounts)
    (balanced : runtime.Balanced) (taken : step runtime label = some next) : next.Balanced := by
  cases label with
  | install definition =>
    cases taken
    exact install_balanced balanced definition
  | setState id _ =>
    simp only [step, map_eq_some_iff] at taken
    obtain ⟨account, found, rfl⟩ := taken
    have before := balanced.accounts id account found
    exact update_balanced balanced found rfl (fun _ => rfl)
      ⟨before.app, before.workload, before.counted, before.inFlight, before.shape⟩
  | enter entry _ workload =>
    simp only [step, map_eq_some_iff] at taken
    obtain ⟨_, found, rfl⟩ := taken
    cases entry <;> exact admitWhen_balanced balanced _ _ found workload
  | drop => exact dropAdmission_balanced balanced taken
  | retain => exact retainForChild_balanced balanced taken
  | release => exact releaseChild_balanced balanced taken

/-- What a failed admission leaves: everything, except that a budget that
refused it has counted the refusal. -/
def FailsClean (runtime : Accounts) : Accounts × Except AdmissionError InFlight → Prop
  | (_, .ok _) => True
  | (next, .error (.exhausted error)) =>
    ∃ level budget, runtime.budgetAt level = some budget ∧ budget.available = 0 ∧
      error = ⟨budget.name, budget.max⟩ ∧ next = runtime.refusedAt level
  | (next, .error (.notActive _ _ _)) => next = runtime
  | (next, .error (.unknownWorkload _)) => next = runtime

variable {runtime : Accounts}

theorem admitWhen_failsClean (accepts : RevisionState → Bool) (reason : String)
    (found : runtime.accounts.lookup id = some account)
    (workload : String) :
    FailsClean runtime (runtime.admitWhen accepts reason id account workload) := by
  unfold admitWhen
  split
  · split
    · rename_i index _
      rcases acquire_cases found index with ⟨level, budget, stands, empty, refusal⟩ | success
      · rw [refusal]
        exact ⟨level, budget, stands, empty, rfl, rfl⟩
      · rw [success.2.2.2]
        trivial
    · exact rfl
  · exact rfl

/-- The permits in use at each level against the live admissions of that level,
the revision's in-flight count against its workloads and children, and what
failed admissions leave behind. -/
structure Accounts.Accounted (runtime : Accounts) : Prop where
  world : runtime.worldBudget.inUse = runtime.admissions.length
  app : ∀ id account, runtime.accounts.lookup id = some account →
    account.appBudget.inUse = liveOf runtime.admissions id
  workload : ∀ id account index budget, runtime.accounts.lookup id = some account →
    account.workloadBudget index = some budget →
    budget.inUse = liveAt runtime.admissions id index
  inFlight : ∀ id account, runtime.accounts.lookup id = some account →
    account.inFlight = account.liveByWorkload.sum + runtime.children.count id
  failures : ∀ (entry : Entry) id account workload, runtime.accounts.lookup id = some account →
    FailsClean runtime (entry.run runtime id account workload)

theorem accounted_of_balanced (balanced : runtime.Balanced) :
    runtime.Accounted where
  world := by
    have books := balanced.world
    simp only [Budget.inUse]
    omega
  app := by
    intro id account found
    have books := (balanced.accounts id account found).app
    simp only [Budget.inUse]
    omega
  workload := by
    intro id account index budget found present
    have books := (balanced.accounts id account found).workload index budget present
    simp only [Budget.inUse]
    omega
  inFlight := fun id account found => (balanced.accounts id account found).inFlight
  failures := by
    intro entry id account workload found
    cases entry with
    | admitActive => rw [Entry.run, admitActive]; exact admitWhen_failsClean _ _ found workload
    | inFlight => rw [Entry.run, admitInFlight]; exact admitWhen_failsClean _ _ found workload
    | verification =>
      rw [Entry.run, admitForVerification]
      exact admitWhen_failsClean _ _ found workload

/-- In every state of every sequence of installs, state changes, admissions,
drops and child transfers the books are as `Accounted` says. -/
theorem admission_conserves (maxWorlds appConcurrency : Nat) (labels : List Label) :
    Transition.Along step Accounts.Accounted (Accounts.new maxWorlds appConcurrency) labels := by
  have along := along_of_meets
    (fun runtime label next balanced _ taken => step_balanced runtime label next balanced taken)
    (new_balanced maxWorlds appConcurrency)
    (meets_true (new maxWorlds appConcurrency) labels)
  exact along_imp (fun _ balanced => accounted_of_balanced balanced) along

def refusing : List Label :=
  [.install ⟨"app", [⟨"task:a", .task, none⟩], true⟩, .setState ⟨1⟩ .active]

/-- The refused admission changes a counter: the budget's count of refusals. -/
theorem refusal_is_counted :
    ∃ before account after, Transition.exec step (Accounts.new 0 1) refusing = some before ∧
      before.accounts.lookup ⟨1⟩ = some account ∧
      before.admitActive ⟨1⟩ account "task:a" =
        (after, .error (.exhausted ⟨"runtime.worlds", 0⟩)) ∧
      before.worldBudget.rejected = 0 ∧ after.worldBudget.rejected = 1 :=
  ⟨_, _, _, rfl, rfl, rfl, rfl, rfl⟩

end Usai.Admission
