import Usai.Tally
import Usai.Admission.Accounts

/-! The books of one revision: what an admission, a refusal and a drop do to its
budgets and counters. -/

namespace Usai.Admission

open List Option

open Revisions (RevisionId RevisionState Definition)

/-- A revision's books: its budgets and counters against the number of live
admissions, in all and by workload, and of retained children. -/
structure Account.Balanced (account : Account) (live : Nat) (liveAt : Nat → Nat)
    (children : Nat) : Prop where
  app : account.appBudget.available + live = account.appBudget.max
  workload : ∀ index budget, account.workloadBudget index = some budget →
    budget.available + liveAt index = budget.max
  counted : ∀ (index count : Nat), account.liveByWorkload[index]? = some count →
    count = liveAt index
  inFlight : account.inFlight = account.liveByWorkload.sum + children
  shape : account.liveByWorkload.length = account.definition.workloads.length

def bump (liveAt : Nat → Nat) (index : Nat) : Nat → Nat :=
  fun other => if other = index then liveAt other + 1 else liveAt other

namespace Account

theorem new_balanced (definition : Definition) (appConcurrency : Nat) :
    (Account.new definition appConcurrency).Balanced 0 (fun _ => 0) 0 where
  app := rfl
  workload := by
    intro index budget found
    simp only [workloadBudget, new, getElem?_map, bind_eq_some_iff,
      map_eq_some_iff, id_eq] at found
    obtain ⟨_, ⟨_, _, rfl⟩, found⟩ := found
    rw [map_eq_some_iff] at found
    obtain ⟨_, _, rfl⟩ := found
    rfl
  counted := by
    intro index count found
    simp only [new, getElem?_map, map_eq_some_iff] at found
    obtain ⟨_, _, rfl⟩ := found
    rfl
  inFlight := by simp [new]
  shape := by simp [new]

theorem workloadBudget_set (account : Account) (index other : Nat) (budget : Budget)
    {old : Budget} (found : account.workloadBudget index = some old) :
    (account.setWorkloadBudget index budget).workloadBudget other =
      if other = index then some budget else account.workloadBudget other := by
  have inside : index < account.workloadBudgets.length := by
    by_contra outside
    rw [workloadBudget, getElem?_eq_none (by omega)] at found
    cases found
  simp only [workloadBudget, setWorkloadBudget]
  by_cases same : other = index
  · subst other
    rw [getElem?_set_self inside, if_pos rfl]
    rfl
  · rw [getElem?_set_ne (Ne.symm same), if_neg same]

variable {account : Account} {live children : Nat} {liveAt : Nat → Nat}

theorem Balanced.balanced_of_budgets (balanced : account.Balanced live liveAt children)
    (next : Account)
    (definition : next.definition = account.definition)
    (app : next.appBudget.available = account.appBudget.available ∧
      next.appBudget.max = account.appBudget.max)
    (workloads : ∀ index budget, next.workloadBudget index = some budget →
      ∃ old, account.workloadBudget index = some old ∧ budget.available = old.available ∧
        budget.max = old.max)
    (counters : next.liveByWorkload = account.liveByWorkload ∧ next.inFlight = account.inFlight) :
    next.Balanced live liveAt children where
  app := by
    rw [app.1, app.2]
    exact balanced.app
  workload := by
    intro index budget found
    obtain ⟨old, before, available, max⟩ := workloads index budget found
    rw [available, max]
    exact balanced.workload index old before
  counted := by
    rw [counters.1]
    exact balanced.counted
  inFlight := by
    rw [counters.1, counters.2]
    exact balanced.inFlight
  shape := by
    rw [counters.1, definition]
    exact balanced.shape

def taken (account : Account) (index : Nat) : Account :=
  let app := { account with appBudget := account.appBudget.acquired }
  let limited := match account.workloadBudget index with
    | some budget => app.setWorkloadBudget index budget.acquired
    | none => app
  limited.countIn index

theorem workloadBudget_taken (account : Account) (index other : Nat) :
    (account.taken index).workloadBudget other =
      if other = index then (account.workloadBudget index).map Budget.acquired
      else account.workloadBudget other := by
  cases found : account.workloadBudget index with
  | none =>
    have same : (account.taken index).workloadBudget other = account.workloadBudget other := by
      simp only [taken, found]
      rfl
    rw [same]
    split
    · rename_i here
      rw [here, found]
      rfl
    · rfl
  | some budget =>
    have set := workloadBudget_set { account with appBudget := account.appBudget.acquired }
      index other budget.acquired found
    simp only [taken, found]
    exact set

theorem workloadBudget_giveBack (account : Account) (index other : Nat) (permit : Bool)
    (held : permit = (account.workloadBudget index).isSome) :
    (account.giveBack index permit).workloadBudget other =
      if other = index then (account.workloadBudget index).map Budget.free
      else account.workloadBudget other := by
  cases found : account.workloadBudget index with
  | none =>
    have same : (account.giveBack index permit).workloadBudget other =
        account.workloadBudget other := by
      simp only [giveBack, found]
      rfl
    rw [same]
    split
    · rename_i here
      rw [here, found]
      rfl
    · rfl
  | some budget =>
    have set := workloadBudget_set { account with appBudget := account.appBudget.free }
      index other budget.free found
    simp only [giveBack, found, held]
    exact set

theorem taken_counters (account : Account) (index : Nat) :
    (account.taken index).definition = account.definition ∧
      (account.taken index).appBudget = account.appBudget.acquired ∧
      (account.taken index).inFlight = account.inFlight + 1 ∧
      (account.taken index).liveByWorkload =
        account.liveByWorkload.modify index (fun live => live + 1) := by
  cases found : account.workloadBudget index <;>
    simp [taken, found, countIn, setWorkloadBudget]

theorem giveBack_counters (account : Account) (index : Nat) (permit : Bool) :
    (account.giveBack index permit).definition = account.definition ∧
      (account.giveBack index permit).appBudget = account.appBudget.free ∧
      (account.giveBack index permit).inFlight = account.inFlight - 1 ∧
      (account.giveBack index permit).liveByWorkload =
        account.liveByWorkload.modify index (fun live => live - 1) := by
  cases found : account.workloadBudget index <;> cases permit <;>
    simp [giveBack, found, countOut, setWorkloadBudget]

theorem Balanced.taken_balanced (balanced : account.Balanced live liveAt children) {index : Nat}
    (inside : index < account.liveByWorkload.length) (app : account.appBudget.available ≠ 0)
    (workload : ∀ budget, account.workloadBudget index = some budget → budget.available ≠ 0) :
    (account.taken index).Balanced (live + 1) (bump liveAt index) children := by
  obtain ⟨definition, budget, inFlight, counters⟩ := taken_counters account index
  constructor
  · have before := balanced.app
    rw [budget]
    simp only [Budget.acquired]
    omega
  · intro other found present
    rw [workloadBudget_taken] at present
    simp only [bump]
    split at present
    · rename_i same
      rw [map_eq_some_iff] at present
      obtain ⟨old, before, rfl⟩ := present
      have left := workload old before
      have balance := balanced.workload index old before
      rw [if_pos same, same]
      simp only [Budget.acquired]
      omega
    · rename_i different
      rw [if_neg different]
      exact balanced.workload other found present
  · intro other count found
    rw [counters, getElem?_modify] at found
    simp only [bump]
    by_cases same : other = index
    · subst other
      simp only [if_true, Option.map_eq_map, Option.map_eq_some_iff] at found ⊢
      obtain ⟨old, before, rfl⟩ := found
      rw [balanced.counted index old before]
    · simp only [Ne.symm same, if_false, Option.map_eq_map, Option.map_id'] at found
      rw [if_neg same]
      exact balanced.counted other count (by simpa using found)
  · have before := balanced.inFlight
    have sum := Tally.sum_modify (· + 1) (List.getElem?_eq_getElem inside)
    rw [inFlight, counters]
    omega
  · rw [counters, definition, length_modify]
    exact balanced.shape

theorem giveBack_balanced {index : Nat}
    (balanced : account.Balanced (live + 1) (bump liveAt index) children)
    (inside : index < account.liveByWorkload.length) {permit : Bool}
    (held : permit = (account.workloadBudget index).isSome) :
    (account.giveBack index permit).Balanced live liveAt children := by
  obtain ⟨definition, budget, inFlight, counters⟩ := giveBack_counters account index permit
  have present : account.liveByWorkload[index]? = some (liveAt index + 1) := by
    have found := getElem?_eq_getElem inside
    have counted := balanced.counted index _ found
    simp only [bump, if_true] at counted
    rw [found, counted]
  constructor
  · have before := balanced.app
    rw [budget]
    simp only [Budget.free]
    omega
  · intro other found after
    rw [workloadBudget_giveBack _ _ _ _ held] at after
    split at after
    · rename_i same
      rw [map_eq_some_iff] at after
      obtain ⟨old, before, rfl⟩ := after
      have balance := balanced.workload index old before
      simp only [bump, if_true] at balance
      rw [same]
      simp only [Budget.free]
      omega
    · rename_i different
      have balance := balanced.workload other found after
      simpa only [bump, if_neg different] using balance
  · intro other count found
    rw [counters, getElem?_modify] at found
    by_cases same : other = index
    · subst other
      simp only [if_true, Option.map_eq_map, Option.map_eq_some_iff] at found
      obtain ⟨_, before, rfl⟩ := found
      rw [present, some.injEq] at before
      omega
    · have before := balanced.counted other count (by simpa [Ne.symm same] using found)
      simpa only [bump, if_neg same] using before
  · have before := balanced.inFlight
    have sum := Tally.sum_modify (· - 1) present
    rw [inFlight, counters]
    omega
  · rw [counters, definition, length_modify]
    exact balanced.shape

end Account

end Usai.Admission
