import Usai.Http.Serving
import Usai.Manifest.Application
import Usai.Manifest.Fidelity

/-! The three numberings of an application's workloads: the host's index by id, the routes
of a compiled revision, and the list of the dispatcher in the world. -/

namespace Usai.Http

open Fallible FiniteMap List Option

open Build (ApplicationDefinition Code checkWorkload)
open Manifest (App Declared Listed ManifestWorkload Stringify workloadId)

def readEntry {Schema : Type} (entry : ManifestWorkload (Contracts Schema)) :
    Option (DeclaredWorkload Schema) := do
  let spec ← Manifest.WorkloadSpec.deserialize entry.run
  some ⟨spec.id, spec.name, spec.trigger, entry.contracts, entry.auth, entry.resources,
    spec.maxBodyBytes⟩

section

variable {Value : Type} {manifest : Build.Manifest Value} {index next : FiniteMap String Nat}
  {workload : Build.WorkloadSpec}

theorem checkWorkload_cases (checked : checkWorkload manifest index workload ordinal = .ok next) :
    index.lookup workload.id = none ∧ next = index.insert workload.id ordinal := by
  simp only [checkWorkload] at checked
  split at checked
  · cases checked
  split at checked
  · cases checked
  rename_i fresh
  split at checked
  · cases checked
  split at checked
  · cases checked
  split at checked <;> cases checked
  exact ⟨not_isSome_iff_eq_none.mp fresh, rfl⟩

theorem checked_index {workloads : List Build.WorkloadSpec}
    (checked : (workloads.zipIdx first).foldlM
      (fun index entry => checkWorkload manifest index entry.1 entry.2) index = .ok next) :
    (∀ id found, index.lookup id = some found → next.lookup id = some found) ∧
      ∀ (position : Nat) workload, workloads[position]? = some workload →
        next.lookup workload.id = some (first + position) := by
  induction workloads generalizing first index with
  | nil =>
    cases checked
    exact ⟨fun _ _ found => found, fun _ _ found => nomatch found⟩
  | cons _ _ ih =>
    obtain ⟨_, here, checked⟩ := bind_ok_cases checked
    obtain ⟨fresh, rfl⟩ := checkWorkload_cases here
    obtain ⟨kept, found⟩ := ih checked
    refine ⟨?_, ?_⟩
    · intro id value present
      refine kept id value ?_
      rw [lookup_insert_eq, if_neg, present]
      rintro rfl
      rw [fresh] at present
      cases present
    · intro position other there
      cases position with
      | zero =>
        cases there
        exact kept _ _ (by rw [lookup_insert_eq, if_pos rfl, Nat.add_zero])
      | succ position =>
        rw [found position other there]
        congr 1
        omega

variable {Map : Type}

theorem definition_index (accepted : ApplicationDefinition.new manifest code = .ok definition)
    (found : manifest.workloads[position]? = some workload) :
    definition.index.lookup workload.id = some position := by
  simp only [ApplicationDefinition.new] at accepted
  split at accepted
  · cases accepted
  split at accepted
  · cases accepted
  split at accepted
  · cases accepted
  obtain ⟨_, checked, accepted⟩ := bind_ok_cases accepted
  split at accepted <;> cases accepted
  rw [(checked_index checked).2 position workload found, Nat.zero_add]

end

section

variable {Schema : Type} {workloads : List (RoutedWorkload Schema)} {entry : Entry}

theorem mem_entries : entry ∈ entries workloads ↔
    ∃ workload endpoint, workloads[entry.route.index]? = some workload ∧
      Http.endpoint workload.trigger = some endpoint ∧ entry = endpoint.entry entry.route.index := by
  unfold entries
  rw [mem_filterMap]
  constructor
  · rintro ⟨⟨workload, index⟩, member, made⟩
    obtain ⟨endpoint, reads, rfl⟩ := map_eq_some_iff.mp made
    exact ⟨workload, endpoint, mk_mem_zipIdx_iff_getElem?.mp member, reads, rfl⟩
  · rintro ⟨workload, _, found, reads, same⟩
    refine ⟨(workload, entry.route.index), mk_mem_zipIdx_iff_getElem?.mpr found, ?_⟩
    rw [reads, map_some, ← same]

end

section

variable {Body Schema : Type} {stringify : Stringify} {contracts : Body → Contracts Schema}

structure Reads (stringify : Stringify) (listed : Listed (Declared Body))
    (spec : DeclaredWorkload Schema) : Prop where
  id : spec.id = workloadId listed.value.workload
  trigger : Manifest.Trigger.deserialize (Manifest.trigger stringify listed.value.workload) =
    some spec.trigger

theorem describe_reads (described : Manifest.describe stringify listed.value.workload = .ok run)
    (same : entry.run = run)
    (read : readEntry entry = some spec) :
    Reads stringify listed spec := by
  obtain ⟨_, _, wrote⟩ := bind_ok_cases described
  cases wrote
  obtain ⟨_, deserialized, built⟩ := bind_eq_some_iff.mp read
  cases built
  rw [same, Manifest.deserialize_entry] at deserialized
  obtain ⟨_, reads, rest⟩ := bind_eq_some_iff.mp deserialized
  obtain ⟨_, _, rest⟩ := bind_eq_some_iff.mp rest
  obtain ⟨_, _, rest⟩ := bind_eq_some_iff.mp rest
  obtain ⟨_, _, rest⟩ := bind_eq_some_iff.mp rest
  cases rest
  exact ⟨rfl, reads⟩

theorem describeWorkloads_reads {entries : List (ManifestWorkload (Contracts Schema))}
    (described : Manifest.describeWorkloads stringify contracts schemes workloads = .ok entries)
    (read : entries.mapM readEntry = some specs) :
    List.Forall₂ (Reads stringify) workloads specs := by
  induction workloads generalizing schemes entries specs with
  | nil =>
    cases described
    cases read
    exact .nil
  | cons _ _ ih =>
    obtain ⟨_, _, described⟩ := bind_ok_cases described
    obtain ⟨_, describes, described⟩ := bind_ok_cases described
    obtain ⟨_, follows, same⟩ := bind_ok_cases described
    cases same
    rw [mapM_cons] at read
    obtain ⟨_, first, read⟩ := bind_eq_some_iff.mp read
    obtain ⟨_, reads, same⟩ := bind_eq_some_iff.mp read
    cases same
    exact .cons (describe_reads describes rfl first) (ih follows reads)

end

section

theorem getElem?_of_forall₂ {First Second : Type} {related : First → Second → Prop}
    {firsts : List First} {seconds : List Second} (all : List.Forall₂ related firsts seconds)
    {position : Nat} {first : First} (found : firsts[position]? = some first) :
    ∃ second, seconds[position]? = some second ∧ related first second := by
  induction all generalizing position with
  | nil => cases found
  | cons here _ ih =>
    cases position with
    | zero =>
      cases found
      exact ⟨_, rfl, here⟩
    | succ => exact ih found

variable {Body Config Schema Map : Type}

theorem dispatch_eq (flattened : Manifest.flatten app = .ok flat)
    (found : flat.workloads[index]? = some listed) : app.dispatch index = .ok listed := by
  rw [App.dispatch, flattened]
  simp only [bind, Except.bind, found]

/-- Every workload is dispatched to itself: by the index that the host has for its id, and by
the route that is compiled from its trigger. No route leads anywhere else. -/
theorem dispatch_agrees (stringify : Stringify) (contracts : Body → Contracts Schema)
    (app : App Body) (flat : Manifest.Flattened Body) (manifest : DeclaredManifest Config Schema)
    (entries : List (ManifestWorkload (Contracts Schema))) (code : Code)
    (definition : ApplicationDefinition Unit Map)
    (flattened : Manifest.flatten app = .ok flat)
    (described : Manifest.describeApp stringify contracts app = .ok entries)
    (read : entries.mapM readEntry = some manifest.workloads)
    (accepted : ApplicationDefinition.new manifest.checked code = .ok definition) :
    (∀ listed ∈ flat.workloads,
      (∃ index, definition.index.lookup (workloadId listed.value.workload) = some index ∧
        app.dispatch index = .ok listed) ∧
      ∀ trigger endpoint,
        Manifest.Trigger.deserialize (Manifest.trigger stringify listed.value.workload) =
          some trigger → Http.endpoint trigger = some endpoint →
        ∃ entry ∈ Http.entries manifest.routed, entry = endpoint.entry entry.route.index ∧
          app.dispatch entry.route.index = .ok listed) ∧
    ∀ entry ∈ Http.entries manifest.routed, ∃ listed trigger endpoint,
      app.dispatch entry.route.index = .ok listed ∧
      Manifest.Trigger.deserialize (Manifest.trigger stringify listed.value.workload) =
        some trigger ∧
      Http.endpoint trigger = some endpoint ∧ entry = endpoint.entry entry.route.index := by
  obtain ⟨_, again, describes⟩ := bind_ok_cases described
  cases flattened.symm.trans again
  have reads := describeWorkloads_reads describes read
  refine ⟨?_, ?_⟩
  · intro listed member
    obtain ⟨position, found⟩ := mem_iff_getElem?.mp member
    obtain ⟨spec, there, reads⟩ := getElem?_of_forall₂ reads found
    have selects := dispatch_eq flattened found
    refine ⟨⟨position, ?_, selects⟩, ?_⟩
    · have checked : manifest.checked.workloads[position]? = some spec.checked := by
        rw [DeclaredManifest.checked, getElem?_map, there, map_some]
      rw [← reads.id]
      exact definition_index accepted checked
    · intro trigger endpoint deserialized serves
      cases reads.trigger.symm.trans deserialized
      have routed : manifest.routed[position]? = some ⟨spec.id, spec.trigger, spec.contracts⟩ := by
        rw [DeclaredManifest.routed, getElem?_map, there, map_some]
      exact ⟨endpoint.entry position, mem_entries.mpr ⟨_, endpoint, routed, serves, rfl⟩, rfl,
        selects⟩
  · intro entry member
    obtain ⟨_, endpoint, found, serves, made⟩ := mem_entries.mp member
    rw [DeclaredManifest.routed, getElem?_map] at found
    obtain ⟨spec, there, rfl⟩ := map_eq_some_iff.mp found
    obtain ⟨listed, here, reads⟩ := getElem?_of_forall₂ reads.flip there
    exact ⟨listed, spec.trigger, endpoint, dispatch_eq flattened here, reads.trigger, serves, made⟩

def shop : App Unit :=
  let declared (workload : Manifest.Workload) : Declared Unit := ⟨workload, [], none, ()⟩
  let unbounded : Manifest.Policies := ⟨none, none, none⟩
  { name := "shop"
    object := fun _ => ⟨"base", [.ok (declared ⟨.task, "clean", {}, unbounded⟩),
      .ok (declared (Manifest.declare .get "/users/:id" unbounded))], []⟩
    modules := [.ok 0, .ok 0]
    workloads := [.ok (declared (Manifest.declare .post "/users" unbounded))]
    resources := [] }

def shopManifest : DeclaredManifest Unit Unit :=
  { usersManifest [] with
    workloads := [⟨"task:clean", "clean", .task, ⟨none, none, none, none⟩, none, [], none⟩] ++
      (usersManifest [("GET", "/users/:id"), ("POST", "/users")]).workloads }

theorem dispatch_agrees_shop : (Http.entries shopManifest.routed).length = 2 ∧
    ∀ entry ∈ Http.entries shopManifest.routed, ∃ listed trigger endpoint,
      shop.dispatch entry.route.index = .ok listed ∧
      Manifest.Trigger.deserialize (Manifest.trigger .plain listed.value.workload) = some trigger ∧
      Http.endpoint trigger = some endpoint ∧ entry = endpoint.entry entry.route.index :=
  ⟨rfl, (dispatch_agrees .plain (fun _ => ⟨none, none, none, none⟩) shop _ shopManifest _ usersCode
    (_ : ApplicationDefinition Unit Unit) rfl rfl rfl rfl).2⟩

end

end Usai.Http
