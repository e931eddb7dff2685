import Usai.Fallible
import Usai.Manifest.Describe

/-! What a declaration says, and when the host reads just that from the entry
that `describe` writes for it. -/

namespace Usai.Manifest

open Fallible List Option

def integer (width : Nat) (value : Num) : Option Nat :=
  match value with
  | .finite value => Json.unsigned width (.number value)
  | .infinity _ | .nan => none

def Duration.milliseconds : Duration → Option Nat
  | .number value => integer 64 value
  | .text value => (scan value).bind (fun scanned =>
    Json.unsigned 64 (.number (scanned.1 * scanned.2)))

def RetryOptions.policy (retry : RetryOptions) : Option RetryPolicy := do
  let maxAttempts ← integer 32 retry.maxAttempts
  let baseMs ← integer 64 (retry.baseMs.getD (.finite 1000))
  some ⟨maxAttempts, (retry.backoff.getD .fixed).text, baseMs⟩

def RestartOptions.policy (restart : RestartOptions) : Option RestartPolicy := do
  let backoffMs ← integer 64 (restart.backoffMs.getD (.finite 1000))
  let maxRestarts ← integer 32 (restart.maxRestarts.getD (.finite 10))
  some ⟨restart.mode.text, backoffMs, maxRestarts⟩

namespace Declaration

def policies : Declaration → Policies
  | .http _ _ policies | .raw _ _ _ policies | .stream _ _ _ policies | .socket _ policies
  | .task _ policies | .cron _ _ policies | .command _ policies => policies
  | .consume _ _ timeout maxBodyBytes => ⟨timeout, none, maxBodyBytes⟩
  | .service _ options => ⟨options.timeout, none, none⟩

def declaredTrigger : Declaration → Option Trigger
  | .http method path _ => some (.http method.text path false [])
  | .raw path method responses _ => do
      let entries ← statuses (responses.getD [])
      if (entries.map Prod.fst).Nodup then
        some (.http (method.getD .post).text path true (collected entries))
      else none
  | .stream path method contentType _ => some (.stream (method.getD .get).text path contentType)
  | .socket path _ => some (.socket path)
  | .task _ _ => some .task
  | .cron _ options _ => some (.cron options.schedule none (options.overlap.getD .skip)
      (options.exclusive.any Exclusive.asked) (options.exclusive.bind Exclusive.name))
  | .consume topic options _ _ => do
      let concurrency ← integer 32 (options.concurrency.getD (.finite 1))
      let retry ← options.retry.elim (some .default) RetryOptions.policy
      some (.queue topic concurrency options.database retry)
  | .service _ options => do
      let restart ← options.restart.elim (some .default) RestartOptions.policy
      let leaseMs ← options.leaseMs.mapM (integer 64)
      some (.service restart (options.exclusive = some true) options.database leaseMs)
  | .command _ _ => some .command

def label : Declaration → String × String
  | .http method path _ => ("http:" ++ method.text ++ " " ++ path, method.text ++ " " ++ path)
  | .raw path method _ _ =>
    ("http:" ++ (method.getD .post).text ++ " " ++ path, (method.getD .post).text ++ " " ++ path)
  | .stream path method _ _ =>
    ("stream:" ++ (method.getD .get).text ++ " " ++ path, (method.getD .get).text ++ " " ++ path)
  | .socket path _ => ("socket:" ++ path, path)
  | .task name _ => ("task:" ++ name, name)
  | .cron name _ _ => ("cron:" ++ name, name)
  | .consume topic _ _ _ => ("queue:" ++ topic, topic)
  | .service name _ => ("service:" ++ name, name)
  | .command name _ => ("command:" ++ name, name)

def declared (declaration : Declaration) : Option WorkloadSpec := do
  let trigger ← declaration.declaredTrigger
  let maxConcurrency ← declaration.policies.concurrency.mapM (integer 32)
  let timeoutMs ← declaration.policies.timeout.mapM Duration.milliseconds
  let maxBodyBytes ← declaration.policies.maxBodyBytes.mapM (integer 64)
  some ⟨declaration.label.1, declaration.label.2, trigger, maxConcurrency, timeoutMs, maxBodyBytes⟩

end Declaration

def Agree {Value : Type} (first second : Option Value) : Prop :=
  ∃ value, first = some value ∧ second = some value

variable {Value Part : Type}

theorem agree_some (first second : Value) :
    Agree (some first) (some second) ↔ first = second := by
  constructor
  · rintro ⟨_, left, right⟩
    exact (some.inj left).trans (some.inj right).symm
  · rintro rfl
    exact ⟨first, rfl, rfl⟩

theorem agree_self {reading : Option Value} :
    Agree reading reading ↔ reading.isSome = true := by
  rw [isSome_iff_exists]
  simp only [Agree, and_self]

theorem agree_read {first second said : Option Value} (same : first = second) :
    Agree first said ↔ Agree second said := by
  rw [same]

theorem agree_map {first second : Option Part} {build : Part → Value}
    (apart : Function.Injective build) :
    Agree (first.map build) (second.map build) ↔ Agree first second := by
  constructor
  · rintro ⟨_, read, said⟩
    obtain ⟨one, found, rfl⟩ := map_eq_some_iff.mp read
    obtain ⟨_, there, same⟩ := map_eq_some_iff.mp said
    cases apart same
    exact ⟨one, found, there⟩
  · rintro ⟨part, found, there⟩
    exact ⟨build part, by rw [found]; rfl, by rw [there]; rfl⟩

theorem agree_pair {First Second : Type} {first first' : Option First}
    {second second' : Option Second} {build : First → Second → Value}
    (apart : Function.Injective2 build) :
    Agree (first.bind (fun one => second.bind (fun two => some (build one two))))
        (first'.bind (fun one => second'.bind (fun two => some (build one two)))) ↔
      Agree first first' ∧ Agree second second' := by
  constructor
  · intro ⟨value, read, said⟩
    obtain ⟨one, here, read⟩ := bind_eq_some_iff.mp read
    obtain ⟨two, there, same⟩ := bind_eq_some_iff.mp read
    obtain ⟨_, here', said⟩ := bind_eq_some_iff.mp said
    obtain ⟨_, there', same'⟩ := bind_eq_some_iff.mp said
    obtain ⟨rfl, rfl⟩ := apart (some.inj (same.trans same'.symm))
    exact ⟨⟨one, here, here'⟩, ⟨two, there, there'⟩⟩
  · intro ⟨⟨one, here, here'⟩, ⟨two, there, there'⟩⟩
    refine ⟨build one two, ?_, ?_⟩
    · rw [here, there]
      rfl
    · rw [here', there']
      rfl

section

variable (stringify : Stringify) {read : Part → Option Value}

/-- The number is an integer that the host's type has, and it is written with
all its digits. -/
def NumberKept (width : Nat) (value : Num) : Prop :=
  ∃ integer : ℕ, integer < 2 ^ width ∧ value = .finite integer ∧ stringify.number integer = integer

/-- The amount times its unit is a whole number of milliseconds, and so is what
the arithmetic of the SDK and the writing of it make of the two. -/
def DurationKept : Duration → Prop
  | .number value => NumberKept stringify 64 value
  | .text text => ∃ amount factor value, ∃ integer : ℕ, Duration.scan text = some (amount, factor) ∧
      amount * factor = integer ∧ integer < 2 ^ 64 ∧
      Duration.convert amount factor = .finite value ∧ stringify.number value = integer

theorem small_kept {width value : Nat} (bound : value < 2 ^ width) (small : value ≤ 2 ^ 53) :
    NumberKept stringify width (.finite value) :=
  ⟨value, bound, rfl, stringify.exact value small⟩

theorem agree_number (width : Nat) (value : Num) :
    Agree (Json.unsigned width (stringify.json value)) (integer width value) ↔
      NumberKept stringify width value := by
  constructor
  · rintro ⟨result, read, said⟩
    cases value with
    | finite =>
      obtain ⟨written, _⟩ := Json.unsigned_eq_some_iff.mp read
      obtain ⟨rfl, bound⟩ := Json.unsigned_eq_some_iff.mp said
      exact ⟨result, bound, rfl, written⟩
    | infinity => cases said
    | nan => cases said
  · rintro ⟨result, bound, rfl, written⟩
    exact ⟨result, Json.unsigned_eq_some_iff.mpr ⟨written, bound⟩,
      Json.unsigned_eq_some_iff.mpr ⟨rfl, bound⟩⟩

theorem agree_written (width : Nat) (value : Num) (said : Option Nat) :
    Agree (Json.optional (Json.unsigned width) (stringify.json value)) (said.map some) ↔
      Agree (Json.unsigned width (stringify.json value)) said := by
  have null : ¬ Agree (some none) (said.map some) := by
    rintro ⟨result, read, same⟩
    cases read
    obtain ⟨_, _, none⟩ := map_eq_some_iff.mp same
    cases none
  have nothing : ¬ Agree none said := by
    rintro ⟨_, read, _⟩
    cases read
  cases value with
  | finite => exact agree_map (Option.some_injective Nat)
  | infinity | nan => exact iff_of_false null nothing

theorem mapM_some (read : Part → Option Value) (part : Part) :
    (some part).mapM read = (read part).map some := by
  rw [Option.mapM_some]
  cases read part <;> rfl

theorem mapM_none_iff {part : Option Part} :
    part.mapM read = some none ↔ part = none := by
  cases part with
  | none => exact iff_of_true rfl rfl
  | some part =>
    cases read part <;> simp

theorem forall_given {property : Value → Prop} {value : Value} :
    (∀ given ∈ some value, property given) ↔ property value := by
  simp only [mem_some_iff, forall_eq']

theorem agree_optional (width : Nat) (value : Option Num) :
    Agree (Json.written (Json.unsigned width) (value.map stringify.json))
        (value.mapM (integer width)) ↔
      ∀ given ∈ value, NumberKept stringify width given := by
  cases value with
  | none => exact iff_of_true ⟨none, rfl, rfl⟩ (by nofun)
  | some =>
    rw [forall_given, ← agree_number, ← agree_written, mapM_some]
    rfl

theorem agree_duration {text : String} {amount : ℚ} {factor : ℕ}
    (scanned : Duration.scan text = some (amount, factor)) :
    Agree (Json.unsigned 64 (stringify.json (Duration.convert amount factor)))
        (Json.unsigned 64 (.number (amount * factor))) ↔ DurationKept stringify (.text text) := by
  constructor
  · rintro ⟨result, read, said⟩
    obtain ⟨whole, bound⟩ := Json.unsigned_eq_some_iff.mp said
    cases converted : Duration.convert amount factor with
    | finite value =>
      rw [converted] at read
      obtain ⟨written, _⟩ := Json.unsigned_eq_some_iff.mp read
      exact ⟨amount, factor, value, result, scanned, whole, bound, converted, written⟩
    | infinity | nan =>
      rw [converted] at read
      cases read
  · rintro ⟨_, _, _, result, again, whole, bound, converted, written⟩
    cases scanned.symm.trans again
    rw [converted]
    exact ⟨result, Json.unsigned_eq_some_iff.mpr ⟨written, bound⟩,
      Json.unsigned_eq_some_iff.mpr ⟨whole, bound⟩⟩

theorem agree_timeout {timeout : Option Duration} {timeoutMs : Option Num}
    (parsed : timeout.mapM (parseDuration stringify) = .ok timeoutMs) :
    Agree (Json.written (Json.unsigned 64) (timeoutMs.map stringify.json))
        (timeout.mapM Duration.milliseconds) ↔
      ∀ given ∈ timeout, DurationKept stringify given := by
  cases timeout with
  | none =>
    cases parsed
    exact iff_of_true ⟨none, rfl, rfl⟩ (by nofun)
  | some duration =>
    rw [forall_given, mapM_some]
    cases duration with
    | number value =>
      cases parsed
      exact (agree_written stringify 64 value _).trans (agree_number stringify 64 value)
    | text text =>
      cases scanned : Duration.scan text with
      | none =>
        simp only [Option.mapM_some, parseDuration, scanned] at parsed
        cases parsed
      | some pair =>
        simp only [Option.mapM_some, parseDuration, scanned] at parsed
        cases parsed
        simp only [Duration.milliseconds, scanned, bind_some]
        exact (agree_written stringify 64 _ _).trans (agree_duration stringify scanned)

end

theorem agree_spec {trigger trigger' : Option Trigger}
    {maxConcurrency maxConcurrency' timeoutMs timeoutMs' maxBodyBytes maxBodyBytes' :
      Option (Option Nat)} (id name : String) :
    Agree
      (do
        let trigger ← trigger
        let maxConcurrency ← maxConcurrency
        let timeoutMs ← timeoutMs
        let maxBodyBytes ← maxBodyBytes
        some (⟨id, name, trigger, maxConcurrency, timeoutMs, maxBodyBytes⟩ : WorkloadSpec))
      (do
        let trigger ← trigger'
        let maxConcurrency ← maxConcurrency'
        let timeoutMs ← timeoutMs'
        let maxBodyBytes ← maxBodyBytes'
        some ⟨id, name, trigger, maxConcurrency, timeoutMs, maxBodyBytes⟩) ↔
      Agree trigger trigger' ∧ Agree maxConcurrency maxConcurrency' ∧ Agree timeoutMs timeoutMs' ∧
        Agree maxBodyBytes maxBodyBytes' := by
  constructor
  · intro ⟨spec, read, said⟩
    obtain ⟨first, here, read⟩ := bind_eq_some_iff.mp read
    obtain ⟨second, there, read⟩ := bind_eq_some_iff.mp read
    obtain ⟨third, more, read⟩ := bind_eq_some_iff.mp read
    obtain ⟨fourth, last, same⟩ := bind_eq_some_iff.mp read
    cases same
    obtain ⟨_, here', said⟩ := bind_eq_some_iff.mp said
    obtain ⟨_, there', said⟩ := bind_eq_some_iff.mp said
    obtain ⟨_, more', said⟩ := bind_eq_some_iff.mp said
    obtain ⟨_, last', same⟩ := bind_eq_some_iff.mp said
    cases same
    exact ⟨⟨first, here, here'⟩, ⟨second, there, there'⟩, ⟨third, more, more'⟩,
      ⟨fourth, last, last'⟩⟩
  · intro ⟨⟨first, here, here'⟩, ⟨second, there, there'⟩, ⟨third, more, more'⟩,
      ⟨fourth, last, last'⟩⟩
    refine ⟨⟨id, name, first, second, third, fourth⟩, ?_, ?_⟩
    · rw [here, there, more, last]
      rfl
    · rw [here', there', more', last']
      rfl

theorem deserialize_entry (id name : String) (trigger : Json)
    (maxConcurrency timeoutMs maxBodyBytes : Option Json) :
    WorkloadSpec.deserialize (.object ([("id", .string id), ("name", .string name),
        ("trigger", trigger)] ++ Json.given "maxConcurrency" maxConcurrency ++
        Json.given "timeoutMs" timeoutMs ++ Json.given "maxBodyBytes" maxBodyBytes)) =
      (do
        let trigger ← Trigger.deserialize trigger
        let maxConcurrency ← Json.written (Json.unsigned 32) maxConcurrency
        let timeoutMs ← Json.written (Json.unsigned 64) timeoutMs
        let maxBodyBytes ← Json.written (Json.unsigned 64) maxBodyBytes
        some ⟨id, name, trigger, maxConcurrency, timeoutMs, maxBodyBytes⟩) := by
  cases maxConcurrency <;> cases timeoutMs <;> cases maxBodyBytes <;> rfl

section

variable (stringify : Stringify)

def RetryOptions.Kept (retry : RetryOptions) : Prop :=
  NumberKept stringify 32 retry.maxAttempts ∧ ∀ given ∈ retry.baseMs, NumberKept stringify 64 given

def RestartOptions.Kept (restart : RestartOptions) : Prop :=
  (∀ given ∈ restart.backoffMs, NumberKept stringify 64 given) ∧
    ∀ given ∈ restart.maxRestarts, NumberKept stringify 32 given

namespace Declaration

/-- The options of a kind that reach the host. An exclusive service does not,
nor does the database or the lease time of a service; an empty media type or
database name is dropped. -/
def TriggerKept : Declaration → Prop
  | .http _ _ _ | .socket _ _ | .task _ _ | .command _ _ => True
  | .raw _ _ responses _ =>
    ∃ entries, statuses (responses.getD []) = some entries ∧ (entries.map Prod.fst).Nodup
  | .stream _ _ contentType _ => contentType ≠ some ""
  | .cron _ options _ => options.exclusive ≠ some (.database "")
  | .consume _ options _ _ =>
    (∀ given ∈ options.concurrency, NumberKept stringify 32 given) ∧
      ∀ retry ∈ options.retry, retry.Kept stringify
  | .service _ options =>
    (options.exclusive ≠ some true ∧ options.database = none ∧ options.leaseMs = none) ∧
      ∀ restart ∈ options.restart, restart.Kept stringify

end Declaration

theorem agree_default (width value : Nat) (bound : value < 2 ^ width) (small : value ≤ 2 ^ 53)
    (given : Option Num) :
    Agree (Json.unsigned width (stringify.json (given.getD (.finite value))))
        (integer width (given.getD (.finite value))) ↔
      ∀ number ∈ given, NumberKept stringify width number := by
  rw [agree_number]
  cases given with
  | none => exact iff_of_true (small_kept stringify bound small) (by nofun)
  | some => exact forall_given.symm

theorem truthy_eq_self_iff (value : Option String) : truthy value = value ↔ value ≠ some "" := by
  cases value with
  | none => exact iff_of_true rfl (by nofun)
  | some text =>
    unfold truthy
    by_cases empty : text = "" <;> simp [empty]

theorem truthy_truthy (value : Option String) : truthy (truthy value) = truthy value := by
  unfold truthy
  rw [Option.filter_filter]
  simp only [Bool.and_self]

theorem asked_getD (value : Option Bool) : (asked (asked value)).getD false = value.getD false := by
  rcases value with _ | _ | _ <;> rfl

variable {workload : Workload} {declaration : Declaration}

theorem refused_cases {kind name : String} {bound : Option Num} {rest : Workload}
    (made : (refuseBodyBound kind name bound).bind (fun _ => .ok rest) = .ok workload) :
    bound = none ∧ workload = rest := by
  cases bound with
  | none => exact ⟨rfl, (Except.ok.inj made).symm⟩
  | some => cases made

theorem deserialize_stream (method path : String) (contentType : Option String) :
    Trigger.deserialize (.object ([("kind", .string "stream")] ++
        Json.given "method" (some (.string method)) ++ Json.given "path" (some (.string path)) ++
        Json.given "content_type" (contentType.map .string))) =
      some (.stream method path contentType) := by
  cases contentType <;> rfl

theorem deserialize_cron (schedule : String) (overlap : OverlapPolicy) (exclusive : Option Bool)
    (database : Option String) :
    Trigger.deserialize (.object ([("kind", .string "cron")] ++
        Json.given "schedule" (some (.string schedule)) ++ [("overlap", overlap.json)] ++
        Json.given "exclusive" (exclusive.map .bool) ++
        Json.given "database" (database.map .string))) =
      some (.cron schedule none overlap (exclusive.getD false) database) := by
  cases overlap <;> cases exclusive <;> cases database <;> rfl

theorem deserialize_queue (topic : String) (concurrency : Json) (database : Option String)
    (retry : Option Json) :
    Trigger.deserialize (.object ([("kind", .string "queue")] ++
        Json.given "topic" (some (.string topic)) ++ [("concurrency", concurrency)] ++
        Json.given "database" (database.map .string) ++ Json.given "retry" retry)) =
      (Json.unsigned 32 concurrency).bind (fun concurrency =>
        (retry.elim (some .default) RetryPolicy.deserialize).bind (fun retry =>
          some (.queue topic concurrency database retry))) := by
  cases database <;> cases retry <;> rfl

theorem deserialize_service (restart : Option Json) :
    Trigger.deserialize (.object ([("kind", .string "service")] ++ Json.given "restart" restart)) =
      (restart.elim (some .default) RestartPolicy.deserialize).bind (fun restart =>
        some (.service restart false none none)) := by
  cases restart <;> rfl

theorem statusKeyed_json (responses : List (String × String)) :
    statusKeyed (responsesJson responses) = (statuses responses).map collected := by
  have texts : (responses.map (fun response => (response.1, Json.string response.2))).mapM
      (fun member => member.2.text.map (fun text => (member.1, text))) = some responses := by
    rw [mapM_map]
    exact mapM_pure.trans (congrArg some (map_id responses))
  simp only [statusKeyed, responsesJson, texts]
  exact map_eq_bind.symm

theorem deserialize_http (method path : String) (raw : Bool)
    (responses : Option (List (String × String))) :
    Trigger.deserialize (.object ([("kind", .string "http")] ++
        Json.given "method" (some (.string method)) ++ Json.given "path" (some (.string path)) ++
        [("raw", .bool raw)] ++ Json.given "responses" (responses.map responsesJson))) =
      (statusKeyed (responsesJson (responses.getD []))).bind (fun responses =>
        some (.http method path raw responses)) := by
  cases responses <;> rfl

theorem agree_service {read said : Option RestartPolicy} {exclusive : Bool}
    {database : Option String} {leaseMs : Option (Option Nat)} :
    Agree (read.bind (fun restart => some (.service restart false none none)))
        (said.bind (fun restart => leaseMs.bind (fun leaseMs =>
          some (Trigger.service restart exclusive database leaseMs)))) ↔
      (exclusive = false ∧ database = none ∧ leaseMs = some none) ∧ Agree read said := by
  constructor
  · intro ⟨trigger, found, declared⟩
    obtain ⟨one, here, found⟩ := bind_eq_some_iff.mp found
    cases found
    obtain ⟨_, there, declared⟩ := bind_eq_some_iff.mp declared
    obtain ⟨_, rfl, same⟩ := bind_eq_some_iff.mp declared
    cases same
    exact ⟨⟨rfl, rfl, rfl⟩, one, here, there⟩
  · rintro ⟨⟨rfl, rfl, rfl⟩, restart, here, there⟩
    refine ⟨.service restart false none none, ?_, ?_⟩
    · rw [here]
      rfl
    · rw [there]
      rfl

theorem agree_trigger (made : declaration.workload = .ok workload) :
    Agree (Trigger.deserialize (trigger stringify workload)) declaration.declaredTrigger ↔
      declaration.TriggerKept stringify := by
  cases declaration with
  | http =>
    cases made
    exact iff_of_true ⟨_, rfl, rfl⟩ trivial
  | socket | task | command =>
    obtain ⟨_, rfl⟩ := refused_cases made
    exact iff_of_true ⟨_, rfl, rfl⟩ trivial
  | raw path method responses _ =>
    cases made
    refine (agree_read (deserialize_http (method.getD .post).text path true responses)).trans ?_
    rw [statusKeyed_json, Declaration.TriggerKept, Declaration.declaredTrigger]
    cases statuses (responses.getD []) with
    | none => simp [Agree]
    | some entries =>
      by_cases distinct : (entries.map Prod.fst).Nodup <;> simp [Agree, distinct]
  | stream path method contentType _ =>
    obtain ⟨_, rfl⟩ := refused_cases made
    refine (agree_read (deserialize_stream (method.getD .get).text path
      (truthy (truthy contentType)))).trans ?_
    rw [truthy_truthy]
    refine (agree_some _ _).trans (Iff.trans ?_ (truthy_eq_self_iff contentType))
    simp only [Trigger.stream.injEq, true_and]
  | cron name options _ =>
    obtain ⟨_, rfl⟩ := refused_cases made
    refine (agree_read (deserialize_cron options.schedule (options.overlap.getD .skip)
      (asked (asked (options.exclusive.map Exclusive.asked)))
      (truthy (options.exclusive.bind Exclusive.name)))).trans ((agree_some _ _).trans ?_)
    rw [asked_getD]
    simp only [Trigger.cron.injEq, true_and]
    obtain ⟨_, _, exclusive⟩ := options
    rcases exclusive with _ | _ | database
    · exact iff_of_true ⟨rfl, rfl⟩ (by nofun)
    · exact iff_of_true ⟨rfl, rfl⟩ (by nofun)
    · refine Iff.trans ⟨And.right, fun kept => ⟨rfl, kept⟩⟩
        ((truthy_eq_self_iff (some database)).trans ?_)
      simp only [Declaration.TriggerKept, ne_eq, some.injEq, Exclusive.database.injEq]
  | consume topic options _ _ =>
    obtain ⟨_, rfl⟩ := refused_cases made
    have apart : Function.Injective2 (fun concurrency retry =>
        Trigger.queue topic concurrency options.database retry) := by
      intro _ _ _ _ same
      cases same
      exact ⟨rfl, rfl⟩
    refine (agree_read (deserialize_queue topic _ options.database _)).trans
      ((agree_pair apart).trans (and_congr ?_ ?_))
    · exact agree_default stringify 32 1 (by decide) (by decide) options.concurrency
    · obtain ⟨_, retry, _⟩ := options
      cases retry with
      | none => exact iff_of_true ⟨_, rfl, rfl⟩ (by nofun)
      | some retry =>
        refine Iff.trans ?_ forall_given.symm
        rw [RetryOptions.Kept, ← agree_number,
          ← agree_default stringify 64 1000 (by decide) (by decide)]
        refine agree_pair ?_
        intro _ _ _ _ same
        cases same
        exact ⟨rfl, rfl⟩
  | service _ options =>
    cases made
    refine (agree_read (deserialize_service _)).trans (agree_service.trans (and_congr ?_ ?_))
    · rw [decide_eq_false_iff_not, mapM_none_iff]
    · obtain ⟨restart, _, _, _, _⟩ := options
      cases restart with
      | none => exact iff_of_true ⟨_, rfl, rfl⟩ (by nofun)
      | some restart =>
        refine Iff.trans ?_ forall_given.symm
        rw [RestartOptions.Kept, ← agree_default stringify 64 1000 (by decide) (by decide),
          ← agree_default stringify 32 10 (by decide) (by decide)]
        refine agree_pair ?_
        intro _ _ _ _ same
        cases same
        exact ⟨rfl, rfl⟩

theorem bodyless_eq_self {policies : Policies} (unbounded : policies.maxBodyBytes = none) :
    bodyless policies = policies := by
  cases policies
  cases unbounded
  rfl

theorem workload_cases (made : declaration.workload = .ok workload) :
    workload.policies = declaration.policies ∧
      (workloadId workload, workload.name) = declaration.label := by
  cases declaration with
  | http | raw | service =>
    cases made
    exact ⟨rfl, rfl⟩
  | stream | socket | task | cron | command =>
    obtain ⟨unbounded, rfl⟩ := refused_cases made
    exact ⟨bodyless_eq_self unbounded, rfl⟩
  | consume =>
    obtain ⟨unbounded, rfl⟩ := refused_cases made
    cases unbounded
    exact ⟨rfl, rfl⟩

structure Declaration.Kept (declaration : Declaration) : Prop where
  trigger : declaration.TriggerKept stringify
  concurrency : ∀ given ∈ declaration.policies.concurrency, NumberKept stringify 32 given
  timeout : ∀ given ∈ declaration.policies.timeout, DurationKept stringify given
  maxBodyBytes : ∀ given ∈ declaration.policies.maxBodyBytes, NumberKept stringify 64 given

theorem kept_iff (declaration : Declaration) :
    declaration.Kept stringify ↔ declaration.TriggerKept stringify ∧
      (∀ given ∈ declaration.policies.concurrency, NumberKept stringify 32 given) ∧
      (∀ given ∈ declaration.policies.timeout, DurationKept stringify given) ∧
      ∀ given ∈ declaration.policies.maxBodyBytes, NumberKept stringify 64 given :=
  ⟨fun kept => ⟨kept.trigger, kept.concurrency, kept.timeout, kept.maxBodyBytes⟩,
    fun ⟨trigger, concurrency, timeout, maxBodyBytes⟩ =>
      ⟨trigger, concurrency, timeout, maxBodyBytes⟩⟩

theorem agree_entry {entry : Json} (wrote : declaration.entry stringify = .ok entry) :
    Agree (WorkloadSpec.deserialize entry) declaration.declared ↔ declaration.Kept stringify := by
  obtain ⟨workload, made, described⟩ := bind_ok_cases wrote
  obtain ⟨_, parsed, written⟩ := bind_ok_cases described
  cases written
  obtain ⟨policies, label⟩ := workload_cases made
  rw [policies] at parsed
  rw [kept_iff, deserialize_entry, Declaration.declared, ← label, policies]
  refine (agree_spec (workloadId workload) workload.name).trans ?_
  rw [agree_trigger stringify made, agree_optional, agree_timeout stringify parsed, agree_optional]

/-- Whenever `describe` writes an entry, the host reads the specification in
which every option has its declared value just when the options are among those
that reach it; and two declarations with such options and different
specifications have different entries. -/
theorem declared_options_reach_host (declaration : Declaration) (entry : Json)
    (wrote : declaration.entry stringify = .ok entry) :
    (Agree (WorkloadSpec.deserialize entry) declaration.declared ↔ declaration.Kept stringify) ∧
      (declaration.Kept stringify → ∀ other : Declaration, other.Kept stringify →
        other.declared ≠ declaration.declared → other.entry stringify ≠ .ok entry) := by
  refine ⟨agree_entry stringify wrote, ?_⟩
  intro kept other keptToo different same
  obtain ⟨_, read, said⟩ := (agree_entry stringify wrote).mpr kept
  obtain ⟨_, read', said'⟩ := (agree_entry stringify same).mpr keptToo
  cases read.symm.trans read'
  exact different (said'.trans said.symm)

end

def Stringify.plain : Stringify := ⟨id, id, fun _ _ => rfl⟩

theorem declared_options_reach_host_mail :
    (Declaration.task "mail" ⟨none, some (.finite 4), none⟩).entry .plain =
        .ok (.object [("id", .string "task:mail"), ("name", .string "mail"),
          ("trigger", .object [("kind", .string "task")]), ("maxConcurrency", .number 4)]) ∧
      Agree (WorkloadSpec.deserialize (.object [("id", .string "task:mail"),
          ("name", .string "mail"), ("trigger", .object [("kind", .string "task")]),
          ("maxConcurrency", .number 4)]))
        (Declaration.task "mail" ⟨none, some (.finite 4), none⟩).declared := by
  refine ⟨rfl, (declared_options_reach_host .plain _ _ rfl).1.mpr ?_⟩
  refine ⟨trivial, ?_, (by nofun), (by nofun)⟩
  exact forall_given.mpr (small_kept .plain (show 4 < 2 ^ 32 by decide) (by decide))

def reconciler (exclusive : Option Bool) (leaseMs : Option Num) : Declaration :=
  .service "reconciler" ⟨none, exclusive, none, leaseMs, none⟩

theorem exclusive_service_dropped :
    ((reconciler (some true) (some (.finite 5000))).declared.map (·.trigger) =
        some (.service .default true none (some 5000))) ∧
      ((reconciler (some true) (some (.finite 5000))).entry .plain).toOption.bind
          (fun entry => (WorkloadSpec.deserialize entry).map (·.trigger)) =
        some (.service .default false none none) ∧
      (reconciler (some true) (some (.finite 5000))).entry .plain =
        (reconciler none none).entry .plain := by
  refine ⟨?_, rfl, rfl⟩
  decide +kernel

end Usai.Manifest
