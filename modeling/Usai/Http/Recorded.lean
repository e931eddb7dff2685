import Usai.Http.Exchange
import Usai.Slots
import Usai.Tally

/-! What the requests of a host have recorded when they and their worlds have
ended: one entry in the global statistics and, if they were routed, one under
their workload; nothing for a request whose client went away. -/

namespace Usai.Http

open Exchange Hosting List Option Slots Tally Transition
open Text (toAsciiLowercase)

inductive Moved (expose : Bool) (before : Exchange) : Act → Exchange → Prop
  | refused (early : before.stage = .routing ∨ before.stage = .checking) :
      Moved expose before (.refuse status code message details headers elapsed)
        (before.settle false (.error ⟨status, code, message, details, true, headers⟩) elapsed)
  | surfaced (stage : before.stage = .routing)
      (internal : before.internal = true) :
      Moved expose before (.surface response)
        { before with stage := .answered, answer := some response }
  | routed (stage : before.stage = .routing) :
      Moved expose before (.route workload kind)
        { before with stage := .checking, route := some (workload, kind) }
  | began {next : Stage} (stage : before.stage = .checking)
      (begins : next = .executing ∨ next = .selecting) :
      Moved expose before .admitted { before with stage := next, world := .running }
  | headCommitted {head : Head} (running : before.world = .running) :
      Moved expose before (.commitHead head) { before with head := some head }
  | sent (running : before.world = .running) :
      Moved expose before (.send chunk) { before with sent := before.sent ++ [chunk] }
  | accepted (running : before.world = .running) :
      Moved expose before (.accept protocol) { before with accepted := some protocol }
  | left {ending : Ending} (running : before.world = .running) :
      Moved expose before (.leave ending) { before with world := .leaving ending }
  | finished {ending : Ending} (leaving : before.world = .leaving ending) :
      Moved expose before .finish { before with world := .finished ending }
  | executed {ending : Ending} (stage : before.stage = .executing)
      (done : before.world = .finished ending) :
      Moved expose before (.poll first elapsed)
        (before.settle false (finiteOutcome expose ending) elapsed)
  | streamed {head : Head} (stage : before.stage = .selecting)
      (committed : before.head = some head) :
      Moved expose before (.poll first elapsed) (before.commit head elapsed)
  | dropped (stage : before.stage = .selecting) :
      Moved expose before (.poll first elapsed) { before with stage := .joining }
  | raced {ending : Ending} (stage : before.stage = .selecting)
      (route : before.route = some (workload, .stream)) (done : before.world = .finished ending) :
      Moved expose before (.poll .task elapsed)
        (before.settle true (streamOutcome expose ending) elapsed)
  | joined {ending : Ending}
      (stage : before.stage = .joining) (route : before.route = some (workload, .stream))
      (done : before.world = .finished ending) :
      Moved expose before (.poll first elapsed)
        ((before.record [Exchange.joinedRecord expose workload ending]).settle true
          (streamOutcome expose ending) elapsed)
  | upgraded (stage : before.stage = .selecting) :
      Moved expose before (.poll first elapsed)
        (before.settle false (.ok (upgradeResponse protocol)) elapsed)
  | declined {ending : Ending}
      (stage : before.stage = .selecting ∨ before.stage = .joining)
      (done : before.world = .finished ending) :
      Moved expose before (.poll first elapsed)
        (before.settle false (socketOutcome expose ending) elapsed)
  | expired (stage : before.stage = .selecting) :
      Moved expose before (.expire elapsed)
        (before.settle false (.error (.error 504 "deadline_exceeded"
          "the socket handler did not accept the connection within the deadline")) elapsed)
  | observed {ending : Ending}
      (observer : before.observer = some status) (done : before.world = .finished ending)
      (route : before.route = some (workload, kind)) :
      Moved expose before .observe
        { before.record (Exchange.observedRecords workload status ending) with observer := none }
  | abandoned {world : WorldStage} (underway : before.stage.final = false)
      (left : world = before.world ∨ world = .absent) :
      Moved expose before .abandon { before with stage := .abandoned, world }

namespace Exchange

variable {expose : Bool} {before after : Exchange}

variable {first : Arm} {elapsed : Nat}

theorem moved_of_pollStream
    (stage : before.stage = .selecting) (route : before.route = some (workload, .stream))
    (taken : before.pollStream expose first elapsed = some after) :
    Moved expose before (.poll first elapsed) after := by
  unfold pollStream at taken
  split at taken
  case h_1 arm =>
    split at taken <;> cases taken
    case h_1 head committed => exact .streamed stage committed
    case h_2 => exact .dropped stage
  case h_2 arm =>
    obtain ⟨_, ended, rfl⟩ := map_eq_some_iff.mp taken
    obtain ⟨rfl, _⟩ := ready_task arm
    exact .raced stage route (ending_cases ended)
  case h_3 => cases taken

theorem moved_of_pollSocket (stage : before.stage = .selecting)
    (taken : before.pollSocket expose first elapsed = some after) :
    Moved expose before (.poll first elapsed) after := by
  unfold pollSocket at taken
  split at taken
  case h_1 arm =>
    split at taken <;> cases taken
    case h_1 protocol accepted => exact .upgraded stage
    case h_2 => exact .dropped stage
  case h_2 arm =>
    obtain ⟨_, ended, rfl⟩ := map_eq_some_iff.mp taken
    exact .declined (.inl stage) (ending_cases ended)
  case h_3 => cases taken

theorem moved_of_poll (taken : before.poll expose first elapsed = some after) :
    Moved expose before (.poll first elapsed) after := by
  unfold poll at taken
  split at taken
  case h_1 stage route =>
    obtain ⟨ending, ended, rfl⟩ := map_eq_some_iff.mp taken
    exact .executed stage (ending_cases ended)
  case h_2 stage route => exact moved_of_pollStream stage route taken
  case h_3 stage route => exact moved_of_pollSocket stage taken
  case h_4 stage route =>
    obtain ⟨ending, ended, rfl⟩ := map_eq_some_iff.mp taken
    exact .joined stage route (ending_cases ended)
  case h_5 stage route =>
    obtain ⟨_, ended, rfl⟩ := map_eq_some_iff.mp taken
    exact .declined (.inr stage) (ending_cases ended)
  case h_6 => cases taken

theorem moved_of_step (taken : before.step expose act = some after) :
    Moved expose before act after := by
  cases act with
  | refuse =>
    obtain ⟨early, rfl⟩ := ite_some_none_eq_some.mp taken
    exact .refused early
  | surface =>
    obtain ⟨both, rfl⟩ := ite_some_none_eq_some.mp taken
    exact .surfaced both.1 both.2
  | route =>
    obtain ⟨stage, rfl⟩ := ite_some_none_eq_some.mp taken
    exact .routed stage
  | admitted =>
    simp only [step] at taken
    split at taken <;> cases taken
    case h_1 stage _ | h_2 stage _ => exact .began stage (.inr rfl)
    case h_3 stage _ => exact .began stage (.inl rfl)
  | commitHead =>
    simp only [step] at taken
    split at taken <;> cases taken
    case h_1 running _ _ => exact .headCommitted running
  | send =>
    simp only [step] at taken
    split at taken <;> cases taken
    case h_1 running _ => exact .sent running
  | accept =>
    simp only [step] at taken
    split at taken <;> cases taken
    case h_1 running _ _ => exact .accepted running
  | leave =>
    simp only [step] at taken
    split at taken
    case h_1 running =>
      obtain ⟨_, rfl⟩ := ite_some_none_eq_some.mp taken
      exact .left running
    case h_2 => cases taken
  | finish =>
    simp only [step] at taken
    split at taken <;> cases taken
    case h_1 ending leaving => exact .finished leaving
  | poll => exact moved_of_poll taken
  | expire =>
    simp only [step] at taken
    split at taken <;> cases taken
    case h_1 stage _ => exact .expired stage
  | observe =>
    simp only [step, observe] at taken
    split at taken <;> cases taken
    case h_1 observer done route => exact .observed observer done route
  | abandon =>
    simp only [step, abandon] at taken
    split at taken <;> cases taken
    case h_1 stage | h_2 stage | h_3 stage | h_4 stage =>
      exact .abandoned (by rw [stage]; rfl) (.inl rfl)
    case h_5 stage => exact .abandoned (by rw [stage]; rfl) (.inr rfl)

end Exchange

def Recorded.global? : Recorded → Option GlobalRecord
  | .global record => some record
  | .workload _ | .stream | .streamFailed => none

def Recorded.workload? : Recorded → Option String
  | .workload record => some record.workload
  | .global _ | .stream | .streamFailed => none

namespace Exchange

def globals (exchange : Exchange) : List GlobalRecord := exchange.recorded.filterMap Recorded.global?

def workloads (exchange : Exchange) : List String := exchange.recorded.filterMap Recorded.workload?

def Unrecorded (exchange : Exchange) : Prop := exchange.globals = [] ∧ exchange.workloads = []

/-- Once in the global statistics and, if it was routed, once under its workload. -/
def Once (exchange : Exchange) : Prop :=
  exchange.globals.length = 1 ∧ exchange.workloads = (exchange.route.map Prod.fst).toList

instance (exchange : Exchange) : Decidable exchange.Once := inferInstanceAs (Decidable (_ ∧ _))

def ended (exchange : Exchange) : Bool := exchange.stage.final && exchange.world.stopped

def closed (exchange : Exchange) : Exchange := exchange.observe.getD exchange

variable (exchange : Exchange) (records : List Recorded)

@[simp] theorem globals_record :
    (exchange.record records).globals = exchange.globals ++ records.filterMap Recorded.global? :=
  filterMap_append

@[simp] theorem workloads_record :
    (exchange.record records).workloads = exchange.workloads ++ records.filterMap Recorded.workload? :=
  filterMap_append

variable (recordsItself : Bool) (outcome : Except Refusal HttpResponse) (elapsed : Nat)

theorem settle_workloads :
    (exchange.settle recordsItself outcome elapsed).workloads =
      exchange.workloads ++ if recordsItself then [] else (exchange.route.map Prod.fst).toList := by
  have global : (exchange.globalRecords outcome elapsed).filterMap Recorded.workload? = [] := by
    unfold globalRecords
    split
    · rfl
    · split
      · split <;> rfl
      · rfl
  have own : ∀ status rejection,
      (exchange.workloadRecords recordsItself status rejection elapsed).filterMap Recorded.workload? =
        if recordsItself then [] else (exchange.route.map Prod.fst).toList := by
    intro status rejection
    unfold workloadRecords
    cases exchange.route <;> cases recordsItself <;> rfl
  show (exchange.record _).workloads = _
  rw [workloads_record, filterMap_append, global, own, append_nil]

theorem settle_globals :
    (exchange.settle recordsItself outcome elapsed).globals =
      exchange.globals ++ (exchange.globalRecords outcome elapsed).filterMap Recorded.global? := by
  have own : ∀ status rejection,
      (exchange.workloadRecords recordsItself status rejection elapsed).filterMap Recorded.global? = [] := by
    intro status rejection
    unfold workloadRecords
    cases exchange.route <;> cases recordsItself <;> rfl
  show (exchange.record _).globals = _
  rw [globals_record, filterMap_append, own, nil_append]

def Deferred : Except Refusal HttpResponse → Prop
  | .ok response => deferred response = true
  | .error _ => False

variable {exchange outcome}

theorem globals_once (external : exchange.internal = false) (counted : ¬ Deferred outcome) :
    ((exchange.globalRecords outcome elapsed).filterMap Recorded.global?).length = 1 := by
  unfold globalRecords
  cases outcome with
  | ok => simp [external, eq_false_of_ne_true counted, Recorded.global?]
  | error => simp [external, Recorded.global?]

theorem globals_none (marked : Deferred outcome) :
    (exchange.globalRecords outcome elapsed).filterMap Recorded.global? = [] := by
  unfold globalRecords
  cases outcome with
  | ok response =>
    have marked : deferred response = true := marked
    simp [marked]
  | error => exact marked.elim

end Exchange

section

def lifetimeHeader (name : String) : Bool := toAsciiLowercase name == "x-usai-lifetime"

def Head.plain (head : Head) : Bool := head.headers.all (fun header => !lifetimeHeader header.1)

def WorkResult.plain (result : WorkResult) : Bool :=
  match result.outcome with
  | some (.ok value) =>
    match GuestHttpOutput.deserialize value with
    | some output => output.headers.all (fun header => !lifetimeHeader header.1)
    | none => true
  | some (.error _) | none => true

def Ending.plain : Ending → Bool
  | .result held => held.plain
  | .failed _ | .panicked _ => true

def HttpResponse.Unmarked (response : HttpResponse) : Prop :=
  ∀ header ∈ response.headers, header.1 ≠ "x-usai-lifetime"

theorem lookup_lifetime {headers : List (String × String)}
    (unmarked : ∀ header ∈ headers, header.1 ≠ "x-usai-lifetime") :
    headers.lookup "x-usai-lifetime" = none := by
  rw [lookup_eq_none_iff]
  intro header member
  exact bne_iff_ne.mpr (unmarked header member).symm

variable {response : HttpResponse} {headers : List (String × List String)}
  {own : List (String × String)}

theorem not_deferred (unmarked : response.Unmarked) :
    deferred response = false := by
  unfold deferred
  rw [lookup_lifetime unmarked]
  rfl

theorem ofJson_unmarked (status : Nat) (body : Json) : (HttpResponse.ofJson status body).Unmarked := by
  intro header member
  rw [mem_singleton.mp member]
  decide

theorem withLifecycle_unmarked (expose : Bool)
    (unmarked : response.Unmarked) (violations : List LifecycleViolation) :
    (withLifecycle expose response violations).Unmarked := by
  unfold withLifecycle
  split
  · intro header member
    rcases mem_append.mp member with held | added
    · exact unmarked header (mem_filter.mp held).1
    · simp [mem_singleton.mp added]
  · exact unmarked

theorem addHeaders_names
    (added : addHeaders headers = some own) (member : held ∈ own) :
    ∃ header ∈ headers, held.1 = toAsciiLowercase header.1 := by
  obtain ⟨_, inside, named⟩ := Fallible.exists_of_mem_mapM added member
  obtain ⟨header, given, values⟩ := mem_flatMap.mp inside
  obtain ⟨_, _, rfl⟩ := mem_map.mp values
  obtain ⟨_, lowered, rfl⟩ := map_eq_some_iff.mp named
  refine ⟨header, given, ?_⟩
  obtain ⟨_, lowered⟩ := ite_none_right_eq_some.mp lowered
  exact (some.inj lowered).symm

theorem addHeaders_unmarked (plain : ∀ header ∈ headers, lifetimeHeader header.1 = false)
    (added : addHeaders headers = some own) : ∀ held ∈ own, held.1 ≠ "x-usai-lifetime" := by
  intro held member
  obtain ⟨header, given, named⟩ := addHeaders_names added member
  rw [named]
  exact ne_of_beq_false (plain header given)

theorem renderOutput_unmarked (lifecycle : Option String)
    (plain : ∀ header ∈ output.headers, lifetimeHeader header.1 = false) :
    (renderOutput output lifecycle).Unmarked := by
  unfold renderOutput
  split
  · exact ofJson_unmarked _ _
  · rename_i own added
    intro header member
    rcases mem_append.mp member with member | typed
    · rcases mem_append.mp member with held | marked
      · exact addHeaders_unmarked plain added header held
      · obtain ⟨_, _, rfl⟩ := map_eq_some_iff.mp (mem_toList.mp marked)
        simp
    · split at typed
      · cases typed
      · obtain ⟨_, _, rfl⟩ := map_eq_some_iff.mp (mem_toList.mp typed)
        simp

theorem encode_unmarked (expose : Bool) (result : WorkResult) (plain : result.plain = true) :
    (encode expose result).Unmarked := by
  unfold encode
  split
  · unfold encodeOutcome encodeOutcome.detachedWork
    split
    · unfold applicationError
      split <;> exact withLifecycle_unmarked expose (ofJson_unmarked _ _) _
    · rename_i value returned
      split
      · exact ofJson_unmarked _ _
      · split
        · rename_i output decoded
          apply renderOutput_unmarked
          simpa [WorkResult.plain, returned, decoded] using plain
        · exact ofJson_unmarked _ _
    · split <;> exact ofJson_unmarked _ _
  all_goals exact ofJson_unmarked _ _

theorem outcome_counted (expose : Bool) (failure panic : String → Refusal) {ending : Ending}
    (plain : ending.plain = true) :
    ¬ Exchange.Deferred (ending.outcome expose failure panic) := by
  cases ending with
  | result result =>
    have unmarked := encode_unmarked expose result plain
    exact ne_true_of_eq_false (not_deferred unmarked)
  | failed => exact id
  | panicked => exact id

theorem upgradeResponse_counted (protocol : Option String) :
    ¬ Exchange.Deferred (.ok (upgradeResponse protocol)) := by
  cases protocol <;> exact Bool.false_ne_true

theorem head_deferred {head : Head} (plain : head.plain = true)
    (built : head.response = some response) : deferred response = true := by
  obtain ⟨_, added, built⟩ := bind_eq_some_iff.mp built
  cases built
  have given : ∀ header ∈ head.headers.map (fun header => (header.1, [header.2])),
      lifetimeHeader header.1 = false := by
    intro header member
    obtain ⟨source, inside, rfl⟩ := mem_map.mp member
    simpa using all_eq_true.mp plain source inside
  have absent := lookup_lifetime (addHeaders_unmarked given added)
  simp [deferred, lookup_append, absent]

end

def Exchange.streamFinished (exchange : Exchange) : Bool :=
  match exchange.stage, exchange.route, exchange.world with
  | .selecting, some (_, .stream), .finished _ => true
  | _, _, _ => false

/-- No `select!` polls the finished task of a stream before its head, and no
handler sets the header that the host marks its streams with. -/
def Exchange.orderly (exchange : Exchange) : Act → Bool
  | .commitHead head => head.plain
  | .leave ending => ending.plain
  | .poll .task _ => !exchange.streamFinished
  | _ => true

def WorldStage.begun : WorldStage → Bool
  | .absent => false
  | .running | .leaving _ | .finished _ => true

def WorldStage.plain : WorldStage → Bool
  | .absent | .running => true
  | .leaving ending | .finished ending => ending.plain

namespace Exchange

def Standing (exchange : Exchange) : Prop :=
  match exchange.stage with
  | .routing => exchange.observer = none ∧ exchange.route = none ∧ exchange.Unrecorded
  | .checking | .executing | .joining =>
    exchange.observer = none ∧ exchange.route.isSome = true ∧ exchange.Unrecorded
  | .selecting =>
    exchange.observer = none ∧ exchange.route.isSome = true ∧ exchange.Unrecorded ∧
      exchange.world.begun = true
  | .abandoned => exchange.observer = none ∧ exchange.Unrecorded
  | .answered | .unwound =>
    (exchange.observer = none ∧ exchange.Once) ∨
      (exchange.observer.isSome = true ∧ exchange.route.isSome = true ∧ exchange.Unrecorded ∧
        exchange.world.begun = true)

structure Sound (exchange : Exchange) : Prop where
  head : ∀ head ∈ exchange.head, head.plain = true
  world : exchange.world.plain = true
  standing : exchange.internal = false → exchange.Standing

theorem new_sound (internal : Bool) : (new internal).Sound :=
  ⟨by nofun, rfl, fun _ => ⟨rfl, rfl, rfl, rfl⟩⟩

variable {expose : Bool} {before after : Exchange}

theorem Standing.fresh (standing : before.Standing) (underway : before.stage.final = false) :
    before.observer = none ∧ before.Unrecorded := by
  unfold Standing at standing
  cases stage : before.stage <;> simp only [stage] at standing underway
  case routing | checking | executing | joining => exact ⟨standing.1, standing.2.2⟩
  case selecting => exact ⟨standing.1, standing.2.2.1⟩
  all_goals cases underway

theorem Sound.settled (sound : before.Sound) (underway : before.stage.final = false)
    (counted : ¬ Deferred outcome) (elapsed : Nat) :
    (before.settle false outcome elapsed).Sound := by
  refine ⟨sound.head, sound.world, ?_⟩
  intro external
  obtain ⟨unobserved, fresh⟩ := (sound.standing external).fresh underway
  refine .inl ⟨unobserved, ?_, ?_⟩
  · rw [settle_globals, fresh.1, nil_append]
    exact globals_once elapsed external counted
  · rw [settle_workloads, fresh.2, nil_append]
    rfl

theorem Sound.committed (sound : before.Sound) (stage : before.stage = .selecting) {head : Head}
    (committed : before.head = some head) (elapsed : Nat) : (before.commit head elapsed).Sound := by
  have plain := sound.head head committed
  unfold commit
  cases built : head.response with
  | none =>
    refine ⟨sound.head, sound.world, ?_⟩
    intro external
    have standing := sound.standing external
    simp only [Standing, stage] at standing
    obtain ⟨_, routed, fresh, begun⟩ := standing
    refine .inr ⟨rfl, routed, ?_, begun⟩
    simpa [Unrecorded, Recorded.global?, Recorded.workload?, globals, workloads, record] using fresh
  | some response =>
    refine ⟨sound.head, sound.world, ?_⟩
    intro external
    have standing := sound.standing external
    simp only [Standing, stage] at standing
    obtain ⟨_, routed, fresh, begun⟩ := standing
    refine .inr ⟨rfl, routed, ⟨?_, ?_⟩, begun⟩
    · have marked : Deferred (.ok response) := head_deferred plain built
      rw [settle_globals, globals_none elapsed marked]
      simpa [Recorded.global?, globals, record] using fresh.1
    · rw [settle_workloads]
      simpa [Recorded.workload?, workloads, record] using fresh.2

variable {workload : String} {ending : Ending}

theorem Sound.joined (sound : before.Sound) (stage : before.stage = .joining)
    (route : before.route = some (workload, .stream))
    (done : before.world = .finished ending) (elapsed : Nat) :
    ((before.record [joinedRecord expose workload ending]).settle true (streamOutcome expose ending)
      elapsed).Sound := by
  refine ⟨sound.head, sound.world, ?_⟩
  intro external
  obtain ⟨unobserved, fresh⟩ := (sound.standing external).fresh (by rw [stage]; rfl)
  have plain : ending.plain = true := by
    have plain := sound.world
    rwa [done] at plain
  have counted : ¬ Deferred (streamOutcome expose ending) := outcome_counted expose _ _ plain
  have external : (before.record [joinedRecord expose workload ending]).internal = false := external
  refine .inl ⟨unobserved, ?_, ?_⟩
  · rw [settle_globals, length_append, globals_once elapsed external counted, globals_record,
      fresh.1]
    cases ending <;> rfl
  · rw [settle_workloads, workloads_record, fresh.2]
    show _ = (before.route.map Prod.fst).toList
    rw [route]
    cases ending <;> rfl

theorem observed_once (fresh : before.Unrecorded) (route : before.route = some (workload, kind)) :
    ({ before.record (observedRecords workload status ending) with observer := none } :
      Exchange).Once := by
  constructor
  · show (before.record _).globals.length = 1
    rw [globals_record, fresh.1]
    unfold observedRecords
    cases failedStream ending <;> rfl
  · show (before.record _).workloads = (before.route.map Prod.fst).toList
    rw [workloads_record, fresh.2, route]
    unfold observedRecords
    cases failedStream ending <;> rfl

theorem Sound.observed (sound : before.Sound) (observer : before.observer = some status)
    (route : before.route = some (workload, kind)) :
    ({ before.record (observedRecords workload status ending) with observer := none } :
      Exchange).Sound := by
  refine ⟨sound.head, sound.world, ?_⟩
  intro external
  have standing := sound.standing external
  unfold Standing at standing ⊢
  -- only an answered request has an observer
  cases stage : before.stage <;> simp [stage, observer] at standing
  case answered | unwound =>
    simp only [record, stage]
    exact .inl ⟨trivial, observed_once standing.2.1 route⟩

theorem Sound.step (sound : before.Sound) (allowed : before.orderly act = true)
    (taken : before.step expose act = some after) : after.Sound := by
  -- the plain endings are those whose outcome is counted by `handle`
  have plain : ∀ {ending}, before.world = .finished ending → ending.plain = true := by
    intro ending done
    have plain := sound.world
    rwa [done] at plain
  cases moved_of_step taken with
  | refused early =>
    have underway : before.stage.final = false := by rcases early with stage | stage <;> rw [stage] <;> rfl
    exact sound.settled underway id _
  | surfaced _ internal =>
    refine ⟨sound.head, sound.world, ?_⟩
    intro external
    cases internal.symm.trans external
  | routed stage =>
    refine ⟨sound.head, sound.world, ?_⟩
    intro external
    obtain ⟨unobserved, fresh⟩ := (sound.standing external).fresh (by rw [stage]; rfl)
    exact ⟨unobserved, rfl, fresh⟩
  | began stage begins =>
    refine ⟨sound.head, rfl, ?_⟩
    intro external
    have standing := sound.standing external
    simp only [Standing, stage] at standing
    obtain ⟨unobserved, routed, fresh⟩ := standing
    rcases begins with rfl | rfl
    · exact ⟨unobserved, routed, fresh⟩
    · exact ⟨unobserved, routed, fresh, rfl⟩
  | headCommitted =>
    refine ⟨?_, sound.world, sound.standing⟩
    intro head committed
    cases committed
    exact allowed
  | sent | accepted => exact ⟨sound.head, sound.world, sound.standing⟩
  | left running =>
    refine ⟨sound.head, allowed, ?_⟩
    intro external
    have standing := sound.standing external
    unfold Standing at standing ⊢
    simp only [running] at standing
    exact standing
  | finished leaving =>
    refine ⟨sound.head, ?_, ?_⟩
    · have plain := sound.world
      rwa [leaving] at plain
    · intro external
      have standing := sound.standing external
      unfold Standing at standing ⊢
      simp only [leaving] at standing
      exact standing
  | executed stage done =>
    exact sound.settled (by rw [stage]; rfl) (outcome_counted expose _ _ (plain done)) _
  | streamed stage committed => exact sound.committed stage committed _
  | dropped stage =>
    refine ⟨sound.head, sound.world, ?_⟩
    intro external
    have standing := sound.standing external
    simp only [Standing, stage] at standing
    exact ⟨standing.1, standing.2.1, standing.2.2.1⟩
  | raced stage route done => simp [orderly, streamFinished, stage, route, done] at allowed
  | joined stage route done => exact sound.joined stage route done _
  | upgraded stage => exact sound.settled (by rw [stage]; rfl) (upgradeResponse_counted _) _
  | declined stage done =>
    have underway : before.stage.final = false := by rcases stage with stage | stage <;> rw [stage] <;> rfl
    exact sound.settled underway (outcome_counted expose _ _ (plain done)) _
  | expired stage => exact sound.settled (by rw [stage]; rfl) id _
  | observed observer _ route => exact sound.observed observer route
  | abandoned underway left =>
    refine ⟨sound.head, ?_, fun external => (sound.standing external).fresh underway⟩
    rcases left with rfl | rfl
    · exact sound.world
    · rfl

end Exchange

def HttpStats.counted (stats : HttpStats) (workload : String) : Nat :=
  let classes := ((stats.byWorkload.lookup workload).getD .zero).classes
  classes .success + classes .redirect + classes .client + classes .server

theorem bump_total (classes : StatusClass → Nat) (key : StatusClass) :
    bump classes key .success + bump classes key .redirect + bump classes key .client +
        bump classes key .server =
      classes .success + classes .redirect + classes .client + classes .server + 1 := by
  cases key <;> simp [bump] <;> omega

theorem add_classes (counters : WorkloadCounters) (record : WorkloadRecord) :
    (counters.add record).classes = bump counters.classes (.of record.status) := by
  unfold WorkloadCounters.add
  cases record.rejection <;> rfl

namespace HttpStats

variable (stats : HttpStats)

theorem requests_apply (record : Recorded) :
    (stats.apply record).requests = stats.requests + record.global?.toList.length := by
  cases record <;> rfl

theorem counted_apply (record : Recorded) (workload : String) :
    (stats.apply record).counted workload =
      stats.counted workload + record.workload?.toList.count workload := by
  cases record with
  | workload record =>
    simp only [apply, counted, recordWorkload, Recorded.workload?, toList_some]
    rw [FiniteMap.lookup_insert_eq]
    by_cases same : workload = record.workload
    · subst same
      simp only [if_true, getD_some, add_classes, bump_total, count_singleton_self]
    · simp [same, Ne.symm same]
  | global => rfl
  | stream => rfl
  | streamFailed => rfl

theorem requests_foldl (records : List Recorded) :
    (records.foldl apply stats).requests =
      stats.requests + (records.filterMap Recorded.global?).length := by
  induction records generalizing stats with
  | nil => rfl
  | cons record _ step =>
    rw [foldl_cons, step, requests_apply, filterMap_cons]
    cases record.global? with
    | none => rfl
    | some => simp only [toList_some, length_cons, length_nil]; omega

theorem counted_foldl (records : List Recorded) (workload : String) :
    (records.foldl apply stats).counted workload =
      stats.counted workload + (records.filterMap Recorded.workload?).count workload := by
  induction records generalizing stats with
  | nil => rfl
  | cons record _ step =>
    rw [foldl_cons, step, counted_apply, filterMap_cons]
    cases record.workload? with
    | none => rfl
    | some =>
      rw [toList_some, count_cons, count_cons, count_nil]
      omega

end HttpStats

theorem Exchange.step_records {before after : Exchange}
    (taken : before.step expose act = some after) :
    ∃ added, after.recorded = before.recorded ++ added := by
  have kept : ∃ added, before.recorded = before.recorded ++ added := ⟨[], (append_nil _).symm⟩
  cases moved_of_step taken with
  | surfaced | routed | began | headCommitted | sent | accepted | left | finished | dropped
  | abandoned => exact kept
  | refused | executed | raced | upgraded | declined | expired | observed => exact ⟨_, rfl⟩
  | joined => exact ⟨_, append_assoc _ _ _⟩
  | streamed =>
    unfold commit
    split
    · exact ⟨_, append_assoc _ _ _⟩
    · exact ⟨_, rfl⟩

namespace Hosting

def Orderly (hosting : Hosting) : HostAct → Prop
  | .arrive _ => True
  | .act index act => (hosting.exchanges[index]?).all (fun exchange => exchange.orderly act) = true

instance (hosting : Hosting) : DecidablePred hosting.Orderly
  | .arrive _ => inferInstanceAs (Decidable True)
  | .act _ _ => inferInstanceAs (Decidable (_ = true))

/-- Every request outside `/_usai/` that has ended with its world has been recorded
once, or nowhere if its client went away, and the counters are the sums of what
the requests have recorded. -/
structure Accounted (initial : HttpStats) (hosting : Hosting) : Prop where
  once : ∀ exchange ∈ hosting.exchanges, exchange.internal = false → exchange.ended = true →
    exchange.stage ≠ .abandoned → exchange.closed.Once
  nowhere : ∀ exchange ∈ hosting.exchanges, exchange.internal = false →
    exchange.stage = .abandoned → exchange.Unrecorded
  requests : (hosting.stats.requests : Int) =
    initial.requests + (hosting.exchanges.map (fun exchange => (exchange.globals.length : Int))).sum
  counted : ∀ workload, (hosting.stats.counted workload : Int) =
    initial.counted workload +
      (hosting.exchanges.map (fun exchange => (exchange.workloads.count workload : Int))).sum

structure Balanced (initial : HttpStats) (hosting : Hosting) : Prop where
  sound : ∀ exchange ∈ hosting.exchanges, exchange.Sound
  requests : (hosting.stats.requests : Int) =
    initial.requests + (hosting.exchanges.map (fun exchange => (exchange.globals.length : Int))).sum
  counted : ∀ workload, (hosting.stats.counted workload : Int) =
    initial.counted workload +
      (hosting.exchanges.map (fun exchange => (exchange.workloads.count workload : Int))).sum

theorem balanced_empty (initial : HttpStats) : Balanced initial ⟨initial, []⟩ := by
  refine ⟨fun _ member => absurd member not_mem_nil, ?_, fun workload => ?_⟩
  · rw [map_nil, sum_nil, Int.add_zero]
  · rw [map_nil, sum_nil, Int.add_zero]

variable {expose : Bool} {initial : HttpStats} {hosting next : Hosting} {act : HostAct}

theorem step_balanced (balanced : Balanced initial hosting) (orderly : hosting.Orderly act)
    (taken : hosting.step expose act = some next) : Balanced initial next := by
  cases act with
  | arrive internal =>
    cases taken
    refine ⟨forall_append balanced.sound (new_sound internal), ?_, ?_⟩
    · rw [sum_map_append_one, balanced.requests]
      simp [new, globals]
    · intro workload
      rw [sum_map_append_one, balanced.counted workload]
      simp [new, workloads]
  | act _ act =>
    obtain ⟨before, found, taken⟩ := bind_eq_some_iff.mp taken
    obtain ⟨after, stepped, taken⟩ := bind_eq_some_iff.mp taken
    cases taken
    have allowed : before.orderly act = true := by
      simpa only [Orderly, found, all_some] using orderly
    have member := mem_of_getElem? found
    obtain ⟨added, grown⟩ := step_records stepped
    have recent : after.recorded.drop before.recorded.length = added := by
      rw [grown, drop_left]
    refine ⟨forall_set balanced.sound ((balanced.sound before member).step allowed stepped),
      ?_, ?_⟩
    · have globals : after.globals = before.globals ++ added.filterMap Recorded.global? := by
        unfold globals
        rw [grown, filterMap_append]
      rw [sum_map_set after _ found, HttpStats.after, recent, HttpStats.requests_foldl, globals,
        length_append]
      have held := balanced.requests
      push_cast
      omega
    · intro workload
      have workloads : after.workloads = before.workloads ++ added.filterMap Recorded.workload? := by
        unfold workloads
        rw [grown, filterMap_append]
      rw [sum_map_set after _ found, HttpStats.after, recent, HttpStats.counted_foldl, workloads,
        count_append]
      have held := balanced.counted workload
      push_cast
      omega

theorem closed_once {exchange : Exchange} (sound : exchange.Sound) (external : exchange.internal = false)
    (ended : exchange.ended = true) (kept : exchange.stage ≠ .abandoned) : exchange.closed.Once := by
  have standing := sound.standing external
  have settled : (exchange.observer = none ∧ exchange.Once) ∨
      (exchange.observer.isSome = true ∧ exchange.route.isSome = true ∧ exchange.Unrecorded ∧
        exchange.world.begun = true) := by
    unfold Exchange.Standing at standing
    cases stage : exchange.stage <;> simp only [stage, Exchange.ended, Stage.final] at standing ended
    case answered | unwound => exact standing
    case abandoned => exact absurd stage kept
    all_goals simp at ended
  rcases settled with ⟨unobserved, _⟩ | ⟨observed, routed, fresh, begun⟩
  · have same : exchange.closed = exchange := by
      unfold Exchange.closed Exchange.observe
      rw [unobserved]
      rfl
    rwa [same]
  · obtain ⟨status, observer⟩ := isSome_iff_exists.mp observed
    obtain ⟨⟨workload, _⟩, route⟩ := isSome_iff_exists.mp routed
    have stopped := (Bool.and_eq_true_iff.mp ended).2
    cases world : exchange.world with
    | absent => simp [world, WorldStage.begun] at begun
    | running | leaving => simp [world, WorldStage.stopped] at stopped
    | finished ending =>
      have last : exchange.closed =
          { exchange.record (observedRecords workload status ending) with
            observer := none } := by
        simp only [closed, observe, observer, world, route, getD_some]
      rw [last]
      exact observed_once fresh route

theorem accounted_of_balanced (balanced : Balanced initial hosting) : Accounted initial hosting where
  once exchange member external ended kept :=
    closed_once (balanced.sound exchange member) external ended kept
  nowhere exchange member external gone := by
    have standing := (balanced.sound exchange member).standing external
    simp only [Exchange.Standing, gone] at standing
    exact standing.2
  requests := balanced.requests
  counted := balanced.counted

end Hosting

def answering (headers : List (String × Json)) : Ending :=
  .result ⟨.completed,
    some (.ok (.object [("status", .number 200), ("headers", .object headers)])), [], 5⟩

def Hosting.summary (hosting : Hosting) : List (Bool × Nat × List String) :=
  hosting.exchanges.map (fun exchange =>
    (exchange.ended, exchange.closed.globals.length, exchange.closed.workloads))

def servedRun : List HostAct :=
  [.arrive false, .arrive false, .arrive false, .arrive false, .arrive false, .arrive false,
    .act 0 (.refuse 404 "route_not_found" "no route matches GET /nowhere" none [] 1),
    .act 1 (.route "items.list" .contract), .act 1 .admitted,
    .act 2 (.route "items.feed" .stream), .act 2 .admitted, .act 2 (.commitHead ⟨200, []⟩),
    .act 3 (.route "items.feed" .stream), .act 3 .admitted,
    .act 4 (.route "items.live" .socket), .act 4 .admitted, .act 4 (.accept none),
    .act 5 (.route "items.list" .contract), .act 5 .admitted,
    .act 1 (.leave (answering [])), .act 1 .finish, .act 1 (.poll .task 7),
    .act 2 (.poll .signal 2), .act 2 (.leave (answering [])), .act 2 .finish,
    .act 3 (.leave (answering [])), .act 3 .finish, .act 3 (.poll .signal 6), .act 3 (.poll .task 6),
    .act 4 (.poll .task 3), .act 4 (.leave (answering [])), .act 4 .finish, .act 2 .observe,
    .act 5 .abandon]

end Usai.Http
