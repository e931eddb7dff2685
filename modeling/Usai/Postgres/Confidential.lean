import Usai.Postgres.Table

/-! Whose statements reach a transaction. The table is asked for any number a
guest sends, so the connection of a transaction is its world's own only while no
other world names it. -/

namespace Usai.Postgres

open List Option

open Transition (Along Meets exec along_of_meets along_imp along_reached)

section

/-- What was sent on the connection was sent for calls of the world that began
the transaction. -/
def Holder.Own (holder : Holder) : Prop :=
  ∀ entry ∈ holder.sent, ∀ world ∈ entry.issuer, world = holder.owner

variable (manager : Manager)

def Confidential : Prop :=
  ∀ lease holder, manager.holders.lookup lease = some holder → holder.Own

/-- A call that asks the table for a transaction that is there comes from the
world that began it. -/
def OwnLease : TxLabel → Prop
  | .look index =>
    ∀ call ∈ manager.calls[index]?, ∀ holder ∈ manager.holders.lookup call.lease,
      holder.listed = true → call.world = holder.owner
  | _ => True

instance (label : TxLabel) : Decidable (OwnLease manager label) := by
  unfold OwnLease
  split <;> infer_instance

end

section

variable {setting : Setting} {holder next : Holder} {cancelled : Bool}
  {queued : Option (Nat × TxCommand)} {event : HolderEvent} {replies : List (Nat × Reply)}

structure Holder.Loyal (holder : Holder) : Prop where
  own : holder.Own
  prepares : ∀ call world method request, holder.phase = .preparing call world method request →
    world = holder.owner

theorem Holder.Own.of_sent (own : holder.Own) (owner : next.owner = holder.owner)
    (sent : next.sent = holder.sent) : next.Own := by
  unfold Holder.Own
  rw [owner, sent]
  exact own

theorem Holder.Own.send (own : holder.Own) {issuer : Option Nat}
    (issued : ∀ world ∈ issuer, world = holder.owner) (request : Request) (phase : Phase) :
    (holder.send issuer request phase).Own := by
  intro entry member
  rcases mem_append.mp member with before | new
  · exact own entry before
  · rw [mem_singleton.mp new]
    exact issued

theorem Move.loyal (move : Move setting holder cancelled queued event next replies)
    (loyal : holder.Loyal)
    (given : ∀ world command, queued = some (world, command) → world = holder.owner) :
    next.Loyal := by
  cases move with
  | leave selecting fired => exact ⟨loyal.own.send (by simp) _ _, nofun⟩
  | look | idle | conclude | undone | left | abandon | lose => exact ⟨loyal.own, nofun⟩
  | prepare selecting taken command =>
    rename_i world method request
    have mine : world = holder.owner := given world _ command
    have own : Holder.Own { holder with queue := none } := loyal.own
    refine ⟨own.send (by simpa using mine) _ _, ?_⟩
    rintro _ _ _ _ ⟨⟩
    exact mine
  | finish selecting taken command =>
    rename_i world commit
    have mine : world = holder.owner := given world _ command
    have own : Holder.Own { holder with queue := none } := loyal.own
    exact ⟨own.send (by simpa using mine) _ _, nofun⟩
  | execute prepared =>
    rename_i world _ _ _
    have mine : world = holder.owner := by
      cases prepared with
      | cached _ _ command => exact given world _ command
      | prepared _ preparing _ => exact loyal.prepares _ _ _ _ preparing
    have own := loyal.own.of_sent prepared.serving.owner prepared.serving.sent
    exact ⟨own.send (by simpa [prepared.serving.owner] using mine) _ _, nofun⟩
  | settle reply settling | quarantine reply settling =>
    exact ⟨loyal.own.of_sent settling.serving.owner settling.serving.sent, nofun⟩
  | undo session error finishing =>
    have own : Holder.Own { holder with session } := loyal.own
    exact ⟨own.send (by simp) _ _, nofun⟩

end

section

variable {setting : Setting} {manager next : Manager} {label : TxLabel}

structure Faithful (manager : Manager) : Prop where
  coherent : Coherent manager
  loyal : ∀ lease holder, manager.holders.lookup lease = some holder → holder.Loyal
  awaited : ∀ lease holder, manager.holders.lookup lease = some holder →
    ∀ index ∈ holder.awaited, ∀ call ∈ manager.calls[index]?, call.world = holder.owner
  sending : ∀ (index : Nat) (call : TxCall) holder, manager.calls[index]? = some call →
    call.stage = .sending → manager.holders.lookup call.lease = some holder →
      call.world = holder.owner

theorem faithful_new : Faithful Manager.new := by
  refine ⟨coherent_new, ?_, ?_, ?_⟩ <;> intros <;> simp_all [Manager.new, AList.lookup_empty]

theorem Faithful.queued (faithful : Faithful manager) {lease : Nat} {holder : Holder}
    (found : manager.holders.lookup lease = some holder) {world : Nat} {command : TxCommand}
    (given : manager.queued holder = some (world, command)) : world = holder.owner := by
  obtain ⟨index, waiting, known⟩ := bind_eq_some_iff.mp given
  obtain ⟨call, here, same⟩ := map_eq_some_iff.mp known
  cases same
  exact faithful.awaited lease holder found index (mem_awaited.mpr (.inl waiting)) call here

theorem faithful_step (faithful : Faithful manager) (allowed : OwnLease manager label)
    (step : manager.step setting label = some next) : Faithful next := by
  have change := change_of_step step
  have unused := faithful.coherent.unused
  refine ⟨coherent_step faithful.coherent step, ?_, ?_, ?_⟩
  · refine change.holders unused (fun _ _ _ _ => ⟨by simp [Holder.Own], nofun⟩) ?_
    intro lease before after found evolves
    have loyal := faithful.loyal lease before found
    cases evolves with
    | same => exact loyal
    | queue | delist => exact ⟨loyal.own, loyal.prepares⟩
    | move move _ => exact move.loyal loyal (fun _ _ => faithful.queued found)
  · refine change.holders unused (by simp [mem_awaited, Phase.serves]) ?_
    intro lease before after found evolves index member call there
    have known : ∃ call, manager.calls[index]? = some call ∧ call.world = before.owner := by
      rcases evolves.awaited member with old | ⟨call, here, rfl, sending⟩
      · obtain ⟨call, here, _⟩ := faithful.coherent.awaited lease before found index old
        exact ⟨call, here, faithful.awaited lease before found index old call here⟩
      · exact ⟨call, here, faithful.sending index call before here sending found⟩
    obtain ⟨_, here, mine⟩ := known
    obtain ⟨same, found', advances⟩ := change.advances here
    obtain rfl := some.inj (found'.symm.trans there)
    rw [advances.world, evolves.owner]
    exact mine
  · intro index call holder there stage found
    rcases change.call there with ⟨before, here, advances⟩ | ⟨_, looking, _⟩
    · have known : ∃ old, manager.holders.lookup call.lease = some old ∧ call.world = old.owner := by
        cases advances with
        | same =>
          obtain ⟨old, known⟩ := faithful.coherent.sending index call here stage
          exact ⟨old, known, faithful.sending index call old here stage known⟩
        | find asked _ known listed =>
          subst asked
          exact ⟨_, known, allowed before here _ known listed⟩
        | hand | close | answer => cases stage
      obtain ⟨_, known, mine⟩ := known
      obtain ⟨_, last, evolves⟩ := change.evolves unused known
      obtain rfl := some.inj (found.symm.trans last)
      rw [evolves.owner]
      exact mine
    · rw [stage] at looking
      cases looking

theorem lease_confidential (setting : Setting) (labels : List TxLabel)
    (run : Meets (Manager.step setting) OwnLease Manager.new labels) :
    Along (Manager.step setting) Confidential Manager.new labels := by
  have faithful : Along (Manager.step setting) Faithful Manager.new labels :=
    along_of_meets (fun _ _ _ => faithful_step) faithful_new run
  exact along_imp (fun _ faithful lease holder found => (faithful.loyal lease holder found).own)
    faithful

def ownLeases : List TxLabel :=
  [.beginBy 1, .beginBy 2, .execute 1 1 "DELETE FROM carts", .execute 2 2 "DELETE FROM orders"] ++
    takeCommand 0 1 ++ takeCommand 1 2 ++ serverAnswers 1 [[], []] ++ serverAnswers 2 [[], []]

theorem lease_confidential_own :
    firstAfter ownLeases =
        some (1, true, [⟨some 1, .begin⟩, ⟨some 1, .prepare "DELETE FROM carts"⟩,
          ⟨some 1, .statement "DELETE FROM carts"⟩]) ∧
      Along (Manager.step serverSetting) Confidential Manager.new ownLeases :=
  ⟨by decide, lease_confidential serverSetting ownLeases (by decide)⟩

/-- World 2 has begun nothing. It names the number of the first transaction in a
publish, in a statement and in a commit. -/
def guessedLease : List TxLabel :=
  [.beginBy 1, .enter 2 (.publish "orders" "null" none "r2" (some 1)),
    .execute 2 1 "DELETE FROM carts", .commitBy 2 1] ++
    takeCommand 0 1 ++ serverAnswers 1 [["text", "text", "int8", "text"], []] ++
    takeCommand 1 1 ++ serverAnswers 1 [[], []] ++ takeCommand 2 1 ++ serverAnswers 1 [[]]

def guessedSent : List Sent :=
  [⟨some 1, .begin⟩, ⟨some 2, .prepare publishSql⟩, ⟨some 2, .statement publishSql⟩,
    ⟨some 2, .prepare "DELETE FROM carts"⟩, ⟨some 2, .statement "DELETE FROM carts"⟩,
    ⟨some 2, .commit⟩]

theorem guessed_lease_reaches_transaction :
    firstAfter guessedLease = some (1, false, guessedSent) ∧
      ¬ Along (Manager.step serverSetting) Confidential Manager.new guessedLease := by
  have after : firstAfter guessedLease = some (1, false, guessedSent) := by decide +kernel
  refine ⟨after, fun along => ?_⟩
  obtain ⟨_, reached, known⟩ := bind_eq_some_iff.mp after
  obtain ⟨holder, found, same⟩ := map_eq_some_iff.mp known
  obtain ⟨owner, _, sent⟩ : holder.owner = 1 ∧ _ ∧ holder.sent = guessedSent := by
    simpa using same
  have foreign : ⟨some 2, .prepare publishSql⟩ ∈ holder.sent := by
    rw [sent]
    exact mem_cons_of_mem _ mem_cons_self
  exact absurd (along_reached along reached 1 holder found _ foreign 2 rfl) (by rw [owner]; decide)

end

end Usai.Postgres
