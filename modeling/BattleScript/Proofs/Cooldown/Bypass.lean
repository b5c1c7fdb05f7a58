import BattleScript.Opcode.Cooldown
import BattleScript.Proofs.Cooldown.Payment
import BattleScript.Proofs.Scenario
import Mathlib.Logic.Relation

/-!
# Skills that are free of cooldowns

A skill is free of cooldowns if its own notes say so or if the settings list its number
(`Database.Frees`). Such a skill is never locked: whatever happens to the cooldowns of a battle, no
battler ever has a counter for it (`Battle.free_skills_never_lock`).

A ledger changes in two ways. Costs, changes and warmups are written for one skill after another,
and each skill is asked first whether it is free. The question goes to the skill, and the counter
stands under its number; it is because the database is keyed that a skill which is written to
cannot have a free number and yet not be free itself (`Database.Frees.misses`). Turns, steps and
the end of the battle move on the counters that there are, and make none (`Ledger.Spares.moveOn`).
-/

namespace BattleScript

/-! ## Ledgers without counters for a skill -/

/-- There is no counter for the skill. -/
structure Timers.Spares (t : Timers) (skill : Nat) : Prop where
  cooldown : t.cooldown.find? skill = none
  warmup : t.warmup.find? skill = none

theorem Timers.spares_empty (skill : Nat) : ({} : Timers).Spares skill := ⟨rfl, rfl⟩

namespace Ledger

/-- No battler has a counter for the skill. -/
def Spares (l : Ledger) (skill : Nat) : Prop := ∀ id t, l.find? id = some t → t.Spares skill

/-- A counter of the skill `u` is not written, or under another number than `skill`. -/
def Misses (settings : Settings) (skill : Nat) (u : Usable) : Prop :=
  u.bypasses settings = true ∨ u.id ≠ skill

variable {l : Ledger} {skill : Nat} {settings : Settings} {database : Database} {u : Usable}

theorem spares_empty (skill : Nat) : ({} : Ledger).Spares skill := by
  intro id t ht
  cases ht

/-- Without counters there is nothing to wait for. -/
theorem Spares.isReady (h : l.Spares skill) (id : BattlerId) : l.isReady id skill = true := by
  unfold Ledger.isReady Ledger.cooldown Ledger.warmup
  cases hid : l.find? id with
  | none => rfl
  | some t =>
    obtain ⟨hcooldown, hwarmup⟩ := h id t hid
    simp [hcooldown, hwarmup]

/-- A ledger still has no counter for the skill after a change of counters that writes none for
it. -/
theorem Spares.update (h : l.Spares skill) (id : BattlerId) {f : Timers → Timers}
    (hf : ∀ t : Timers, t.Spares skill → (f t).Spares skill) : (l.update id f).Spares skill :=
  forall_find?_update (Timers.spares_empty skill) h id hf

/-- Neither has it after counters were moved on in such a way. -/
theorem Spares.moveOn (h : l.Spares skill) (id : BattlerId) {f : Timers → Timers}
    (hf : ∀ t : Timers, t.Spares skill → (f t).Spares skill) : (l.moveOn id f).Spares skill :=
  forall_find?_moveOn h id hf

/-- What no step of a loop writes, the loop does not write. -/
theorem Spares.foldl {α : Type} {f : Ledger → α → Ledger} {xs : List α} (h : l.Spares skill)
    (step : ∀ l x, x ∈ xs → l.Spares skill → (f l x).Spares skill) :
    (xs.foldl f l).Spares skill :=
  List.foldlRecOn (motive := fun l => l.Spares skill) xs f h fun l hl x hx => step l x hx hl

/-! ## What writes counters -/

/-- To write the cooldown of a skill that misses the number writes none under it. -/
theorem Spares.setCooldown (h : l.Spares skill) (hu : Misses settings skill u) (id : BattlerId)
    (x : Int) : (l.setCooldown settings id u x).Spares skill := by
  unfold Ledger.setCooldown
  split
  · exact h
  · next hbypass =>
    have hne : u.id ≠ skill := hu.resolve_left hbypass
    refine h.update id fun t ht => ⟨?_, ht.warmup⟩
    rw [OrderedMap.find?_insert, if_neg hne.symm]
    exact ht.cooldown

/-- Neither do the warmups of known skills that miss it. -/
theorem Spares.startWarmups (h : l.Spares skill) {known : List Usable}
    (hknown : ∀ u ∈ known, Misses settings skill u) (id : BattlerId) :
    (l.startWarmups settings id known).Spares skill := by
  refine h.foldl fun l u hu hl => ?_
  split
  · exact hl
  · next hbypass =>
    have hne : u.id ≠ skill := (hknown u hu).resolve_left hbypass
    refine hl.update id fun t ht => ⟨ht.cooldown, ?_⟩
    rw [OrderedMap.find?_insert, if_neg hne.symm]
    exact ht.warmup

section

variable {known : List Usable}
  (hdatabase : ∀ n u, database.skill? n = some u → Misses settings skill u)
  (hknown : ∀ u ∈ known, Misses settings skill u)

include hdatabase hknown

/-- Neither does a payment, if all skills that could be charged miss it. -/
theorem Spares.pay (h : l.Spares skill) (id : BattlerId) (hu : Misses settings skill u) :
    (l.pay settings database id u known).Spares skill := by
  rw [pay_eq]
  refine h.foldl fun l c hc hl => hl.setCooldown ?_ id _
  -- what is charged is known, in the database, or the skill that is used
  rcases of_mem_charges hc with ⟨hmem, -⟩ | ⟨⟨n, hn⟩, -⟩ | rfl
  · exact hknown c.1 hmem
  · exact hdatabase n c.1 hn
  · exact hu

/-- Neither do the changes of an effect, under the same condition. -/
theorem Spares.applyChanges (h : l.Spares skill) (id : BattlerId) (source : Usable) :
    (l.applyChanges settings database id source known).Spares skill := by
  rw [applyChanges_eq]
  refine h.foldl fun l c hc hl => hl.setCooldown ?_ id _
  rcases of_mem_additions hc with hmem | ⟨n, hn⟩
  · exact hknown c.1 hmem
  · exact hdatabase n c.1 hn

end

/-! ## What moves counters on -/

/-- The end of a turn gives no skill a counter. -/
theorem Spares.updateTurn (h : l.Spares skill) (id : BattlerId) :
    (l.updateTurn id).Spares skill := by
  refine h.moveOn id fun t ht => ⟨?_, ?_⟩
  · rw [OrderedMap.find?_mapValues, ht.cooldown]
    rfl
  · rw [OrderedMap.find?_mapValues, ht.warmup]
    rfl

theorem Spares.updateSteps (h : l.Spares skill) (id : BattlerId) (steps : Nat) :
    (l.updateSteps settings database id steps).Spares skill := by
  refine h.moveOn id fun t ht => ⟨?_, ht.warmup⟩
  rw [OrderedMap.find?_mapValues, ht.cooldown]
  rfl

theorem Spares.endBattle (h : l.Spares skill) (id : BattlerId) :
    (l.endBattle settings database id).Spares skill := by
  refine h.moveOn id fun t ht => ⟨?_, rfl⟩
  rw [OrderedMap.find?_mapValues, ht.cooldown]
  rfl

end Ledger

/-! ## Free skills -/

/-- The number is free of cooldowns: the settings list it, or the skill that has it says so. -/
def Database.Frees (database : Database) (settings : Settings) (skill : Nat) : Prop :=
  skill ∈ settings.cooldownBypass ∨
    ∃ u, database.skill? skill = some u ∧ u.cooldown.bypass = true

/-- A skill of a keyed database with a free number is itself free. -/
theorem Database.Frees.misses {database : Database} {settings : Settings} {skill : Nat}
    (h : database.Frees settings skill) (hkeyed : database.Keyed) {n : Nat} {u : Usable}
    (hu : database.skill? n = some u) : Ledger.Misses settings skill u := by
  have hid : u.id = n := hkeyed n u hu
  -- the entry stands under the free number and is free itself, or it has another number
  by_cases hn : n = skill
  · subst hn
    refine .inl (Bool.or_eq_true_iff.mpr ?_)
    rcases h with hlisted | ⟨v, hv, hbypass⟩
    · exact .inr (List.contains_iff_mem.mpr (hid ▸ hlisted))
    · rw [hu] at hv
      cases hv
      exact .inl hbypass
  · exact .inr (hid ▸ hn)

namespace Battle

/-- What a battler knows is in the database. -/
theorem exists_of_mem_knownSkills {b : Battle} {id : BattlerId} {u : Usable}
    (h : u ∈ b.knownSkills id) : ∃ n, b.database.skill? n = some u := by
  unfold knownSkills at h
  cases hx : b.roster.get? id with
  | none => simp [hx] at h
  | some x =>
    rw [hx, Option.map_some, Option.getD_some] at h
    obtain ⟨n, -, hn⟩ := List.mem_filterMap.mp h
    exact ⟨n, hn⟩

/-- What can happen to the cooldowns of a battle. -/
inductive CooldownStep : Battle → Battle → Prop
  /-- The battle starts. -/
  | start (b : Battle) : CooldownStep b b.start
  /-- A battler pays for using an item. -/
  | pay (b : Battle) (id : BattlerId) (item : ItemRef) : CooldownStep b (b.payCooldowns id item)
  /-- The changes of an item take effect on a battler. -/
  | change (b : Battle) (id : BattlerId) (item : ItemRef) :
      CooldownStep b (b.applyCooldownChanges id item)
  /-- A cooldown command runs. -/
  | command (op : CooldownOp) (c : ActionContext) (b : Battle) : CooldownStep b (op.run c b).2
  /-- A turn ends. -/
  | endTurn (b : Battle) : CooldownStep b b.endTurn
  /-- The battle ends. -/
  | finish (b : Battle) : CooldownStep b b.finish
  /-- The party takes steps. -/
  | takeSteps (b : Battle) (count : Nat) : CooldownStep b (b.takeSteps count)
  /-- Something else happens, that leaves the cooldowns and the rules for them alone. -/
  | other {b b' : Battle} (settings : b'.settings = b.settings)
      (database : b'.database = b.database) (cooldowns : b'.cooldowns = b.cooldowns) :
      CooldownStep b b'

/-- The skill is free of cooldowns in the battle, and there is no counter for it. -/
structure Unlocked (b : Battle) (skill : Nat) : Prop where
  keyed : b.database.Keyed
  frees : b.database.Frees b.settings skill
  spares : b.cooldowns.Spares skill

namespace Unlocked

variable {b b' : Battle} {skill : Nat}

/-- What a database holds and what a battler knows is never written under the number. -/
theorem misses (h : b.Unlocked skill) (n : Nat) (u : Usable) (hu : b.database.skill? n = some u) :
    Ledger.Misses b.settings skill u :=
  h.frees.misses h.keyed hu

/-- Every known skill is free itself or has another number. -/
theorem misses_known (h : b.Unlocked skill) (id : BattlerId) (u : Usable)
    (hu : u ∈ b.knownSkills id) : Ledger.Misses b.settings skill u := by
  obtain ⟨n, hn⟩ := exists_of_mem_knownSkills hu
  exact h.misses n u hn

/-- So does every skill in the scope of a command. -/
theorem misses_scope (h : b.Unlocked skill) (id : BattlerId) (scope : CooldownScope) (u : Usable)
    (hu : u ∈ CooldownOp.skills b id scope) : Ledger.Misses b.settings skill u := by
  obtain ⟨n, -, hn⟩ := List.mem_filterMap.mp hu
  exact h.misses n u hn

theorem start (h : b.Unlocked skill) : b.start.Unlocked skill where
  keyed := h.keyed
  frees := h.frees
  spares := h.spares.foldl fun _ id _ hl => hl.startWarmups (h.misses_known id) id

theorem payCooldowns (h : b.Unlocked skill) (id : BattlerId) (item : ItemRef) :
    (b.payCooldowns id item).Unlocked skill := by
  cases item with
  | item n => exact h
  | skill n =>
    simp only [Battle.payCooldowns]
    split
    · next used hused =>
      exact { h with
        spares := h.spares.pay h.misses (h.misses_known id) id (h.misses n used hused) }
    · exact h

theorem applyCooldownChanges (h : b.Unlocked skill) (id : BattlerId) (item : ItemRef) :
    (b.applyCooldownChanges id item).Unlocked skill := by
  unfold Battle.applyCooldownChanges
  split
  · next source _ =>
    exact { h with spares := h.spares.applyChanges h.misses (h.misses_known id) id source }
  · exact h

/-- A cooldown command asks every skill first whether it is free. -/
theorem run (h : b.Unlocked skill) (op : CooldownOp) (c : ActionContext) :
    (op.run c b).2.Unlocked skill := by
  unfold CooldownOp.run
  split
  · exact h
  · next change _ =>
    refine { h with spares := ?_ }
    -- target by target, and for each one skill in scope after the other
    refine h.spares.foldl fun l id _ hl => hl.foldl fun l u hu hl => ?_
    have hmisses := h.misses_scope id op.scope u hu
    cases change with
    | add x => exact hl.setCooldown hmisses id _
    | set x => exact hl.setCooldown hmisses id x

theorem endTurn (h : b.Unlocked skill) : b.endTurn.Unlocked skill :=
  List.foldlRecOn (motive := fun b : Battle => b.Unlocked skill) _ _ h fun _ hb id _ =>
    { hb with spares := hb.spares.updateTurn id }

theorem finish (h : b.Unlocked skill) : b.finish.Unlocked skill where
  keyed := h.keyed
  frees := h.frees
  spares := h.spares.foldl fun _ id _ hl => hl.endBattle id

theorem takeSteps (h : b.Unlocked skill) (count : Nat) : (b.takeSteps count).Unlocked skill := by
  induction count with
  | zero => exact h
  | succ count ih =>
    exact { ih with spares := ih.spares.foldl fun _ id _ hl => hl.updateSteps id _ }

/-- **No step locks a free skill.** -/
theorem step (h : b.Unlocked skill) (hstep : CooldownStep b b') : b'.Unlocked skill := by
  cases hstep with
  | start => exact h.start
  | pay _ id item => exact h.payCooldowns id item
  | change _ id item => exact h.applyCooldownChanges id item
  | command op c => exact h.run op c
  | endTurn => exact h.endTurn
  | finish => exact h.finish
  | takeSteps _ count => exact h.takeSteps count
  | other settings database cooldowns =>
    exact ⟨database ▸ h.keyed, database ▸ settings ▸ h.frees, cooldowns ▸ h.spares⟩

/-- Nor does any number of them. -/
theorem steps (h : b.Unlocked skill) (hsteps : Relation.ReflTransGen CooldownStep b b') :
    b'.Unlocked skill := by
  induction hsteps with
  | refl => exact h
  | tail _ hstep ih => exact ih.step hstep

end Unlocked

/-- At the start of a battle only the warmups are written. -/
theorem unlocked_battle (s : Scenario) {skill : Nat} (h : s.database.Frees s.settings skill) :
    s.battle.Unlocked skill := by
  refine Unlocked.start ⟨?_, h, Ledger.spares_empty skill⟩
  exact s.keyed_database

/-- **Skills that are free of cooldowns are never locked.** Take a skill number that the settings
of a scenario list as free, or whose skill says so in its notes. Whatever happens to the cooldowns
of the battle of the scenario, no battler has a counter for the number, and so every battler is
ready to use it at any time. -/
theorem free_skills_never_lock {s : Scenario} {b b' : Battle} {r : Runner}
    (h : s.build? = .ok (b, r)) {skill : Nat} (hfree : s.database.Frees s.settings skill)
    (steps : Relation.ReflTransGen CooldownStep b b') (id : BattlerId) :
    (∀ t, b'.cooldowns.find? id = some t →
      t.cooldown.find? skill = none ∧ t.warmup.find? skill = none) ∧
      b'.cooldowns.isReady id skill = true := by
  have hb : b = s.battle.payCooldowns s.subject s.item :=
    congrArg Prod.snd (Scenario.build?_eq_ok h)
  have hstart : b.Unlocked skill := by
    rw [hb]
    exact (unlocked_battle s hfree).payCooldowns _ _
  have hunlocked : b'.Unlocked skill := hstart.steps steps
  constructor
  · intro t ht
    obtain ⟨hcooldown, hwarmup⟩ := hunlocked.spares id t ht
    exact ⟨hcooldown, hwarmup⟩
  · exact hunlocked.spares.isReady id

/-- A skill that the settings list stays ready although it is used. -/
theorem free_skills_never_lock_solo :
    ∃ b r b', Scenario.solo.build? = .ok (b, r) ∧
      Scenario.solo.database.Frees Scenario.solo.settings 1 ∧
      Relation.ReflTransGen CooldownStep b b' ∧ b'.cooldowns.isReady (.actor 0) 1 = true := by
  have hfree : Scenario.solo.database.Frees Scenario.solo.settings 1 := .inl (by decide)
  -- the skill is used once more, and then the turn ends
  have hsteps (b : Battle) :
      Relation.ReflTransGen CooldownStep b (b.payCooldowns (.actor 0) (.skill 1)).endTurn :=
    (Relation.ReflTransGen.single (.pay b (.actor 0) (.skill 1))).tail (.endTurn _)
  exact ⟨_, _, _, Scenario.build?_solo, hfree, hsteps _,
    (free_skills_never_lock Scenario.build?_solo hfree (hsteps _) _).2⟩

end Battle

end BattleScript
