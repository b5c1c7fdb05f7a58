import BattleScript.Proofs.Target.Resolution
import BattleScript.Scenario
import Mathlib.Algebra.Order.Group.Int

/-!
# Cooldowns after an aftermath

An aftermath goes over the ledger up to three times: the end of a turn takes one off every
counter, the end of the battle adjusts the cooldowns of the party and ends its warmups, and every
step of a walk takes one off the cooldowns whose interval divides the number of steps so far.

Every pass treats a set of places in the same way, each place once (`Ledger.find?_foldl_moveOn`), so
that it is enough to know what it adds to a counter. The steps of a walk are added up by `ticks`, of
which a step adds `tick` (`ticks_succ`): a multiple of the interval is passed exactly when the
rounded quotient goes up. `Battle.timers_after_conclude` puts the passes together.
-/

namespace BattleScript

namespace Roster

variable {r : Roster} {id : BattlerId} {s : Side}

/-- To change a battler changes nobody's place. -/
theorem members_modify (r : Roster) (j : BattlerId) (f : Battler → Battler) (s : Side) :
    (r.modify j f).members s = r.members s := by
  cases s <;> cases j <;> simp [members, battlers, modify]

theorem nodup_members (r : Roster) (s : Side) : (r.members s).Nodup :=
  (r.members_sublist_all s).nodup r.nodup_all

theorem mem_all_of_mem_members (h : id ∈ r.members s) : id ∈ r.all :=
  (r.members_sublist_all s).subset h

/-- A place of the battle is among those of its own side. -/
theorem mem_members_of_mem_all (h : id ∈ r.all) : id ∈ r.members s ↔ id.side = s := by
  rw [mem_members, ← mem_all]
  exact and_iff_left h

end Roster

namespace Ledger

/-- The warmup counter of a skill, if there is one. -/
def warmup? (l : Ledger) (b : BattlerId) (skill : Nat) : Option Int :=
  (l.find? b).bind (·.warmup.find? skill)

variable {f : Timers → Timers} {ids : List BattlerId} {settings : Settings} {database : Database}
  {k : Nat}

/-! ## A pass over some battlers -/

/-- A pass over some places treats each of them once and the others not at all. -/
theorem find?_foldl_moveOn (f : Timers → Timers) (hids : ids.Nodup) (l : Ledger) (id : BattlerId) :
    (ids.foldl (fun l id => l.moveOn id f) l).find? id =
      if id ∈ ids then (l.find? id).map f else l.find? id := by
  induction ids generalizing l with
  | nil => rfl
  | cons j ids ih =>
    obtain ⟨hj, hids⟩ := List.nodup_cons.mp hids
    rw [List.foldl_cons, ih hids, find?_moveOn]
    -- the place that is treated now does not come again
    by_cases hid : id = j
    · subst hid
      rw [if_neg hj, if_pos rfl, if_pos List.mem_cons_self]
    · rw [if_neg hid]
      simp only [List.mem_cons, hid, false_or]

/-- What a pass adds to a cooldown. -/
theorem counter?_foldl_moveOn {d : Nat → Int}
    (hf : ∀ t k, (f t).cooldown.find? k = (t.cooldown.find? k).map (· + d k)) (hids : ids.Nodup)
    (l : Ledger) (id : BattlerId) (k : Nat) :
    (ids.foldl (fun l id => l.moveOn id f) l).counter? id k =
      (l.counter? id k).map (· + if id ∈ ids then d k else 0) := by
  rw [counter?, counter?, find?_foldl_moveOn f hids]
  -- the shift of a place that the pass leaves out is zero
  by_cases hid : id ∈ ids
  · rw [if_pos hid, if_pos hid, Option.bind_map, Option.map_bind]
    exact congrArg (l.find? id).bind (funext fun t => hf t k)
  · rw [if_neg hid, if_neg hid]
    simp

/-- What a pass makes of a warmup. -/
theorem warmup?_foldl_moveOn {g : Option Int → Option Int} (hnone : g none = none)
    (hf : ∀ t k, (f t).warmup.find? k = g (t.warmup.find? k)) (hids : ids.Nodup)
    (l : Ledger) (id : BattlerId) (k : Nat) :
    (ids.foldl (fun l id => l.moveOn id f) l).warmup? id k =
      if id ∈ ids then g (l.warmup? id k) else l.warmup? id k := by
  rw [warmup?, warmup?, find?_foldl_moveOn f hids]
  by_cases hid : id ∈ ids
  · rw [if_pos hid, if_pos hid]
    cases l.find? id with
    | none => exact hnone.symm
    | some t => exact hf t k
  · rw [if_neg hid, if_neg hid]

/-! ## The steps of a walk -/

/-- What a step takes off the cooldown of a skill, by the number of steps so far. -/
def tick (settings : Settings) (database : Database) (k steps : Nat) : Int :=
  match database.skill? k with
  | some skill => if steps % stepInterval settings skill = 0 then 1 else 0
  | none => 0

/-- What the steps from one number on to another take off the cooldown of a skill. -/
def ticks (settings : Settings) (database : Database) (k first last : Nat) : Int :=
  match database.skill? k with
  | some skill =>
    (last / stepInterval settings skill : Nat) - (first / stepInterval settings skill : Nat)
  | none => 0

/-- Whoever stays takes no step that counts. -/
theorem ticks_self (settings : Settings) (database : Database) (k s : Nat) :
    ticks settings database k s s = 0 := by
  unfold ticks
  split
  · exact Int.sub_self _
  · rfl

/-- One step more. -/
theorem ticks_succ (settings : Settings) (database : Database) (k first last : Nat) :
    ticks settings database k first (last + 1) =
      ticks settings database k first last + tick settings database k (last + 1) := by
  unfold ticks tick
  split
  · next skill _ =>
    -- the step completes an interval, or it does not
    by_cases hmod : (last + 1) % stepInterval settings skill = 0
    · rw [if_pos hmod, Nat.succ_div_of_dvd (Nat.dvd_of_mod_eq_zero hmod)]
      omega
    · rw [if_neg hmod, Nat.succ_div_of_not_dvd fun hdvd => hmod (Nat.mod_eq_zero_of_dvd hdvd)]
      exact (Int.add_zero _).symm
  · rfl

/-- Steps only take something off. -/
theorem ticks_nonneg (settings : Settings) (database : Database) (k : Nat) {first last : Nat}
    (h : first ≤ last) : 0 ≤ ticks settings database k first last := by
  unfold ticks
  split
  · next skill _ =>
    have hdiv := Nat.div_le_div_right (c := stepInterval settings skill) h
    omega
  · exact Int.le_refl _

end Ledger

/-! ## The passes of an aftermath -/

namespace Battle

open Ledger (tick ticks)

variable (b : Battle) (id : BattlerId) (k : Nat)

/-- The end of a turn changes the battlers and the ledger, but nobody's place. -/
theorem exists_endTurn_eq : ∃ r, (∀ s, r.members s = b.roster.members s) ∧
    b.endTurn = { b with
      cooldowns := b.roster.all.foldl Ledger.updateTurn b.cooldowns
      roster := r } := by
  unfold endTurn
  -- the places are listed once, before anything changes
  generalize b.roster.all = ids
  induction ids generalizing b with
  | nil => exact ⟨b.roster, fun _ => rfl, rfl⟩
  | cons j ids ih =>
    obtain ⟨r, hr, heq⟩ := ih { b with
      cooldowns := b.cooldowns.updateTurn j
      roster := b.roster.modify j Battler.updateBuffTurns }
    exact ⟨r, fun s => (hr s).trans (Roster.members_modify _ _ _ _), heq⟩

/-- The end of a turn takes one off the cooldowns of all battlers. -/
theorem counter?_endTurn : b.endTurn.cooldowns.counter? id k =
    (b.cooldowns.counter? id k).map (· + if id ∈ b.roster.all then -1 else 0) := by
  obtain ⟨r, -, heq⟩ := b.exists_endTurn_eq
  rw [heq]
  refine Ledger.counter?_foldl_moveOn (d := fun _ => -1) (fun t k => ?_) b.roster.nodup_all _ id k
  exact OrderedMap.find?_mapValues ..

/-- The end of a turn takes one off the warmups of all battlers. -/
theorem warmup?_endTurn : b.endTurn.cooldowns.warmup? id k =
    if id ∈ b.roster.all then (b.cooldowns.warmup? id k).map (· - 1)
    else b.cooldowns.warmup? id k := by
  obtain ⟨r, -, heq⟩ := b.exists_endTurn_eq
  rw [heq]
  refine Ledger.warmup?_foldl_moveOn (g := Option.map (· - 1)) rfl (fun t k => ?_)
    b.roster.nodup_all _ id k
  exact OrderedMap.find?_mapValues ..

/-- The end of the battle adjusts the cooldowns of the party. -/
theorem counter?_finish : b.finish.cooldowns.counter? id k =
    (b.cooldowns.counter? id k).map (· + if id ∈ b.roster.members .actor then
      Ledger.battleAdjustment b.settings b.database k else 0) := by
  refine Ledger.counter?_foldl_moveOn (fun t k => ?_) (b.roster.nodup_members .actor) _ id k
  exact OrderedMap.find?_mapValues ..

/-- The end of the battle ends the warmups of the party. -/
theorem warmup?_finish : b.finish.cooldowns.warmup? id k =
    if id ∈ b.roster.members .actor then none else b.cooldowns.warmup? id k :=
  Ledger.warmup?_foldl_moveOn (g := fun _ => none) rfl (fun _ _ => rfl)
    (b.roster.nodup_members .actor) _ id k

/-- A step takes one off the cooldowns of the party whose interval it completes. -/
theorem counter?_takeStep : b.takeStep.cooldowns.counter? id k =
    (b.cooldowns.counter? id k).map (· + if id ∈ b.roster.members .actor then
      -tick b.settings b.database k ((b.steps + 1) % 4294967296) else 0) := by
  refine Ledger.counter?_foldl_moveOn
    (d := fun k => -tick b.settings b.database k ((b.steps + 1) % 4294967296)) (fun t k => ?_)
    (b.roster.nodup_members .actor) _ id k
  rw [OrderedMap.find?_mapValues]
  refine congrArg (Option.map · _) (funext fun x => ?_)
  unfold tick
  cases b.database.skill? k with
  | none => exact (Int.add_zero x).symm
  | some skill =>
    dsimp only
    split
    · rfl
    · exact (Int.add_zero x).symm

/-- No step shortens a warmup. -/
theorem warmup?_takeStep :
    b.takeStep.cooldowns.warmup? id k = b.cooldowns.warmup? id k := by
  rw [← ite_self (c := id ∈ b.roster.members .actor) (b.cooldowns.warmup? id k)]
  refine Ledger.warmup?_foldl_moveOn (g := fun x => x) rfl (fun t k => ?_)
    (b.roster.nodup_members .actor) _ id k
  rfl

/-- A walk changes the ledger and the number of steps, which does not wrap round if there is room.
-/
theorem exists_takeSteps_eq {n : Nat} (h : b.steps + n < 4294967296) :
    ∃ l, b.takeSteps n = { b with cooldowns := l, steps := b.steps + n } := by
  induction n with
  | zero => exact ⟨b.cooldowns, rfl⟩
  | succ n ih =>
    obtain ⟨l, hl⟩ := ih (by omega)
    have hstep : b.takeSteps (n + 1) = (b.takeSteps n).takeStep := rfl
    rw [hstep, hl, takeStep, Nat.mod_eq_of_lt (by omega)]
    exact ⟨_, rfl⟩

/-- A walk takes off the cooldowns of the party what its steps take off together, as long as the
count of steps does not wrap. -/
theorem counter?_takeSteps {n : Nat} (h : b.steps + n < 4294967296) :
    (b.takeSteps n).cooldowns.counter? id k =
      (b.cooldowns.counter? id k).map (· + if id ∈ b.roster.members .actor then
        -ticks b.settings b.database k b.steps (b.steps + n) else 0) := by
  induction n with
  | zero =>
    have hnone : -ticks b.settings b.database k b.steps (b.steps + 0) = 0 := by
      rw [Nat.add_zero, Ledger.ticks_self, Int.neg_zero]
    rw [hnone, ite_self]
    simp [takeSteps]
    rfl
  | succ n ih =>
    -- the walk up to here has changed cooldowns and the count of steps only
    have hstep : b.takeSteps (n + 1) = (b.takeSteps n).takeStep := rfl
    obtain ⟨l, hl⟩ := b.exists_takeSteps_eq (n := n) (by omega)
    rw [hstep, counter?_takeStep, ih (by omega), Option.map_map, hl, ← Nat.add_assoc,
      Ledger.ticks_succ, Nat.mod_eq_of_lt (by omega)]
    refine congrArg (Option.map · _) (funext fun x => ?_)
    dsimp only [Function.comp]
    split <;> omega

theorem warmup?_takeSteps (n : Nat) :
    (b.takeSteps n).cooldowns.warmup? id k = b.cooldowns.warmup? id k := by
  induction n with
  | zero => rfl
  | succ n ih => exact (warmup?_takeStep _ id k).trans ih

/-! ## The whole aftermath -/

/-- What an aftermath adds to a cooldown. -/
def cooldownShift (a : Aftermath) : Int :=
  (if a.endTurn ∧ id ∈ b.roster.all then -1 else 0) +
  (if a.endBattle ∧ id ∈ b.roster.members .actor then
    Ledger.battleAdjustment b.settings b.database k else 0) +
  if id ∈ b.roster.members .actor then
    -ticks b.settings b.database k b.steps (b.steps + a.steps) else 0

/-- The battle after the turn, if it ends. -/
theorem exists_turn_eq (on : Bool) : ∃ l r, (if on then b.endTurn else b) =
      { b with cooldowns := l, roster := r } ∧
    (∀ s, r.members s = b.roster.members s) ∧
    (∀ id k, l.counter? id k =
      (b.cooldowns.counter? id k).map (· + if on ∧ id ∈ b.roster.all then -1 else 0)) ∧
    ∀ id k, l.warmup? id k = if on ∧ id ∈ b.roster.all then (b.cooldowns.warmup? id k).map (· - 1)
      else b.cooldowns.warmup? id k := by
  cases on with
  | false =>
    refine ⟨b.cooldowns, b.roster, rfl, fun _ => rfl, fun id k => ?_, fun id k => ?_⟩
    · simp
    · simp
  | true =>
    obtain ⟨r, hr, heq⟩ := b.exists_endTurn_eq
    have hcounter := b.counter?_endTurn
    have hwarmup := b.warmup?_endTurn
    rw [heq] at hcounter hwarmup
    refine ⟨_, r, heq, hr, fun id k => ?_, fun id k => ?_⟩
    · simpa using hcounter id k
    · simpa using hwarmup id k

/-- The battle after the end of the battle, if it ends. -/
theorem exists_finish_eq (on : Bool) : ∃ l, (if on then b.finish else b) =
      { b with cooldowns := l } ∧
    (∀ id k, l.counter? id k = (b.cooldowns.counter? id k).map
      (· + if on ∧ id ∈ b.roster.members .actor then
        Ledger.battleAdjustment b.settings b.database k else 0)) ∧
    ∀ id k, l.warmup? id k = if on ∧ id ∈ b.roster.members .actor then none
      else b.cooldowns.warmup? id k := by
  cases on with
  | false =>
    refine ⟨b.cooldowns, rfl, fun id k => ?_, fun id k => ?_⟩
    · simp
    · simp
  | true =>
    refine ⟨b.finish.cooldowns, rfl, fun id k => ?_, fun id k => ?_⟩
    · simpa using b.counter?_finish id k
    · simpa using b.warmup?_finish id k

/-- An aftermath is a walk after the turn and the battle, as far as they end. -/
theorem exists_conclude_eq (a : Aftermath) : ∃ l r,
    b.conclude a = takeSteps { b with cooldowns := l, roster := r } a.steps ∧
    (∀ s, r.members s = b.roster.members s) ∧
    (∀ id k, l.counter? id k = (b.cooldowns.counter? id k).map
      (· + ((if a.endTurn ∧ id ∈ b.roster.all then -1 else 0) +
        if a.endBattle ∧ id ∈ b.roster.members .actor then
          Ledger.battleAdjustment b.settings b.database k else 0))) ∧
    ∀ id k, l.warmup? id k = if a.endBattle ∧ id ∈ b.roster.members .actor then none
      else (b.cooldowns.warmup? id k).map
        (· - if a.endTurn ∧ id ∈ b.roster.all then 1 else 0) := by
  obtain ⟨l, r, hturn, hr, hcounter, hwarmup⟩ := b.exists_turn_eq a.endTurn
  obtain ⟨l', hfinish, hcounter', hwarmup'⟩ :=
    exists_finish_eq { b with cooldowns := l, roster := r } a.endBattle
  -- a shift by the turn and one by the battle are one shift
  refine ⟨l', r, ?_, hr, fun id k => ?_, fun id k => ?_⟩
  · rw [conclude, hturn, hfinish]
  · rw [hcounter', hcounter, hr, Option.map_map]
    refine congrArg (Option.map · _) (funext fun x => ?_)
    exact Int.add_assoc _ _ _
  · rw [hwarmup', hwarmup, hr]
    split
    · rfl
    · split
      · rfl
      · simp

/-- An aftermath shifts a cooldown by what its passes add. -/
theorem counter?_conclude {a : Aftermath} (h : b.steps + a.steps < 4294967296) :
    (b.conclude a).cooldowns.counter? id k =
      (b.cooldowns.counter? id k).map (· + b.cooldownShift id k a) := by
  obtain ⟨l, r, heq, hr, hcounter, -⟩ := b.exists_conclude_eq a
  rw [heq, counter?_takeSteps { b with cooldowns := l, roster := r } id k h, hcounter, hr,
    Option.map_map]
  refine congrArg (Option.map · _) (funext fun x => ?_)
  exact Int.add_assoc _ _ _

/-- An aftermath ends a warmup with the battle, or takes the turn off it. -/
theorem warmup?_conclude (a : Aftermath) :
    (b.conclude a).cooldowns.warmup? id k =
      if a.endBattle ∧ id ∈ b.roster.members .actor then none
      else (b.cooldowns.warmup? id k).map
        (· - if a.endTurn ∧ id ∈ b.roster.all then 1 else 0) := by
  obtain ⟨l, r, heq, -, -, hwarmup⟩ := b.exists_conclude_eq a
  rw [heq, warmup?_takeSteps]
  exact hwarmup id k

/-- Without a raise after the battle, cooldowns do not rise. -/
theorem cooldownShift_nonpos {a : Aftermath} (hadjust : a.endBattle →
    id ∈ b.roster.members .actor → Ledger.battleAdjustment b.settings b.database k ≤ 0) :
    b.cooldownShift id k a ≤ 0 := by
  have hticks := Ledger.ticks_nonneg b.settings b.database k (Nat.le_add_right b.steps a.steps)
  refine add_nonpos (add_nonpos ?_ ?_) ?_
  · split <;> omega
  · split
    · next h => exact hadjust h.1 h.2
    · exact Int.le_refl 0
  · split <;> omega

/-- No cooldown grows by an aftermath that does not adjust it upwards. -/
theorem cooldown_conclude_le {a : Aftermath} (h : b.steps + a.steps < 4294967296)
    (hadjust : a.endBattle →
      id ∈ b.roster.members .actor → Ledger.battleAdjustment b.settings b.database k ≤ 0) :
    (b.conclude a).cooldowns.cooldown id k ≤ b.cooldowns.cooldown id k := by
  have hshift := b.cooldownShift_nonpos id k hadjust
  show ((b.conclude a).cooldowns.counter? id k).getD 0 ≤ (b.cooldowns.counter? id k).getD 0
  rw [b.counter?_conclude id k h]
  cases b.cooldowns.counter? id k with
  | none => exact Int.le_refl _
  | some c =>
    show c + b.cooldownShift id k a ≤ c
    omega

/-- A warmup that is over stays so. -/
theorem warmup_conclude_le {a : Aftermath} (h : b.cooldowns.warmup id k ≤ 0) :
    (b.conclude a).cooldowns.warmup id k ≤ 0 := by
  have hwarmup : (b.cooldowns.warmup? id k).getD 0 ≤ 0 := h
  show ((b.conclude a).cooldowns.warmup? id k).getD 0 ≤ 0
  rw [warmup?_conclude]
  split
  · exact Int.le_refl _
  · cases hc : b.cooldowns.warmup? id k with
    | none => exact Int.le_refl _
    | some w =>
      rw [hc] at hwarmup
      dsimp only [Option.map_some, Option.getD_some] at hwarmup ⊢
      split <;> omega

variable {b id k}

/-- For the party, all three passes count. -/
theorem cooldownShift_actor {a : Aftermath} {skill : Usable}
    (hid : id ∈ b.roster.members .actor) (hskill : b.database.skill? k = some skill) :
    b.cooldownShift id k a = -(if a.endTurn then 1 else 0) +
      (if a.endBattle then skill.cooldown.afterBattle.getD b.settings.cooldownAfterBattle else 0) -
      (((b.steps + a.steps) / Ledger.stepInterval b.settings skill : Nat) -
        (b.steps / Ledger.stepInterval b.settings skill : Nat)) := by
  have hall := Roster.mem_all_of_mem_members hid
  have hturn : (if a.endTurn then -1 else 0 : Int) = -if a.endTurn then 1 else 0 := by
    split <;> rfl
  simp only [cooldownShift, hid, hall, and_true, if_true, ticks, Ledger.battleAdjustment, hskill,
    Option.bind_some, hturn]
  exact (Int.sub_eq_add_neg ..).symm

/-- For the troop, only the turn counts. -/
theorem cooldownShift_enemy {a : Aftermath} (hid : id ∈ b.roster.members .enemy) :
    b.cooldownShift id k a = -(if a.endTurn then 1 else 0) := by
  have hall := Roster.mem_all_of_mem_members hid
  have hactor : id ∉ b.roster.members .actor := by
    rw [Roster.mem_members_of_mem_all hall, (b.roster.mem_members.mp hid).1]
    exact nofun
  simp only [cooldownShift, hall, hactor, and_true, and_false, if_false, Int.add_zero]
  split <;> rfl

/-- Nothing is shifted where there is no battler. -/
theorem cooldownShift_of_not_mem {a : Aftermath} (hid : id ∉ b.roster.all) :
    b.cooldownShift id k a = 0 := by
  have hactor : id ∉ b.roster.members .actor := fun h => hid (Roster.mem_all_of_mem_members h)
  simp [cooldownShift, hid, hactor]

/-- **What an aftermath does to the timers**, as long as the number of steps does not wrap round.

- The cooldowns of the party lose one if the turn ends, gain the adjustment of their skill if the
  battle ends, and lose one for every multiple of the interval of their skill among the steps of
  the walk.
- The cooldowns of the troop lose one if the turn ends.
- Warmups lose one if the turn ends, and those of the party are gone if the battle ends.
- Nobody gets a timer, and who is not in the roster keeps those that there are.

So no cooldown rises unless the battle ends, and a skill that is ready stays so, unless the battle
ends with an adjustment that raises its cooldown. -/
theorem timers_after_conclude (b : Battle) (a : Aftermath)
    (hsteps : b.steps + a.steps < 4294967296) :
    let l := b.cooldowns
    let l' := (b.conclude a).cooldowns
    let turn : Int := if a.endTurn then 1 else 0
    (∀ id ∈ b.roster.members .actor, ∀ k skill, b.database.skill? k = some skill →
      let interval := max (skill.cooldown.steps.getD b.settings.cooldownSteps) 1
      let adjustment := if a.endBattle then
        skill.cooldown.afterBattle.getD b.settings.cooldownAfterBattle else 0
      l'.counter? id k = (l.counter? id k).map fun c => c - turn + adjustment -
        (((b.steps + a.steps) / interval : Nat) - (b.steps / interval : Nat))) ∧
    (∀ id ∈ b.roster.members .enemy, ∀ k, l'.counter? id k = (l.counter? id k).map (· - turn)) ∧
    (∀ id ∈ b.roster.all, ∀ k, l'.warmup? id k =
      if a.endBattle ∧ id.side = .actor then none else (l.warmup? id k).map (· - turn)) ∧
    (∀ id k, (l'.counter? id k).isSome = (l.counter? id k).isSome ∧
      ((l'.warmup? id k).isSome → (l.warmup? id k).isSome)) ∧
    (∀ id ∉ b.roster.all, ∀ k,
      l'.counter? id k = l.counter? id k ∧ l'.warmup? id k = l.warmup? id k) ∧
    (a.endBattle = false → ∀ id k, l'.cooldown id k ≤ l.cooldown id k) ∧
    ∀ id k, l.isReady id k →
      ¬ (a.endBattle ∧ id ∈ b.roster.members .actor ∧
        0 < Ledger.battleAdjustment b.settings b.database k) → l'.isReady id k := by
  intro l l' turn
  -- the party, the enemies, the warmups, no new entries, no battler, no growth, and readiness
  refine ⟨?_, ?_, ?_, ?_, ?_, ?_, ?_⟩
  · intro id hid k skill hskill interval adjustment
    rw [b.counter?_conclude id k hsteps, cooldownShift_actor hid hskill]
    refine congrArg (Option.map · _) (funext fun c => ?_)
    have hinterval : interval = Ledger.stepInterval b.settings skill := rfl
    rw [hinterval]
    omega
  · intro id hid k
    rw [b.counter?_conclude id k hsteps, cooldownShift_enemy hid]
    rfl
  · intro id hid k
    rw [warmup?_conclude]
    simp only [Roster.mem_members_of_mem_all hid, hid, and_true]
    rfl
  · intro id k
    constructor
    · rw [b.counter?_conclude id k hsteps, Option.isSome_map]
    · rw [warmup?_conclude]
      split
      · intro h
        cases h
      · rw [Option.isSome_map]
        exact fun h => h
  · intro id hid k
    constructor
    · rw [b.counter?_conclude id k hsteps, cooldownShift_of_not_mem hid]
      exact (congrFun (congrArg Option.map (funext Int.add_zero)) _).trans Option.map_id_apply
    · rw [warmup?_conclude, if_neg fun h => hid (Roster.mem_all_of_mem_members h.2),
        if_neg fun h => hid h.2]
      exact (congrFun (congrArg Option.map (funext Int.sub_zero)) _).trans Option.map_id_apply
  · intro hend id k
    refine b.cooldown_conclude_le id k hsteps fun h => ?_
    rw [hend] at h
    cases h
  · intro id k hready hnot
    obtain ⟨hcooldown, hwarmup⟩ := (Bool.and_eq_true _ _).mp hready
    have hle := b.cooldown_conclude_le id k (a := a) hsteps fun hend hmem => by
      by_contra hpos
      exact hnot ⟨hend, hmem, by omega⟩
    have hwarm := b.warmup_conclude_le id k (a := a) (of_decide_eq_true hwarmup)
    exact (Bool.and_eq_true _ _).mpr ⟨decide_eq_true (hle.trans (of_decide_eq_true hcooldown)),
      decide_eq_true hwarm⟩

/-- A skill rests for three turns. The turn takes one, the battle ten, and the fifth of five steps
one. -/
theorem timers_after_conclude_rest :
    let slash := ItemSpec.build { id := 10, name := "Slash" }
    let b : Battle :=
      { (ofRoster {} ⟨[.fresh "Ann" 1 100 0], []⟩ (Database.insertSkill {} slash) {}) with
        cooldowns := Ledger.setCooldown {} {} (.actor 0) slash 3 }
    let a : Aftermath := ⟨true, true, 5⟩
    b.steps + a.steps < 4294967296 ∧ b.cooldowns.counter? (.actor 0) 10 = some 3 ∧
      (b.conclude a).cooldowns.counter? (.actor 0) 10 = some (-9) := by
  intro slash b a
  have hsteps : b.steps + a.steps < 4294967296 := by decide
  have hthree : b.cooldowns.counter? (.actor 0) 10 = some 3 := by decide
  obtain ⟨hparty, -⟩ := timers_after_conclude b a hsteps
  have hslash : b.database.skill? 10 = some slash := rfl
  refine ⟨hsteps, hthree, ?_⟩
  rw [hparty (.actor 0) (by decide) 10 slash hslash, hthree]
  decide +kernel

end Battle

end BattleScript
