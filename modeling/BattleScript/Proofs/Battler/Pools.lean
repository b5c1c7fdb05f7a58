import BattleScript.Proofs.Battler.Life

/-!
# The range of the pools

A pool is `InRange` if it lies between zero and its maximum. HP and TP always do
(`hp_tp_in_range`). MP do not: death takes the buffs of a battler, and with a buff of the maximum of
the MP that maximum falls, but the MP are left as they are. `DiesOverfull` is the step in which this
goes wrong, and it is the only one: every other operation on a battler whose pools are in range
leaves them in range (`inRange_step_iff`).

The way there is `Step.cases`: an operation makes some change and then refreshes the battler, or it
leaves MP and TP alone. A refresh cuts every pool off at its maximum (`pool_refresh`), and the
maximum of the MP only changes with it if the battler dies (`mmp_refresh`).
-/

namespace BattleScript

namespace Battler

/-- What is in the pool lies between zero and its maximum. -/
def InRange (x : Battler) (p : Pool) : Prop := 0 ≤ x.pool p ∧ x.pool p ≤ x.maxPool p

/-- The battler dies, and its MP are above the maximum that is left to it in death. -/
def DiesOverfull (x y : Battler) : Prop := ¬ x.isDead ∧ y.isDead ∧ y.mmp < x.mp

/-- An operation by which the battler does not die with too many MP. -/
def SafeStep (x y : Battler) : Prop := Step x y ∧ ¬ DiesOverfull x y

instance (x : Battler) (p : Pool) : Decidable (x.InRange p) := by unfold InRange; infer_instance

instance (x y : Battler) : Decidable (DiesOverfull x y) := by unfold DiesOverfull; infer_instance

variable {x y z : Battler}

theorem mmp_nonneg (x : Battler) : 0 ≤ x.mmp := le_clampTo (by decide) _

/-- The maximum of the MP is decided by their base value and their buff. -/
theorem mmp_congr (hparams : y.params = x.params) (hbuffs : y.buffs = x.buffs) : y.mmp = x.mmp := by
  rw [mmp, mmp, param, param, hparams, hbuffs]

/-! ## Refreshing -/

/-- Death takes no more than the HP, and those are gone already. -/
theorem pool_settleLife (x : Battler) (p : Pool) : x.settleLife.pool p = x.pool p := by
  unfold settleLife
  split
  · next hp =>
    split
    · rfl
    · cases p with
      | hp => exact hp.symm
      | mp | tp => rfl
  · split <;> cases p <;> rfl

/-- A refresh cuts every pool off at its maximum. -/
theorem pool_refresh (x : Battler) (p : Pool) :
    x.refresh.pool p = min (x.pool p) (x.maxPool p) := by
  rw [refresh, pool_settleLife]
  cases p <;> rfl

/-- A refresh only kills the mortal without HP. -/
theorem dying_of_refresh (alive : ¬ x.isDead) (dead : x.refresh.isDead) :
    x.hp = 0 ∧ x.immortal = false := by
  unfold refresh settleLife at dead
  split at dead
  · next hp =>
    -- the HP are zero below a maximum that is not, so they were zero before
    have hzero : x.hp = 0 := by
      have : min x.hp x.mhp = 0 := hp
      have := mhp_pos x
      omega
    refine ⟨hzero, ?_⟩
    cases hi : x.immortal
    · rfl
    · rw [if_pos (by simp [capPools, hi])] at dead
      exact absurd dead alive
  · split at dead
    · next hd => exact absurd hd alive
    · exact absurd dead alive

/-- But for death, a refresh leaves the maximum of the MP as it is. -/
theorem mmp_refresh (h : x.refresh.isDead → x.isDead) : x.refresh.mmp = x.mmp := by
  by_cases dies : x.capPools.hp = 0 ∧ ¬ (x.capPools.immortal || x.capPools.isDead)
  · -- death would have come with the refresh
    have hrefresh : x.refresh = { x.capPools.perish with states := [x.capPools.deathState] } := by
      rw [refresh, settleLife, if_pos dies.1, if_neg dies.2]
    have hdead : x.isDead := h (by rw [hrefresh]; exact isDead_iff.mpr List.mem_cons_self)
    exact absurd (by simp [show x.capPools.isDead = true from hdead]) dies.2
  · have hbuffs : x.refresh.buffs = x.buffs := by
      unfold refresh settleLife
      split
      · next hp =>
        rw [if_pos (Classical.byContradiction fun hn => dies ⟨hp, hn⟩)]
        rfl
      · split <;> rfl
    exact mmp_congr (congrArg Sheet.params (sheet_refresh x)) hbuffs

/-! ## Operations -/

/-- What an operation may change before it refreshes the battler. If the battler is to die by it,
the MP are as they were. -/
structure Pending (x z : Battler) : Prop where
  isDead : z.isDead = x.isDead
  maxTp : z.maxTp = x.maxTp
  mp_nonneg : 0 ≤ x.mp → 0 ≤ z.mp
  tp_nonneg : 0 ≤ x.tp → 0 ≤ z.tp
  dying : ¬ x.isDead → z.hp = 0 → z.immortal = false → z.mp = x.mp ∧ z.mmp = x.mmp

/-- What an operation leaves alone that does not refresh the battler. -/
structure Spared (x y : Battler) : Prop where
  mp : y.mp = x.mp
  tp : y.tp = x.tp
  buffs : y.buffs = x.buffs ∨ ¬ x.isDead ∧ y.isDead

/-- A change that is not to the HP and immortality does not kill. -/
theorem Consistent.not_dying (h : x.Consistent) (hp : z.hp = x.hp) (hi : z.immortal = x.immortal)
    {P : Prop} : ¬ x.isDead → z.hp = 0 → z.immortal = false → P :=
  fun alive hz mortal => absurd (h.dead_of_hp (hp ▸ hz) (hi ▸ mortal)) alive

/-- To gain a pool is to change it within its bounds and then to refresh. -/
theorem Consistent.pending_gain (h : x.Consistent) (hmax : 0 ≤ x.maxTp) (p : Pool) (n : Int) :
    Pending x (x.withPool p (clampTo 0 (x.maxPool p) (saturate (x.pool p + n)))) := by
  cases p with
  | hp => exact ⟨rfl, rfl, id, id, fun _ _ _ => ⟨rfl, rfl⟩⟩
  | mp => exact ⟨rfl, rfl, fun _ => le_clampTo (mmp_nonneg x) _, id, h.not_dying rfl rfl⟩
  | tp => exact ⟨rfl, rfl, id, fun _ => le_clampTo hmax _, h.not_dying rfl rfl⟩

/-- **An operation changes something and refreshes, or it spares MP and TP.** -/
theorem Step.cases (step : Step x y) (h : x.Consistent) (hmax : 0 ≤ x.maxTp) :
    (∃ z, y = z.refresh ∧ Pending x z) ∨ Spared x y := by
  have spared : Spared x x := ⟨rfl, rfl, .inl rfl⟩
  cases step with
  | gain p n => exact .inl ⟨_, rfl, h.pending_gain hmax p n⟩
  | setImmortal on => exact .inl ⟨_, rfl, ⟨rfl, rfl, id, id, fun _ _ _ => ⟨rfl, rfl⟩⟩⟩
  | removeBuff p => exact .inl ⟨_, rfl, ⟨rfl, rfl, id, id, h.not_dying rfl rfl⟩⟩
  | updateBuffTurns => exact .inl ⟨_, rfl, ⟨rfl, rfl, id, id, h.not_dying rfl rfl⟩⟩
  | addBuff p turns =>
    unfold Battler.addBuff
    split
    · exact .inr spared
    · exact .inl ⟨_, rfl, ⟨rfl, rfl, id, id, h.not_dying rfl rfl⟩⟩
  | addDebuff p turns =>
    unfold Battler.addDebuff
    split
    · exact .inr spared
    · exact .inl ⟨_, rfl, ⟨rfl, rfl, id, id, h.not_dying rfl rfl⟩⟩
  | addState s =>
    refine .inr ?_
    unfold Battler.addState
    split
    · exact spared
    · next hs =>
      split
      · next hdeath =>
        split
        · exact spared
        · -- death by its state: the buffs are gone
          have alive : ¬ x.isDead := by
            rw [Battler.isDead, ← hdeath]
            exact hs
          refine ⟨rfl, rfl, .inr ⟨alive, ?_⟩⟩
          rw [hdeath]
          exact isDead_iff.mpr List.mem_cons_self
      · split
        · exact spared
        · exact ⟨rfl, rfl, .inl rfl⟩
  | removeState s =>
    refine .inr ?_
    unfold Battler.removeState
    split
    · dsimp only
      split <;> exact ⟨rfl, rfl, .inl rfl⟩
    · exact spared
  | markCollapsed dead =>
    refine .inr ?_
    unfold Battler.markCollapsed
    split <;> exact ⟨rfl, rfl, .inl rfl⟩

/-- No operation changes the limit of the TP. -/
theorem maxTp_step (step : Step x y) : y.maxTp = x.maxTp := congrArg Sheet.maxTp step.sheet_eq

/-- An operation leaves HP and TP in range and the MP above zero. -/
theorem hp_tp_step (step : Step x y) (h : x.Consistent) (hmax : 0 ≤ x.maxTp) (htp : x.InRange .tp)
    (hmp : 0 ≤ x.mp) : y.InRange .hp ∧ y.InRange .tp ∧ 0 ≤ y.mp := by
  have hy : y.Consistent := h.step step
  have hmaxTp : y.maxTp = x.maxTp := maxTp_step step
  refine ⟨⟨hy.hp_nonneg, hy.hp_le⟩, ?_⟩
  -- a change and a refresh, which caps; or neither MP nor TP were touched
  rcases step.cases h hmax with ⟨z, rfl, hz⟩ | hspared
  · have hztp : z.refresh.tp = min z.tp z.maxTp := pool_refresh z .tp
    have hzmp : z.refresh.mp = min z.mp z.mmp := pool_refresh z .mp
    have := hz.tp_nonneg htp.1
    have := hz.mp_nonneg hmp
    have := mmp_nonneg z
    have := hz.maxTp
    have hin : 0 ≤ z.refresh.tp ∧ z.refresh.tp ≤ z.refresh.maxTp := by omega
    exact ⟨hin, by omega⟩
  · have hin : 0 ≤ y.tp ∧ y.tp ≤ y.maxTp := by
      rw [hspared.tp, hmaxTp]
      exact htp
    exact ⟨hin, hspared.mp ▸ hmp⟩

/-- MP that are in range stay so, unless the battler dies with too many of them. -/
theorem mp_le_step_iff (step : Step x y) (h : x.Consistent) (hmax : 0 ≤ x.maxTp)
    (hmp : x.mp ≤ x.mmp) : y.mp ≤ y.mmp ↔ ¬ DiesOverfull x y := by
  rcases step.cases h hmax with ⟨z, rfl, hz⟩ | hspared
  · have hzmp : z.refresh.mp = min z.mp z.mmp := pool_refresh z .mp
    by_cases dies : ¬ x.isDead ∧ z.refresh.isDead
    · have hd := dying_of_refresh (hz.isDead ▸ dies.1) dies.2
      obtain ⟨hmpz, hmmpz⟩ := hz.dying dies.1 hd.1 hd.2
      have hiff : DiesOverfull x z.refresh ↔ z.refresh.mmp < x.mp :=
        ⟨fun hover => hover.2.2, fun hlt => ⟨dies.1, dies.2, hlt⟩⟩
      rw [hiff]
      omega
    · -- who does not die keeps the maximum
      have hmmp : z.refresh.mmp = z.mmp := by
        refine mmp_refresh fun dead => ?_
        rw [hz.isDead]
        exact Classical.byContradiction fun alive => dies ⟨alive, dead⟩
      have hsafe : ¬ DiesOverfull x z.refresh := fun hover => dies ⟨hover.1, hover.2.1⟩
      exact iff_of_true (by omega) hsafe
  · rw [hspared.mp]
    rcases hspared.buffs with hbuffs | dies
    · have hmmp : y.mmp = x.mmp := mmp_congr (congrArg Sheet.params step.sheet_eq) hbuffs
      exact iff_of_true (hmmp ▸ hmp) fun hover => Int.not_lt.mpr (hmmp ▸ hmp) hover.2.2
    · exact ⟨fun hle hover => Int.not_lt.mpr hle hover.2.2,
        fun hsafe => Int.not_lt.mp fun hlt => hsafe ⟨dies.1, dies.2, hlt⟩⟩

/-- **The only way out of range.** An operation on a battler whose pools are in range leaves them in
range if and only if it is not a death with too many MP. -/
theorem inRange_step_iff (step : Step x y) (h : x.Consistent) (hmax : 0 ≤ x.maxTp)
    (hx : ∀ p, x.InRange p) : (∀ p, y.InRange p) ↔ ¬ DiesOverfull x y := by
  obtain ⟨hhp, htp, hmp⟩ := hp_tp_step step h hmax (hx .tp) (hx .mp).1
  rw [← mp_le_step_iff step h hmax (hx .mp).2]
  constructor
  · exact fun hy => (hy .mp).2
  · intro hle p
    cases p with
    | hp => exact hhp
    | mp => exact ⟨hmp, hle⟩
    | tp => exact htp

/-! ## Gains -/

/-- What a gain leaves in the pools of a battler. -/
theorem pool_gain (x : Battler) (p q : Pool) (n : Int) :
    (x.gain p n).pool q =
      min (if q = p then clampTo 0 (x.maxPool p) (saturate (x.pool p + n)) else x.pool q)
        (x.maxPool q) := by
  rw [gain, pool_refresh]
  cases p <;> cases q <;> rfl

/-- No maximum is beyond the range of the numbers. -/
theorem maxPool_le (h : x.maxTp ≤ int32Max) (p : Pool) : x.maxPool p ≤ int32Max := by
  cases p with
  | hp =>
    have hparam : x.param .maxHp ≤ int32Max := clampTo_le (by decide) _
    exact Int.max_le.mpr ⟨hparam, by decide⟩
  | mp => exact clampTo_le (by decide) _
  | tp => exact h

/-- If the pools are in range, a gain of zero or more lowers none of them. -/
theorem pool_le_gain (h : x.maxTp ≤ int32Max) (hx : ∀ p, x.InRange p) (p q : Pool) {n : Int}
    (hn : 0 ≤ n) : x.pool q ≤ (x.gain p n).pool q := by
  have hmax := maxPool_le h p
  obtain ⟨hp0, hp⟩ := hx p
  obtain ⟨hq0, hq⟩ := hx q
  rw [pool_gain]
  split
  · next hqp =>
    subst hqp
    -- to saturate first changes nothing about a sum that is cut off at the maximum
    unfold saturate clampTo
    have : int32Min ≤ 0 := by decide
    repeat' split
    all_goals omega
  · omega

/-- A gain of zero or less raises none. -/
theorem gain_le_pool (h : x.maxTp ≤ int32Max) (hx : ∀ p, x.InRange p) (p q : Pool) {n : Int}
    (hn : n ≤ 0) : (x.gain p n).pool q ≤ x.pool q := by
  have hmax := maxPool_le h p
  obtain ⟨hp0, hp⟩ := hx p
  rw [pool_gain]
  split
  · next hqp =>
    subst hqp
    unfold saturate clampTo
    have : int32Min ≤ 0 := by decide
    repeat' split
    all_goals omega
  · exact Int.min_le_left _ _

/-! ## Runs -/

/-- Whatever is done to a battler, HP and TP stay in range and the MP above zero. -/
theorem hp_tp_in_range (h : Steps x y) (hx : x.Consistent) (hmax : 0 ≤ x.maxTp)
    (htp : x.InRange .tp) (hmp : 0 ≤ x.mp) : y.InRange .hp ∧ y.InRange .tp ∧ 0 ≤ y.mp := by
  induction h with
  | refl => exact ⟨⟨hx.hp_nonneg, hx.hp_le⟩, htp, hmp⟩
  | @tail y z steps step ih =>
    have hmaxTp : y.maxTp = x.maxTp := congrArg Sheet.maxTp (Steps.sheet_eq steps)
    exact hp_tp_step step (hx.steps steps) (hmaxTp ▸ hmax) ih.2.1 ih.2.2

/-- Safe operations are operations. -/
theorem steps_of_safe (h : Relation.ReflTransGen SafeStep x y) : Steps x y :=
  h.lift id fun _ _ step => step.1

/-- As long as the battler does not die with too many MP, all pools stay in range. -/
theorem inRange_of_safe (h : Relation.ReflTransGen SafeStep x y) (hx : x.Consistent)
    (hmax : 0 ≤ x.maxTp) (hin : ∀ p, x.InRange p) (p : Pool) : y.InRange p := by
  induction h generalizing p with
  | refl => exact hin p
  | @tail y z steps step ih =>
    have hmaxTp : y.maxTp = x.maxTp := congrArg Sheet.maxTp (steps_of_safe steps).sheet_eq
    have hy : y.Consistent := hx.steps (steps_of_safe steps)
    exact (inRange_step_iff step.1 hy (hmaxTp ▸ hmax) ih).mpr step.2 p

/-- A new battler has its HP and MP full and no TP. -/
theorem inRange_recruit (name : String) (dataId : Nat) {mhp mmp : Int} (deathState : Nat)
    {maxTp : Int} (hmhp : mhp ≤ int32Max) (hmmp : mmp ≤ int32Max) (hmaxTp : 0 ≤ maxTp) (p : Pool) :
    (recruit name dataId mhp mmp deathState maxTp).InRange p := by
  cases p with
  | hp =>
    have hx := consistent_recruit name dataId mmp deathState maxTp hmhp
    exact ⟨hx.hp_nonneg, hx.hp_le⟩
  | mp =>
    have hbase : (recruit name dataId mhp mmp deathState maxTp).params.get .maxMp = max mmp 0 := by
      simp [recruit, fresh]
    have hmax : (recruit name dataId mhp mmp deathState maxTp).mmp = max mmp 0 := by
      rw [Battler.mmp, param_of_unbuffed (PerParam.get_fill 0 _), hbase]
      have : (0 : Int) ≤ int32Max := by decide
      exact clampTo_of_mem (by omega) (by omega)
    exact ⟨Int.le_max_right mmp 0, Int.le_of_eq hmax.symm⟩
  | tp => exact ⟨Int.le_refl 0, hmaxTp⟩

/-- **The range of the pools.** As long as a battler does not die with more MP than it can have
without buffs, all its pools stay in range; and the next operation leaves them in range exactly if
it is not such a death. HP and TP stay in range whatever is done to it later, and the MP do not fall
below zero. A gain of zero or more lowers no pool, and one of zero or less raises none. -/
theorem pools_in_range_unless_overfull (name : String) (dataId : Nat) (mhp mmp : Int)
    (deathState : Nat) (maxTp : Int) (hmhp : mhp ≤ int32Max) (hmmp : mmp ≤ int32Max)
    (hmaxTp : 0 ≤ maxTp) (hfits : maxTp ≤ int32Max) {x : Battler}
    (h : Relation.ReflTransGen SafeStep (recruit name dataId mhp mmp deathState maxTp) x) :
    (∀ p, x.InRange p) ∧
    (∀ y, Step x y → ((∀ p, y.InRange p) ↔ ¬ DiesOverfull x y)) ∧
    (∀ y, Steps x y → y.InRange .hp ∧ y.InRange .tp ∧ 0 ≤ y.mp) ∧
    ∀ p q n, (0 ≤ n → x.pool q ≤ (x.gain p n).pool q) ∧
      (n ≤ 0 → (x.gain p n).pool q ≤ x.pool q) := by
  have hstart := consistent_recruit name dataId mmp deathState maxTp hmhp
  have hx : x.Consistent := hstart.steps (steps_of_safe h)
  -- the limit of the TP is a matter of the rules, which no operation touches
  have hmax : x.maxTp = maxTp := congrArg Sheet.maxTp (steps_of_safe h).sheet_eq
  have hin : ∀ p, x.InRange p :=
    inRange_of_safe h hstart hmaxTp (inRange_recruit name dataId deathState hmhp hmmp hmaxTp)
  refine ⟨hin, fun y step => inRange_step_iff step hx (hmax ▸ hmaxTp) hin,
    fun y steps => hp_tp_in_range steps hx (hmax ▸ hmaxTp) (hin .tp) (hin .mp).1,
    fun p q n => ⟨?_, ?_⟩⟩
  · exact pool_le_gain (hmax ▸ hfits) hin p q
  · exact gain_le_pool (hmax ▸ hfits) hin p q

/-- A battler who has lost some MP may die while their maximum is raised. -/
theorem pools_in_range_unless_overfull_spent :
    let x := ((recruit "Mia" 1 100 20 1 100).addBuff .maxMp 3).gain .hp (-100)
    x.isDead ∧ ∀ p, x.InRange p := by
  intro x
  have hsteps : Relation.ReflTransGen SafeStep (recruit "Mia" 1 100 20 1 100) x :=
    (Relation.ReflTransGen.single ⟨.addBuff _ .maxMp 3, by decide⟩).tail
      ⟨.gain _ .hp (-100), by decide⟩
  exact ⟨by decide, (pools_in_range_unless_overfull "Mia" 1 100 20 1 100 (by decide) (by decide)
    (by decide) (by decide) hsteps).1⟩

/-- Once the MP were filled up to their raised maximum, death leaves them above it, and then even a
gain of nothing lowers them. -/
theorem mp_above_maximum_in_death :
    let x := (((recruit "Mia" 1 100 20 1 100).addBuff .maxMp 3).gain .mp 100).gain .hp (-100)
    Steps (recruit "Mia" 1 100 20 1 100) x ∧ ¬ x.InRange .mp ∧
      (x.gain .mp 0).pool .mp < x.pool .mp := by
  intro x
  have hsteps : Steps (recruit "Mia" 1 100 20 1 100) x :=
    ((Relation.ReflTransGen.single (.addBuff _ .maxMp 3)).tail (.gain _ .mp 100)).tail
      (.gain _ .hp (-100))
  exact ⟨hsteps, by decide +kernel, by decide +kernel⟩

end Battler

end BattleScript
