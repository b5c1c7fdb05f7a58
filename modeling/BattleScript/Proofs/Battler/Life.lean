import BattleScript.Proofs.Battler.Step
import BattleScript.Proofs.Number.Double

/-!
# Life and death of a battler

A battler dies in three ways: its HP run out, it gets the state of death, or it ceases to be
immortal without HP. It comes back in two: by HP, or by losing the state of death. Each of them
changes some fields of its own, and `Consistent` says what they agree on at every moment:

- the dead have no HP, no buffs and no state but death (`Bare`);
- whoever has no HP and is not immortal is dead;
- only the dead have collapsed;
- the HP lie between zero and their maximum.

Most operations change a field and then refresh the battler. What such a change may leave undone is
the difference between `Consistent` and `Orderly`, and `Orderly.refresh` says that `refresh` makes
up for it.
-/

namespace BattleScript

namespace Battler

/-- A battler in full health that goes by the given rules. -/
def recruit (name : String) (dataId : Nat) (mhp mmp : Int) (deathState : Nat) (maxTp : Int) :
    Battler :=
  { fresh name dataId mhp mmp with deathState := deathState, maxTp := maxTp }

/-- Nothing is left of the battler but its death. -/
def Bare (x : Battler) : Prop :=
  x.states = [x.deathState] ∧ x.buffs = .fill 0 ∧ x.buffTurns = .fill 0

/-- What holds of a battler also in the midst of an operation. -/
structure Orderly (x : Battler) : Prop where
  hp_nonneg : 0 ≤ x.hp
  bare : x.isDead → x.Bare
  collapsed : x.collapsed → x.isDead

/-- Life, death and HP agree. -/
structure Consistent (x : Battler) : Prop extends Orderly x where
  hp_le : x.hp ≤ x.mhp
  hp_of_dead : x.isDead → x.hp = 0
  dead_of_hp : x.hp = 0 → x.immortal = false → x.isDead

variable {x y : Battler}

/-- There is always room for one HP. -/
theorem mhp_pos (x : Battler) : 0 < x.mhp :=
  Int.lt_of_lt_of_le Int.zero_lt_one (Int.le_max_right (x.param .maxHp) 1)

/-! ## Dying and coming back -/

theorem isDead_iff : x.isDead ↔ x.deathState ∈ x.states := List.contains_iff_mem

/-- What is dropped is one state. -/
theorem mem_states_dropState {s t : Nat} : t ∈ (x.dropState s).states ↔ t ∈ x.states ∧ t ≠ s := by
  simp [dropState]

/-- Who has just died is consistent, collapsed or not. -/
theorem consistent_perish (x : Battler) :
    Consistent { x.perish with states := [x.deathState] } where
  hp_nonneg := Int.le_refl 0
  bare _ := ⟨rfl, rfl, rfl⟩
  collapsed _ := isDead_iff.mpr List.mem_cons_self
  hp_le := Int.le_of_lt (mhp_pos _)
  hp_of_dead _ := rfl
  dead_of_hp _ _ := isDead_iff.mpr List.mem_cons_self

/-- Who has HP, is not dead and has not collapsed is consistent. -/
theorem consistent_of_alive (pos : 0 < x.hp) (le : x.hp ≤ x.mhp) (alive : ¬ x.isDead)
    (standing : x.collapsed = false) : x.Consistent where
  hp_nonneg := Int.le_of_lt pos
  bare dead := absurd dead alive
  collapsed h := by rw [standing] at h; cases h
  hp_le := le
  hp_of_dead dead := absurd dead alive
  dead_of_hp h := absurd h (Int.ne_of_gt pos)

/-- Without the state of death a battler is not dead. -/
theorem not_isDead_dropState (x : Battler) : ¬ (x.dropState x.deathState).isDead := by
  rw [isDead_iff]
  exact fun h => (mem_states_dropState.mp h).2 rfl

/-! ## Refreshing -/

/-- To cut the pools off at their maxima leaves no HP below zero, since the maximum of the HP is
not. -/
theorem Orderly.capPools (h : x.Orderly) : x.capPools.Orderly where
  hp_nonneg := Int.le_min.mpr ⟨h.hp_nonneg, Int.le_of_lt (mhp_pos x)⟩
  bare := h.bare
  collapsed := h.collapsed

/-- Settling life and death by HP that are within their bounds. -/
theorem Orderly.settleLife (h : x.Orderly) (le : x.hp ≤ x.mhp) : x.settleLife.Consistent := by
  unfold Battler.settleLife
  split
  · next hp =>
    split
    · next stays =>
      -- no HP, but dead already or immortal
      have hdead : x.immortal = false → x.isDead := by
        intro mortal
        simpa [mortal] using stays
      exact { h with hp_le := le, hp_of_dead := fun _ => hp, dead_of_hp := fun _ => hdead }
    · exact consistent_perish x
  · next hp =>
    have pos : 0 < x.hp := by have := h.hp_nonneg; omega
    split
    · exact consistent_of_alive pos le (not_isDead_dropState x) rfl
    · next alive =>
      have standing : x.collapsed = false := by
        cases hc : x.collapsed
        · rfl
        · exact absurd (h.collapsed hc) alive
      exact consistent_of_alive pos le alive standing

/-- **Refreshing puts life and death in order.** -/
theorem Orderly.refresh (h : x.Orderly) : x.refresh.Consistent :=
  h.capPools.settleLife (Int.min_le_right x.hp x.mhp)

/-! ## Operations -/

/-- A pool is gained within its bounds, and HP are never brought below zero. -/
theorem Consistent.gain (h : x.Consistent) (p : Pool) (n : Int) : (x.gain p n).Consistent := by
  refine Orderly.refresh ?_
  have hclamp : 0 ≤ clampTo 0 x.mhp (saturate (x.hp + n)) :=
    le_clampTo (Int.le_of_lt (mhp_pos x)) _
  cases p with
  | hp => exact ⟨hclamp, h.bare, h.collapsed⟩
  | mp | tp => exact ⟨h.hp_nonneg, h.bare, h.collapsed⟩

theorem Consistent.setImmortal (h : x.Consistent) (on : Bool) : (x.setImmortal on).Consistent :=
  Orderly.refresh ⟨h.hp_nonneg, h.bare, h.collapsed⟩

/-- The living may have any states but death. -/
theorem Consistent.withStates (h : x.Consistent) (alive : ¬ x.isDead) {states : List Nat}
    (hs : x.deathState ∉ states) : Consistent { x with states := states } := by
  -- the state of death is not among the new ones either
  have hdead : ¬ ({ x with states := states } : Battler).isDead :=
    fun dead => hs (isDead_iff.mp dead)
  exact {
    hp_nonneg := h.hp_nonneg
    bare := fun dead => absurd dead hdead
    collapsed := fun hc => absurd (h.collapsed hc) alive
    hp_le := h.hp_le
    hp_of_dead := fun dead => absurd dead hdead
    dead_of_hp := fun hp mortal => absurd (h.dead_of_hp hp mortal) alive }

/-- A state is refused, kills, or joins the states of the living. -/
theorem Consistent.addState (h : x.Consistent) (s : Nat) : (x.addState s).2.Consistent := by
  unfold Battler.addState
  split
  · exact h
  · split
    · next hs =>
      split
      · exact h
      · rw [hs]
        exact consistent_perish x
    · next hs =>
      split
      · exact h
      · next alive =>
        -- the state of death is none of those that the battler had, nor the new one
        refine h.withStates alive fun hmem => ?_
        rcases List.mem_append.mp hmem with hmem | hmem
        · exact alive (isDead_iff.mpr hmem)
        · exact hs (List.mem_singleton.mp hmem).symm

/-- To lose the state of death brings back with one HP at least, to lose another one concerns the
living. -/
theorem Consistent.removeState (h : x.Consistent) (s : Nat) : (x.removeState s).2.Consistent := by
  unfold Battler.removeState
  split
  · next hs =>
    have hmem : s ∈ x.states := List.contains_iff_mem.mp hs
    dsimp only
    split
    · next hdeath =>
      subst hdeath
      have := h.hp_nonneg
      have := h.hp_le
      have := mhp_pos x
      -- whoever comes back has one HP, or what it had
      refine consistent_of_alive ?_ ?_ (not_isDead_dropState x) rfl
      · show 0 < if x.hp = 0 then 1 else x.hp
        split <;> omega
      · show (if x.hp = 0 then 1 else x.hp) ≤ x.mhp
        split <;> omega
    · next hdeath =>
      -- the dead have no state that is not their death
      have alive : ¬ x.isDead := by
        intro dead
        rw [(h.bare dead).1] at hmem
        exact hdeath (List.mem_singleton.mp hmem)
      exact h.withStates alive fun hd => alive (isDead_iff.mpr (List.mem_filter.mp hd).1)
  · exact h

/-- Buffs may be set at will, as long as the dead get none. -/
theorem Consistent.withBuffs (h : x.Consistent) {buffs : PerParam Int} {turns : PerParam Nat}
    (hdead : x.isDead → ∀ p, buffs.get p = 0 ∧ turns.get p = 0) :
    Consistent (Battler.refresh { x with buffs := buffs, buffTurns := turns }) := by
  refine Orderly.refresh ⟨h.hp_nonneg, fun dead => ?_, h.collapsed⟩
  refine ⟨(h.bare dead).1, PerParam.ext_get fun p => ?_, PerParam.ext_get fun p => ?_⟩
  · rw [PerParam.get_fill]
    exact (hdead dead p).1
  · rw [PerParam.get_fill]
    exact (hdead dead p).2

/-- Buffs of the living may be set at will. -/
theorem Consistent.settleBuff (h : x.Consistent) (alive : ¬ x.isDead) (p : Param) (level : Int)
    (turns : Nat) : (x.settleBuff p level turns).Consistent :=
  h.withBuffs fun dead => absurd dead alive

theorem Consistent.addBuff (h : x.Consistent) (p : Param) (turns : Nat) :
    (x.addBuff p turns).Consistent := by
  unfold Battler.addBuff
  split
  · exact h
  · next alive => exact h.settleBuff alive _ _ _

theorem Consistent.addDebuff (h : x.Consistent) (p : Param) (turns : Nat) :
    (x.addDebuff p turns).Consistent := by
  unfold Battler.addDebuff
  split
  · exact h
  · next alive => exact h.settleBuff alive _ _ _

theorem Consistent.removeBuff (h : x.Consistent) (p : Param) : (x.removeBuff p).Consistent := by
  refine h.withBuffs fun dead q => ?_
  -- the dead have no buff that could be taken away
  obtain ⟨-, hbuffs, hturns⟩ := h.bare dead
  simp [hbuffs, hturns]

/-- The end of a turn finds nothing to count down on the dead. -/
theorem Consistent.updateBuffTurns (h : x.Consistent) : x.updateBuffTurns.Consistent := by
  refine h.withBuffs fun dead q => ?_
  obtain ⟨-, hbuffs, hturns⟩ := h.bare dead
  simp [hbuffs, hturns]

/-- A collapse is noted of the dead only. -/
theorem Consistent.markCollapsed (h : x.Consistent) (dead : x.isDead) :
    x.markCollapsed.2.Consistent := by
  unfold Battler.markCollapsed
  split
  · exact h
  · exact {
      hp_nonneg := h.hp_nonneg
      bare := h.bare
      collapsed := fun _ => dead
      hp_le := h.hp_le
      hp_of_dead := h.hp_of_dead
      dead_of_hp := h.dead_of_hp }

/-! ## Runs -/

/-- Every operation keeps a battler consistent. -/
theorem Consistent.step (h : x.Consistent) (step : Step x y) : y.Consistent := by
  cases step with
  | gain p n => exact h.gain p n
  | setImmortal on => exact h.setImmortal on
  | addState s => exact h.addState s
  | removeState s => exact h.removeState s
  | addBuff p turns => exact h.addBuff p turns
  | addDebuff p turns => exact h.addDebuff p turns
  | removeBuff p => exact h.removeBuff p
  | updateBuffTurns => exact h.updateBuffTurns
  | markCollapsed dead => exact h.markCollapsed dead

/-- So does any number of them. -/
theorem Consistent.steps (h : x.Consistent) (steps : Steps x y) : y.Consistent := by
  induction steps with
  | refl => exact h
  | tail _ step ih => exact ih.step step

/-! ## From the start -/

/-- Without a buff a parameter has its base value. -/
theorem param_of_unbuffed {p : Param} (h : x.buffs.get p = 0) :
    x.param p = clampTo 0 int32Max (x.params.get p) := by
  have hrate : (Double.ofInt 1 + Double.quarter * Double.ofInt 0).value = 1 := by
    decide +kernel
  have hprod := Double.roundsTo_mul (.ofInt (x.params.get p))
    (.ofInt 1 + Double.quarter * Double.ofInt 0)
  have hbase := Double.roundsTo_ofInt (x.params.get p)
  rw [hrate, mul_one] at hprod
  simp only [param, h]
  refine Double.clampTo_round ?_ (by decide) (by decide) (by decide)
  -- the rate is exactly one, so the product is the base value and exact as well
  rw [hprod.eq hbase.representable]
  exact hbase

/-- A new battler has the maximum of HP that it was made with, and one at least. -/
theorem mhp_recruit (name : String) (dataId : Nat) {mhp : Int} (mmp : Int) (deathState : Nat)
    (maxTp : Int) (h : mhp ≤ int32Max) :
    (recruit name dataId mhp mmp deathState maxTp).mhp = max mhp 1 := by
  have hbase : (recruit name dataId mhp mmp deathState maxTp).params.get .maxHp = max mhp 1 := by
    simp [recruit, fresh]
  have hparam : (recruit name dataId mhp mmp deathState maxTp).param .maxHp = max mhp 1 := by
    rw [param_of_unbuffed (PerParam.get_fill 0 _), hbase]
    refine clampTo_of_mem (by omega) ?_
    have : (1 : Int) ≤ int32Max := by decide
    omega
  rw [Battler.mhp, hparam]
  omega

/-- A new battler is alive and in full health. -/
theorem consistent_recruit (name : String) (dataId : Nat) {mhp : Int} (mmp : Int)
    (deathState : Nat) (maxTp : Int) (h : mhp ≤ int32Max) :
    (recruit name dataId mhp mmp deathState maxTp).Consistent := by
  have hhp : (recruit name dataId mhp mmp deathState maxTp).hp = max mhp 1 := rfl
  have alive : ¬ (recruit name dataId mhp mmp deathState maxTp).isDead := by
    rw [isDead_iff]
    exact List.not_mem_nil
  exact consistent_of_alive (by omega) (Int.le_of_eq (mhp_recruit _ _ _ _ _ h).symm) alive rfl

/-- **Life, death and HP agree.** Whatever is done to a battler, from full health on: if it is dead
it has no HP, no buffs and no state but death; if it has no HP and is not immortal it is dead; if it
has collapsed it is dead; and its HP lie between zero and their maximum. -/
theorem life_state_consistent (name : String) (dataId : Nat) (mhp mmp : Int) (deathState : Nat)
    (maxTp : Int) (hmhp : mhp ≤ int32Max) {x : Battler}
    (h : Steps (recruit name dataId mhp mmp deathState maxTp) x) :
    (x.isDead → x.hp = 0 ∧ x.states = [deathState] ∧
      ∀ p, x.buffs.get p = 0 ∧ x.buffTurns.get p = 0) ∧
    (x.hp = 0 → x.immortal = false → x.isDead) ∧
    (x.collapsed → x.isDead) ∧
    0 ≤ x.hp ∧ x.hp ≤ x.mhp := by
  have hx : x.Consistent := (consistent_recruit _ _ _ _ _ hmhp).steps h
  have hdeath : x.deathState = deathState := congrArg Sheet.deathState h.sheet_eq
  refine ⟨fun dead => ?_, hx.dead_of_hp, hx.collapsed, hx.hp_nonneg, hx.hp_le⟩
  -- the state of death is a matter of the rules, which no operation touches
  obtain ⟨hstates, hbuffs, hturns⟩ := hx.bare dead
  refine ⟨hx.hp_of_dead dead, hdeath ▸ hstates, fun p => ?_⟩
  rw [hbuffs, hturns]
  exact ⟨PerParam.get_fill 0 p, PerParam.get_fill 0 p⟩

/-- A buffed battler who falls while immortal dies with immortality, and then collapses. -/
theorem life_state_consistent_fallen :
    let x := (((((recruit "Ann" 1 100 20 1 100).addBuff .maxHp 3).setImmortal true).gain .hp
      (-200)).setImmortal false).markCollapsed.2
    x.collapsed ∧ x.isDead ∧ x.hp = 0 ∧ x.states = [1] ∧ x.buffs.get .maxHp = 0 := by
  intro x
  have dead : (((((recruit "Ann" 1 100 20 1 100).addBuff .maxHp 3).setImmortal true).gain .hp
      (-200)).setImmortal false).isDead := by decide +kernel
  -- the operations once more, as steps
  have hsteps : Steps (recruit "Ann" 1 100 20 1 100) x :=
    ((((Relation.ReflTransGen.single (.addBuff _ .maxHp 3)).tail (.setImmortal _ true)).tail
      (.gain _ .hp (-200))).tail (.setImmortal _ false)).tail (.markCollapsed _ dead)
  obtain ⟨hdead, -, hcollapsed, -⟩ :=
    life_state_consistent "Ann" 1 100 20 1 100 (by decide) hsteps
  have hc : x.collapsed := by decide +kernel
  obtain ⟨hhp, hstates, hbuffs⟩ := hdead (hcollapsed hc)
  exact ⟨hc, hcollapsed hc, hhp, hstates, (hbuffs .maxHp).1⟩

end Battler

end BattleScript
