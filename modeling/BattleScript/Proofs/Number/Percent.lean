import BattleScript.Battler.Basic
import BattleScript.Proofs.Number.Double
import BattleScript.Script.Amount

/-!
# Percentages are exact

A share of a maximum and a buffed parameter are calculated in doubles, and made integers at the end.
Both are what an exact calculation and one rounding give.

A parameter is a 32-bit number times a few quarters, which the significand holds. The product in a
share need not fit, for it may have 62 bits. But where it does not, the share is far beyond the
range of the integers, exact or not, and is cut to the same end. Where it fits, only the division
by a hundred is rounded, and that does not change the nearest integer
(`Double.RoundsTo.roundsAway`).
-/

namespace BattleScript

namespace RoundsAway

variable {q : ℚ} {k : ℤ}

/-- What is beyond the range is cut to its upper end, rounded or not. -/
theorem saturate_of_ge (h : RoundsAway q k) (hq : 2 ^ 31 ≤ q) : saturate k = int32Max := by
  have hk : 2 ^ 31 ≤ k := (of_int (2 ^ 31)).mono h (by exact_mod_cast hq)
  simp only [saturate, clampTo, int32Min, int32Max]
  split_ifs <;> omega

/-- What is below the range is cut to its lower end. -/
theorem saturate_of_le (h : RoundsAway q k) (hq : q ≤ -2 ^ 31) : saturate k = int32Min := by
  have hk : k ≤ -2 ^ 31 := h.mono (of_int (-2 ^ 31)) (by exact_mod_cast hq)
  simp only [saturate, clampTo, int32Min, int32Max]
  split_ifs <;> omega

end RoundsAway

namespace Double

/-! ## Shares -/

/-- The share that is calculated has the nearest integer of the exact share, within the range. -/
theorem saturate_share {maximum base k : ℤ} (hmax : FitsInt32 maximum) (hbase : FitsInt32 base)
    (hk : RoundsAway ((maximum * base : ℤ) / (100 : ℕ)) k) :
    saturate (ofInt maximum * ofInt base / ofInt 100).round = saturate k := by
  have hhundred : (ofInt 100).value = (100 : ℕ) := value_ofInt (by norm_num)
  have hmul := roundsTo_mul (ofInt maximum) (ofInt base)
  rw [value_ofInt_of_fits hmax, value_ofInt_of_fits hbase, ← Int.cast_mul] at hmul
  have hdiv := roundsTo_div (ofInt maximum * ofInt base) (y := ofInt 100) (by rw [hhundred]; simp)
  rw [hhundred] at hdiv
  have hround := (ofInt maximum * ofInt base / ofInt 100).roundsAway_round
  generalize ofInt maximum * ofInt base = product at *
  generalize maximum * base = n at *
  by_cases hsmall : |n| < 2 ^ 51
  · rw [hmul.eq (representable_intCast (hsmall.le.trans (by norm_num)))] at hdiv
    rw [hround.unique (hdiv.roundsAway (by norm_num) (by norm_num) (by norm_num) hsmall hk)]
  · -- the product and its double are on the same side of the range
    rcases le_abs.mp (not_lt.mp hsmall) with hn | hn
    · have hproduct : ((2 ^ 51 : ℤ) : ℚ) ≤ product.value :=
        hmul.ge (representable_intCast (by norm_num)) (by exact_mod_cast hn)
      have hquot : ((2 ^ 31 : ℤ) : ℚ) ≤ (product / ofInt 100).value :=
        hdiv.ge (representable_intCast (by norm_num)) (by push_cast at *; linarith)
      have hn : (2 ^ 51 : ℚ) ≤ n := by exact_mod_cast hn
      rw [hk.saturate_of_ge (by push_cast; linarith),
        hround.saturate_of_ge (by exact_mod_cast hquot)]
    · have hproduct : product.value ≤ ((-2 ^ 51 : ℤ) : ℚ) :=
        hmul.le (representable_intCast (by norm_num)) (by exact_mod_cast (by omega))
      have hquot : (product / ofInt 100).value ≤ ((-2 ^ 31 : ℤ) : ℚ) :=
        hdiv.le (representable_intCast (by norm_num)) (by push_cast at *; linarith)
      have hn : (n : ℚ) ≤ -2 ^ 51 := by exact_mod_cast (by omega)
      rw [hk.saturate_of_le (by push_cast; linarith),
        hround.saturate_of_le (by exact_mod_cast hquot)]

/-! ## Buffs -/

/-- The rate of a level is exact. -/
theorem value_rate {level : ℤ} (h : |level| ≤ 2) :
    (ofInt 1 + quarter * ofInt level).value = (4 + level) / 4 := by
  have hone : (ofInt 1).value = (1 : ℤ) := value_ofInt (by norm_num)
  have hlevel : (ofInt level).value = level := value_ofInt (h.trans (by norm_num))
  have hquarter : quarter.value = 1 / 4 := by norm_num [value, quarter]
  -- every intermediate result is a whole number of quarters, so that none is rounded
  have hmul := roundsTo_mul quarter (ofInt level)
  rw [hquarter, hlevel, show (1 / 4 * level : ℚ) = level / 2 ^ 2 by ring] at hmul
  have hadd := roundsTo_add (ofInt 1) (quarter * ofInt level)
  rw [hone, hmul.eq (representable_div_two_pow (h.trans (by norm_num)) (by norm_num)),
    show ((1 : ℤ) + level / 2 ^ 2 : ℚ) = ((4 + level : ℤ) : ℚ) / 2 ^ 2 by push_cast; ring] at hadd
  have h := abs_le.mp h
  rw [hadd.eq (representable_div_two_pow (abs_le.mpr (by omega)) (by norm_num))]
  push_cast
  norm_num

end Double

namespace Battler

variable {x y : Battler} {p : Param}

/-- A buffed parameter is the exact one, rounded once. -/
theorem param_of_roundsAway {k : ℤ} (hbase : FitsInt32 (x.params.get p))
    (hlevel : |x.buffs.get p| ≤ 2)
    (hk : RoundsAway ((x.params.get p : ℚ) * (4 + x.buffs.get p) / 4) k) :
    x.param p = clampTo 0 int32Max k := by
  have hmul := Double.roundsTo_mul (.ofInt (x.params.get p))
    (.ofInt 1 + Double.quarter * .ofInt (x.buffs.get p))
  -- the product has at most 34 bits
  have hfits : |x.params.get p * (4 + x.buffs.get p)| ≤ 2 ^ 53 := by
    have hrate : |4 + x.buffs.get p| ≤ 6 := by
      have := abs_le.mp hlevel
      exact abs_le.mpr (by omega)
    rw [abs_mul]
    calc |x.params.get p| * |4 + x.buffs.get p| ≤ 2 ^ 31 * 6 :=
          mul_le_mul (abs_le_of_fits hbase) hrate (abs_nonneg _) (by norm_num)
      _ ≤ 2 ^ 53 := by norm_num
  have hexact : (x.params.get p : ℚ) * ((4 + x.buffs.get p) / 4) =
      ((x.params.get p * (4 + x.buffs.get p) : ℤ) : ℚ) / 2 ^ 2 := by
    push_cast
    ring
  rw [Double.value_ofInt_of_fits hbase, Double.value_rate hlevel, hexact] at hmul
  have hvalue := hmul.eq (Double.representable_div_two_pow hfits (by norm_num))
  -- so the only rounding is the one to an integer
  have hround := (Double.ofInt (x.params.get p) *
    (.ofInt 1 + Double.quarter * .ofInt (x.buffs.get p))).roundsAway_round
  rw [hvalue, ← hexact, ← mul_div_assoc] at hround
  simp only [param]
  rw [hround.unique hk]

/-- A buff raises no parameter less than a lower buff does. -/
theorem param_mono (hbase : FitsInt32 (x.params.get p)) (hnonneg : 0 ≤ x.params.get p)
    (hsame : y.params.get p = x.params.get p) (hx : |x.buffs.get p| ≤ 2) (hy : |y.buffs.get p| ≤ 2)
    (hle : x.buffs.get p ≤ y.buffs.get p) : x.param p ≤ y.param p := by
  obtain ⟨k, hk⟩ := exists_roundsAway ((x.params.get p : ℚ) * (4 + x.buffs.get p) / 4)
  obtain ⟨l, hl⟩ := exists_roundsAway ((y.params.get p : ℚ) * (4 + y.buffs.get p) / 4)
  rw [param_of_roundsAway hbase hx hk, param_of_roundsAway (hsame ▸ hbase) hy hl]
  -- both are exact and rounded alike, and clamping keeps the order
  refine clampTo_mono (by decide) (hk.mono hl ?_)
  have hnonneg : (0 : ℚ) ≤ x.params.get p := by exact_mod_cast hnonneg
  have hle : (x.buffs.get p : ℚ) ≤ y.buffs.get p := by exact_mod_cast hle
  rw [hsame]
  gcongr

end Battler

namespace Amount

/-- The number that an amount is made of, before its signs. -/
def base (a : Amount) (values : Nat → Int) : Int :=
  match a.source with
  | .literal n => n
  | .stored id => values id

/-- The calculation in doubles, as the program makes it. -/
theorem resolve_eq (a : Amount) (values : Nat → Int) (maximum : Int) :
    a.resolve values maximum =
      let magnitude := if a.percent then
          saturate (Double.ofInt maximum * Double.ofInt (a.base values) / Double.ofInt 100).round
        else a.base values
      if a.negative then saturate (-magnitude) else magnitude :=
  rfl

/-- What a percent amount comes to. -/
theorem resolve_of_percent {a : Amount} {values : Nat → Int} {maximum k : ℤ} (h : a.percent)
    (hbase : FitsInt32 (a.base values)) (hmax : FitsInt32 maximum)
    (hk : RoundsAway ((maximum : ℚ) * a.base values / 100) k) :
    a.resolve values maximum = if a.negative then saturate (-saturate k) else saturate k := by
  rw [resolve_eq, if_pos h, Double.saturate_share hmax hbase (by push_cast; exact hk)]

end Amount

/-- **Percentages are exact.** For 32-bit numbers, a percent amount is its share of the maximum, a
hundredth of the product, rounded to the nearest integer, a half going away from zero, cut to the
range and then negated within the range if its sign is minus; a parameter with a buff of level -2 to
2 is as many quarters of its base, rounded in the same way and not below zero. So of two buffs on a
base that is not negative, the greater one leaves no less. -/
theorem percentages_exact :
    (∀ (a : Amount) (values : Nat → Int) (maximum : Int), a.percent → FitsInt32 (a.base values) →
      FitsInt32 maximum → ∃ k, RoundsAway ((maximum : ℚ) * a.base values / 100) k ∧
        a.resolve values maximum = if a.negative then saturate (-saturate k) else saturate k) ∧
    (∀ (x : Battler) (p : Param), FitsInt32 (x.params.get p) → |x.buffs.get p| ≤ 2 →
      ∃ k, RoundsAway ((x.params.get p : ℚ) * (4 + x.buffs.get p) / 4) k ∧
        x.param p = clampTo 0 int32Max k) ∧
    ∀ (x y : Battler) (p : Param), FitsInt32 (x.params.get p) → 0 ≤ x.params.get p →
      y.params.get p = x.params.get p → |x.buffs.get p| ≤ 2 → |y.buffs.get p| ≤ 2 →
      x.buffs.get p ≤ y.buffs.get p → x.param p ≤ y.param p := by
  refine ⟨fun a values maximum h hbase hmax => ?_, fun x p hbase hlevel => ?_,
    fun x y p hbase hnonneg hsame hx hy hle => Battler.param_mono hbase hnonneg hsame hx hy hle⟩
  · obtain ⟨k, hk⟩ := exists_roundsAway ((maximum : ℚ) * a.base values / 100)
    exact ⟨k, hk, Amount.resolve_of_percent h hbase hmax hk⟩
  · obtain ⟨k, hk⟩ := exists_roundsAway ((x.params.get p : ℚ) * (4 + x.buffs.get p) / 4)
    exact ⟨k, hk, Battler.param_of_roundsAway hbase hlevel hk⟩

/-- Both halves are rounded away from zero: 30% of 45 taken away are 14, and an attack of 10 with a
buff is 13. A second buff makes it no less. -/
theorem percentages_exact_halves :
    let share : Amount := ⟨true, .literal 30, true⟩
    let x := (Battler.fresh "Ann" 1 100 20).addBuff .attack 3
    share.resolve (fun _ => 0) 45 = -14 ∧ x.param .attack = 13 ∧
      x.param .attack ≤ (x.addBuff .attack 3).param .attack := by
  intro share x
  obtain ⟨hshare, hparam, hmono⟩ := percentages_exact
  have hx : |x.buffs.get .attack| ≤ 2 := by decide +kernel
  refine ⟨?_, ?_, hmono x (x.addBuff .attack 3) .attack (by decide +kernel) (by decide +kernel)
    (by decide +kernel) hx (by decide +kernel) (by decide +kernel)⟩
  · obtain ⟨k, hk, hvalue⟩ := hshare share (fun _ => 0) 45 rfl (by decide) (by decide)
    have hround : RoundsAway ((45 : ℤ) * share.base (fun _ => 0) / 100) 14 := by
      constructor <;> norm_num [share, Amount.base, abs_of_nonneg, abs_of_nonpos]
    rw [hvalue, hk.unique hround]
    decide
  · obtain ⟨k, hk, hvalue⟩ := hparam x .attack (by decide +kernel) hx
    have hbase : x.params.get .attack = 10 := by decide +kernel
    have hlevel : x.buffs.get .attack = 1 := by decide +kernel
    have hround : RoundsAway ((10 : ℤ) * (4 + (1 : ℤ)) / 4) 13 := by
      constructor <;> norm_num [abs_of_nonneg, abs_of_nonpos]
    rw [hbase, hlevel] at hk
    rw [hvalue, hk.unique hround]
    decide

end BattleScript
