import BattleScript.Number.Double
import BattleScript.Proofs.Number.Rounding
import Mathlib.Algebra.Order.Field.Power
import Mathlib.Tactic.Positivity

/-!
# What doubles can and cannot tell apart

An operation on doubles gives the double nearest to the exact result (`Double.RoundsTo`). Of the
ways to break a tie nothing is used here, only two consequences of being nearest: a rounded result
is on the same side of every double as the exact one (`RoundsTo.le`, `RoundsTo.ge`), so that it is
exact if the exact one is a double at all (`RoundsTo.eq`); and it is off by no more than half a
unit of its last place (`RoundsTo.lt_of_gap`).

So a quotient of integers that fit the significand is rounded down to the same integer as the
exact one (`RoundsTo.floor_eq`), and to the same nearest integer (`RoundsTo.roundsAway`): the
exact quotient keeps a distance from the next integer or half, unless it is one, that the error is
too small to cover.
-/

namespace BattleScript

/-- A 32-bit number is far within the significand. -/
theorem abs_le_of_fits {n : ℤ} (h : FitsInt32 n) : |n| ≤ 2 ^ 31 := by
  obtain ⟨hlow, hhigh⟩ := h
  simp only [int32Min, int32Max] at hlow hhigh
  exact abs_le.mpr (by omega)

namespace Double

/-- The number that a double stands for. -/
def value (x : Double) : ℚ := x.significand * 2 ^ x.exponent

/-- Whether a number is one of the format: a significand of 53 bits, on the grid of the subnormal
numbers. -/
def Representable (q : ℚ) : Prop := ∃ m e : ℤ, |m| ≤ 2 ^ 53 ∧ -1074 ≤ e ∧ q = m * 2 ^ e

/-- The number `v` is a double nearest to `q`. -/
structure RoundsTo (q v : ℚ) : Prop where
  representable : Representable v
  nearest : ∀ w, Representable w → |v - q| ≤ |w - q|
  close : |v - q| ≤ max (|q| / 2 ^ 53) (2 ^ (-1075 : ℤ))

/-! ## Numbers of the format -/

/-- Integers that fit the significand, and their halves, quarters and so on, are doubles. -/
theorem representable_div_two_pow {n : ℤ} {i : ℕ} (h : |n| ≤ 2 ^ 53) (hi : i ≤ 1074) :
    Representable (n / 2 ^ i) :=
  ⟨n, -i, h, by omega, by rw [zpow_neg, zpow_natCast, div_eq_mul_inv]⟩

theorem representable_intCast {n : ℤ} (h : |n| ≤ 2 ^ 53) : Representable n := by
  simpa using representable_div_two_pow (i := 0) h (by norm_num)

theorem Representable.neg {q : ℚ} (h : Representable q) : Representable (-q) := by
  obtain ⟨m, e, hm, he, rfl⟩ := h
  exact ⟨-m, e, by rwa [abs_neg], he, by rw [Int.cast_neg, neg_mul]⟩

/-! ## Consequences of being nearest -/

namespace RoundsTo

variable {q v r : ℚ}

/-- Rounding knows nothing of the sign. -/
theorem neg (h : RoundsTo q v) : RoundsTo (-q) (-v) := by
  have hdist (w : ℚ) : |w - -q| = |-w - q| := by
    rw [← abs_neg]
    ring_nf
  refine ⟨h.representable.neg, fun w hw => ?_, ?_⟩
  · rw [hdist, hdist, neg_neg]
    exact h.nearest (-w) hw.neg
  · rw [hdist, neg_neg, abs_neg]
    exact h.close

/-- A double that is not less than the exact number is not less than the rounded one. -/
theorem le (h : RoundsTo q v) (hr : Representable r) (hle : q ≤ r) : v ≤ r := by
  by_contra hlt
  have hnear := h.nearest r hr
  rw [abs_of_nonneg (by linarith), abs_of_nonneg (by linarith)] at hnear
  linarith

/-- Nor is a double that is not greater than the exact number greater than the rounded one. -/
theorem ge (h : RoundsTo q v) (hr : Representable r) (hle : r ≤ q) : r ≤ v := by
  have := h.neg.le hr.neg (neg_le_neg hle)
  linarith

/-- A number of the format is rounded to itself. -/
theorem eq (h : RoundsTo q v) (hq : Representable q) : v = q :=
  le_antisymm (h.le hq le_rfl) (h.ge hq le_rfl)

/-- The error is too small to cover a distance of a unit in a place that the significand still
has. -/
theorem lt_of_gap {n : ℤ} {d : ℕ} (h : RoundsTo q v) (hd : 0 < d) (hd' : d ≤ 2 ^ 53)
    (hq : q = n / d) (hn : |n| < 2 ^ 53) : |v - q| < 1 / d := by
  have hdpos : (0 : ℚ) < d := by exact_mod_cast hd
  -- the bound is relative for an ordinary quotient, and absolute for one near zero
  refine lt_of_le_of_lt h.close (max_lt ?_ ?_)
  · have hn : |(n : ℚ)| < 2 ^ 53 := by exact_mod_cast hn
    rw [hq, abs_div, abs_of_pos hdpos, div_div, div_lt_div_iff₀ (by positivity) hdpos]
    nlinarith
  · have hd' : (d : ℚ) ≤ 2 ^ 53 := by exact_mod_cast hd'
    have hunit : (2 : ℚ) ^ (-1075 : ℤ) < 1 / 2 ^ 53 := by
      rw [show (1 / 2 ^ 53 : ℚ) = 2 ^ (-53 : ℤ) by norm_num]
      exact zpow_lt_zpow_right₀ (by norm_num) (by norm_num)
    exact hunit.trans_le (one_div_le_one_div_of_le hdpos hd')

end RoundsTo

/-! ## What the operations round to -/

/-- A whole number of units of the last place is a nearest double, if it is off by no more than half
a unit and the unit is the one that leaves 53 digits, or the least of the format. -/
theorem roundsTo_of_unit {x : ℚ} {e : ℤ} {m : ℕ} (he : -1074 ≤ e) (hupper : x < 2 ^ (e + 53))
    (hlower : 2 ^ (e + 52) ≤ x ∨ 0 ≤ x ∧ e = -1074) (hm : |(m : ℚ) - x / 2 ^ e| ≤ 1 / 2) :
    RoundsTo x (m * 2 ^ e) := by
  have hu : (0 : ℚ) < 2 ^ e := by positivity
  obtain ⟨s, rfl⟩ : ∃ s, x = s * 2 ^ e := ⟨x / 2 ^ e, by field_simp⟩
  rw [mul_div_cancel_right₀ _ hu.ne'] at hm
  rw [zpow_add₀ two_ne_zero, mul_comm ((2 : ℚ) ^ e), mul_lt_mul_iff_left₀ hu] at hupper
  rw [zpow_add₀ two_ne_zero, mul_comm ((2 : ℚ) ^ e), mul_le_mul_iff_left₀ hu,
    mul_nonneg_iff_of_pos_right hu] at hlower
  norm_num at hupper hlower
  have hs : 0 ≤ s := by
    rcases hlower with h | ⟨h, -⟩ <;> linarith
  have hle := abs_le.mp hm
  -- no whole number of units is nearer
  have hwhole (b : ℤ) : |m * 2 ^ e - s * 2 ^ e| ≤ |b * 2 ^ e - s * 2 ^ e| := by
    rw [← sub_mul, ← sub_mul, abs_mul, abs_mul]
    refine mul_le_mul_of_nonneg_right ?_ (abs_nonneg _)
    by_cases hb : b = m
    · rw [hb, Int.cast_natCast]
    · refine hm.trans ?_
      rcases lt_or_gt_of_ne hb with h | h
      · have h : (b : ℚ) + 1 ≤ m := by exact_mod_cast h
        rw [abs_of_nonpos (by linarith)]
        linarith
      · have h : (m : ℚ) + 1 ≤ b := by exact_mod_cast h
        rw [abs_of_nonneg (by linarith)]
        linarith
  refine ⟨⟨m, e, ?_, he, by norm_num⟩, ?_, ?_⟩
  · have hlt : (m : ℚ) < 2 ^ 53 + 1 := by linarith
    have hlt : m < 2 ^ 53 + 1 := by exact_mod_cast hlt
    rw [Nat.abs_cast]
    exact_mod_cast Nat.lt_succ_iff.mp hlt
  · rintro w ⟨a, f, ha, hf, rfl⟩
    by_cases hef : e ≤ f
    · obtain ⟨i, rfl⟩ : ∃ i : ℕ, f = i + e := ⟨(f - e).toNat, by omega⟩
      rw [zpow_add₀ two_ne_zero, ← mul_assoc, zpow_natCast]
      exact_mod_cast hwhole (a * 2 ^ i)
    · -- a number of lesser places stays below the power of two that is the least one of this place
      have ha : (a : ℚ) ≤ 2 ^ 53 := by exact_mod_cast (abs_le.mp ha).2
      have hsmall : (a : ℚ) * 2 ^ f ≤ 4503599627370496 * 2 ^ e := calc
        (a : ℚ) * 2 ^ f ≤ 2 ^ 53 * 2 ^ (e - 1) :=
          mul_le_mul ha (zpow_le_zpow_right₀ (by norm_num) (by omega)) (by positivity)
            (by norm_num)
        _ = 4503599627370496 * 2 ^ e := by
          rw [zpow_sub_one₀ two_ne_zero]
          ring
      have hlower : 4503599627370496 ≤ s := by
        rcases hlower with h | ⟨-, h⟩
        · exact h
        · omega
      have hbelow : (4503599627370496 : ℚ) * 2 ^ e ≤ s * 2 ^ e :=
        mul_le_mul_of_nonneg_right hlower hu.le
      refine (hwhole 4503599627370496).trans ?_
      rw [abs_of_nonpos (by push_cast; linarith), abs_of_nonpos (by linarith)]
      push_cast
      linarith
  · have hoff : |m * 2 ^ e - s * 2 ^ e| ≤ 2 ^ e / 2 := by
      rw [← sub_mul, abs_mul, abs_of_pos hu]
      linarith [mul_le_mul_of_nonneg_right hm hu.le]
    rcases hlower with h | ⟨-, rfl⟩
    · refine le_max_of_le_left (hoff.trans ?_)
      rw [abs_of_nonneg (by positivity)]
      linarith [mul_le_mul_of_nonneg_right h hu.le]
    · refine le_max_of_le_right (hoff.trans_eq ?_)
      rw [show (-1075 : ℤ) = -1074 - 1 by norm_num, zpow_sub_one₀ two_ne_zero]
      ring

/-- Division to an even quotient is off by no more than a half, on either side of the tie. -/
theorem divToEven_near (n : ℕ) {d : ℕ} (hd : 0 < d) :
    |(divToEven n d : ℚ) - n / d| ≤ 1 / 2 := by
  have hd' : (0 : ℚ) < d := by exact_mod_cast hd
  -- what is divided is the quotient and a rest below one, and the rest decides which way to go
  have hsplit : (n : ℚ) / d = (n / d : ℕ) + (n % d : ℕ) / d := by
    rw [div_eq_iff hd'.ne', add_mul, div_mul_cancel₀ _ hd'.ne']
    exact_mod_cast (Nat.div_add_mod' n d).symm
  have hrest : ((n % d : ℕ) : ℚ) / d < 1 := by
    rw [div_lt_one hd']
    exact_mod_cast Nat.mod_lt n hd
  have hrest0 : 0 ≤ ((n % d : ℕ) : ℚ) / d := by positivity
  rw [hsplit]
  simp only [divToEven]
  split
  · next hup =>
    have hhalf : d ≤ 2 * (n % d) := by
      simp only [Bool.or_eq_true, decide_eq_true_eq, Bool.and_eq_true, beq_iff_eq] at hup
      omega
    have hhalf : 1 / 2 ≤ ((n % d : ℕ) : ℚ) / d := by
      have hhalf : (d : ℚ) ≤ 2 * (n % d : ℕ) := by exact_mod_cast hhalf
      rw [le_div_iff₀ hd']
      linarith
    rw [Nat.cast_succ, abs_le]
    constructor <;> linarith
  · next hdown =>
    have hhalf : 2 * (n % d) ≤ d := by
      simp only [Bool.or_eq_true, decide_eq_true_eq, Bool.and_eq_true, beq_iff_eq] at hdown
      omega
    have hhalf : ((n % d : ℕ) : ℚ) / d ≤ 1 / 2 := by
      have hhalf : 2 * ((n % d : ℕ) : ℚ) ≤ d := by exact_mod_cast hhalf
      rw [div_le_iff₀ hd']
      linarith
    rw [abs_le]
    constructor <;> linarith

/-- For any exponent the significand is off by no more than a half, in units of its last place. -/
theorem significandAt_near (n : ℕ) {d : ℕ} (hd : 0 < d) (e : ℤ) :
    |(significandAt n d e : ℚ) - n / d / 2 ^ e| ≤ 1 / 2 := by
  unfold significandAt
  -- an exponent below zero shifts the numerator, another one the denominator
  split
  · next he =>
    obtain ⟨i, rfl⟩ := Int.eq_ofNat_of_zero_le he
    have hshift : (n : ℚ) / d / 2 ^ (i : ℤ) = n / (d <<< i : ℕ) := by
      rw [Nat.shiftLeft_eq, Nat.cast_mul, zpow_natCast, div_div]
      push_cast
      rfl
    rw [hshift]
    exact divToEven_near n (by rw [Nat.shiftLeft_eq]; positivity)
  · next he =>
    obtain ⟨i, rfl⟩ : ∃ i : ℕ, e = -i := ⟨(-e).toNat, by omega⟩
    have hshift : (n : ℚ) / d / 2 ^ (-(i : ℤ)) = (n <<< i : ℕ) / d := by
      rw [Nat.shiftLeft_eq, zpow_neg, zpow_natCast, div_inv_eq_mul]
      push_cast
      ring
    rw [hshift, neg_neg]
    exact divToEven_near _ hd

/-- A power of two is compared with a fraction by shifting one of its sides. -/
theorem reaches_iff {n d : ℕ} (hd : 0 < d) (k : ℤ) :
    (if 0 ≤ k then decide (d <<< k.toNat ≤ n) else decide (d ≤ n <<< (-k).toNat)) = true ↔
      (2 : ℚ) ^ k ≤ n / d := by
  rw [le_div_iff₀ (by exact_mod_cast hd)]
  split
  · next hk =>
    obtain ⟨i, rfl⟩ := Int.eq_ofNat_of_zero_le hk
    rw [decide_eq_true_iff, zpow_natCast, Int.toNat_natCast, Nat.shiftLeft_eq, mul_comm]
    exact_mod_cast Iff.rfl
  · next hk =>
    obtain ⟨i, rfl⟩ : ∃ i : ℕ, k = -i := ⟨(-k).toNat, by omega⟩
    rw [decide_eq_true_iff, neg_neg, Int.toNat_natCast, Nat.shiftLeft_eq, zpow_neg, zpow_natCast,
      inv_mul_le_iff₀ (by positivity), mul_comm ((2 : ℚ) ^ i)]
    exact_mod_cast Iff.rfl

/-- The last place kept is the one that leaves 53 digits, or that of the least numbers. -/
theorem lastBinaryPlace_spec {n d : ℕ} (hn : 0 < n) (hd : 0 < d) :
    -1074 ≤ lastBinaryPlace n d ∧ (n : ℚ) / d < 2 ^ (lastBinaryPlace n d + 53) ∧
      (2 ^ (lastBinaryPlace n d + 52) ≤ (n : ℚ) / d ∨
        0 ≤ (n : ℚ) / d ∧ lastBinaryPlace n d = -1074) := by
  have hd' : (0 : ℚ) < d := by exact_mod_cast hd
  have hn1 : (2 : ℚ) ^ (n.log2 : ℤ) ≤ n := by
    rw [zpow_natCast]
    exact_mod_cast Nat.log2_self_le hn.ne'
  have hn2 : (n : ℚ) < 2 ^ ((n.log2 : ℤ) + 1) := by
    exact_mod_cast Nat.lt_log2_self
  have hd1 : (2 : ℚ) ^ (d.log2 : ℤ) ≤ d := by
    rw [zpow_natCast]
    exact_mod_cast Nat.log2_self_le hd.ne'
  have hd2 : (d : ℚ) < 2 ^ ((d.log2 : ℤ) + 1) := by
    exact_mod_cast Nat.lt_log2_self
  obtain ⟨k, hk⟩ : ∃ k : ℤ, (n.log2 : ℤ) - d.log2 = k := ⟨_, rfl⟩
  -- the quotient of the leading powers is the leading power of the quotient, or the double of it
  have hhigh : (n : ℚ) / d < 2 ^ (k + 1) := by
    rw [div_lt_iff₀ hd']
    calc (n : ℚ) < 2 ^ ((n.log2 : ℤ) + 1) := hn2
      _ = 2 ^ (k + 1) * 2 ^ (d.log2 : ℤ) := by rw [← zpow_add₀ two_ne_zero]; congr 1; omega
      _ ≤ 2 ^ (k + 1) * d := mul_le_mul_of_nonneg_left hd1 (by positivity)
  have hlow : 2 ^ (k - 1) ≤ (n : ℚ) / d := by
    rw [le_div_iff₀ hd']
    calc (2 : ℚ) ^ (k - 1) * d ≤ 2 ^ (k - 1) * 2 ^ ((d.log2 : ℤ) + 1) :=
          mul_le_mul_of_nonneg_left hd2.le (by positivity)
      _ = 2 ^ (n.log2 : ℤ) := by rw [← zpow_add₀ two_ne_zero]; congr 1; omega
      _ ≤ n := hn1
  obtain ⟨e, he⟩ : ∃ e, (if 2 ^ k ≤ (n : ℚ) / d then k - 52 else k - 53) = e := ⟨_, rfl⟩
  have hplace : lastBinaryPlace n d = max (-1074) e := by
    simp only [lastBinaryPlace, hk, reaches_iff hd, he]
  have hbounds : 2 ^ (e + 52) ≤ (n : ℚ) / d ∧ (n : ℚ) / d < 2 ^ (e + 53) := by
    split at he
    · next hle =>
      subst he
      exact ⟨by simpa using hle, by convert hhigh using 2; omega⟩
    · next hlt =>
      subst he
      exact ⟨by convert hlow using 2; omega, by simpa using hlt⟩
  rw [hplace]
  rcases le_total (-1074) e with h | h
  · rw [max_eq_right h]
    exact ⟨h, hbounds.2, .inl hbounds.1⟩
  · rw [max_eq_left h]
    exact ⟨le_rfl, hbounds.2.trans_le (zpow_le_zpow_right₀ (by norm_num) (by omega)),
      .inr ⟨by positivity, rfl⟩⟩

/-- What `nearest` finds. -/
theorem roundsTo_nearest (n : ℤ) {d : ℕ} (hd : 0 < d) :
    RoundsTo ((n : ℚ) / d) (nearest n d).value := by
  have hnat (h : 0 < n.natAbs) := by
    obtain ⟨he, hupper, hlower⟩ := lastBinaryPlace_spec h hd
    exact roundsTo_of_unit he hupper hlower (significandAt_near n.natAbs hd _)
  have hvalue : (nearest n d).value = n.sign *
      (significandAt n.natAbs d (lastBinaryPlace n.natAbs d) *
        2 ^ lastBinaryPlace n.natAbs d) := by
    simp only [nearest, value]
    push_cast
    ring
  rw [hvalue]
  -- the magnitude is rounded, and the sign put back
  rcases lt_trichotomy n 0 with h | rfl | h
  · have hn : (n : ℚ) / d = -((n.natAbs : ℚ) / d) := by
      rw [Nat.cast_natAbs, abs_of_neg h, Int.cast_neg, neg_div, neg_neg]
    rw [hn, Int.sign_eq_neg_one_of_neg h, Int.cast_neg, Int.cast_one, neg_one_mul]
    exact (hnat (by omega)).neg
  · norm_num
    exact ⟨⟨0, 0, by norm_num⟩, fun w _ => by simp, by simp⟩
  · have hn : (n : ℚ) = n.natAbs := by
      rw [Nat.cast_natAbs, abs_of_pos h]
    rw [hn, Int.sign_eq_one_of_pos h, Int.cast_one, one_mul]
    exact hnat (by omega)

theorem denominator_pos (x : Double) : 0 < x.denominator := by
  rw [denominator, Nat.one_shiftLeft]
  positivity

/-- A double is the fraction that the operations calculate with. -/
theorem value_eq_div (x : Double) : x.value = x.numerator / x.denominator := by
  obtain ⟨m, e⟩ := x
  simp only [value, numerator, denominator, Nat.one_shiftLeft]
  rcases le_total 0 e with he | he
  · obtain ⟨i, rfl⟩ := Int.eq_ofNat_of_zero_le he
    simp
  · obtain ⟨i, rfl⟩ : ∃ i : ℕ, e = -i := ⟨(-e).toNat, by omega⟩
    simp [zpow_neg, div_eq_mul_inv]

theorem roundsTo_ofInt (n : ℤ) : RoundsTo n (ofInt n).value := by
  simpa [ofInt] using roundsTo_nearest n one_pos

/-- An integer that fits the significand is kept. -/
theorem value_ofInt {n : ℤ} (h : |n| ≤ 2 ^ 53) : (ofInt n).value = n :=
  (roundsTo_ofInt n).eq (representable_intCast h)

/-- A 32-bit number is a double. -/
theorem value_ofInt_of_fits {n : ℤ} (h : FitsInt32 n) : (ofInt n).value = n :=
  value_ofInt ((abs_le_of_fits h).trans (by norm_num))

/-- A sum is rounded once: the fractions are brought to one denominator, and only then made a
double. -/
theorem roundsTo_add (x y : Double) : RoundsTo (x.value + y.value) (x + y).value := by
  have hx : (x.denominator : ℚ) ≠ 0 := by exact_mod_cast x.denominator_pos.ne'
  have hy : (y.denominator : ℚ) ≠ 0 := by exact_mod_cast y.denominator_pos.ne'
  have := roundsTo_nearest (x.numerator * y.denominator + y.numerator * x.denominator)
    (Nat.mul_pos x.denominator_pos y.denominator_pos)
  rw [value_eq_div x, value_eq_div y, div_add_div _ _ hx hy, mul_comm (x.denominator : ℚ) (_ : ℚ)]
  exact_mod_cast this

/-- A product is rounded once. -/
theorem roundsTo_mul (x y : Double) : RoundsTo (x.value * y.value) (x * y).value := by
  have := roundsTo_nearest (x.numerator * y.numerator)
    (Nat.mul_pos x.denominator_pos y.denominator_pos)
  rw [value_eq_div x, value_eq_div y, div_mul_div_comm]
  exact_mod_cast this

/-- A quotient is rounded once, with the sign of the divisor moved to the numerator. -/
theorem roundsTo_div (x : Double) {y : Double} (hy : y.value ≠ 0) :
    RoundsTo (x.value / y.value) (x / y).value := by
  have hnum : y.numerator ≠ 0 := by
    intro h
    exact hy (by rw [value_eq_div, h, Int.cast_zero, zero_div])
  have hsign : (y.numerator.sign : ℚ) ≠ 0 := by
    exact_mod_cast mt Int.sign_eq_zero_iff_zero.mp hnum
  have habs : (y.numerator.sign : ℚ) * y.numerator = (y.numerator.natAbs : ℚ) := by
    rw [Nat.cast_natAbs]
    exact_mod_cast Int.sign_mul_self_eq_abs y.numerator
  have hquot : x.value / y.value = ((y.numerator.sign * (x.numerator * y.denominator) : ℤ) : ℚ) /
      (x.denominator * y.numerator.natAbs : ℕ) := by
    rw [value_eq_div x, value_eq_div y, div_div_div_eq, ← mul_div_mul_left _ _ hsign,
      mul_left_comm _ (x.denominator : ℚ), habs]
    push_cast
    rfl
  rw [hquot]
  exact roundsTo_nearest _ (Nat.mul_pos x.denominator_pos (Int.natAbs_pos.mpr hnum))

/-- `floor` is the greatest integer that is not above the value. -/
theorem floor_eq (x : Double) : x.floor = ⌊x.value⌋ := by
  rw [floor, value_eq_div, Int.fdiv_eq_ediv_of_nonneg _ (by positivity),
    Rat.floor_intCast_div_natCast]

/-- `round` gives the integer nearest to the value, a half going away from zero. -/
theorem roundsAway_round (x : Double) : RoundsAway x.value x.round := by
  rw [round, value_eq_div]
  exact roundsAway_roundDiv x.numerator x.denominator_pos

/-! ## Rounded quotients of integers -/

namespace RoundsTo

variable {n k : ℤ} {d : ℕ} {v : ℚ}

/-- Of a rounded quotient the same integer is left when it is rounded down. -/
theorem floor_eq (h : RoundsTo ((n : ℚ) / d) v) (hd : 0 < d) (hd' : d ≤ 2 ^ 53)
    (hn : |n| < 2 ^ 53) : ⌊v⌋ = ⌊(n : ℚ) / d⌋ := by
  rw [Rat.floor_intCast_div_natCast]
  have hdpos : (0 : ℚ) < d := by exact_mod_cast hd
  have hgap := (abs_lt.mp (h.lt_of_gap hd hd' rfl hn)).2
  have hsplit : (n : ℚ) = d * (n / d : ℤ) + (n % d : ℤ) := by
    exact_mod_cast (Int.mul_ediv_add_emod n d).symm
  have hrest0 : (0 : ℚ) ≤ (n % d : ℤ) := by exact_mod_cast Int.emod_nonneg n (by omega)
  have hrest1 : ((n % d : ℤ) : ℚ) + 1 ≤ d := by
    exact_mod_cast Int.emod_lt_of_pos n (by exact_mod_cast hd)
  have hsmall : |n / (d : ℤ)| ≤ 2 ^ 53 := (Int.abs_ediv_le_abs n d).trans hn.le
  rw [Int.floor_eq_iff]
  constructor
  · refine h.ge (representable_intCast hsmall) ?_
    rw [le_div_iff₀ hdpos]
    linarith
  · -- the exact quotient is a whole part of the divisor below the next integer
    have hbelow : (n : ℚ) / d + 1 / d ≤ (n / d : ℤ) + 1 := by
      rw [← add_div, div_le_iff₀ hdpos]
      linarith
    linarith

/-- A rounded quotient that is a fraction of the same divisor is the exact quotient. -/
theorem eq_of_fraction {i : ℤ} (h : RoundsTo ((n : ℚ) / d) v) (hd : 0 < d) (hd' : d ≤ 2 ^ 53)
    (hn : |n| < 2 ^ 53) (hv : v = i / d) : v = n / d := by
  have hdpos : (0 : ℚ) < d := by exact_mod_cast hd
  have hgap := h.lt_of_gap hd hd' rfl hn
  rw [hv, ← sub_div, abs_div, abs_of_pos hdpos, div_lt_div_iff_of_pos_right hdpos] at hgap
  have hgap : |i - n| < 1 := by exact_mod_cast hgap
  rw [hv, sub_eq_zero.mp (Int.abs_lt_one_iff.mp hgap)]

/-- A rounded quotient by an even number has the same nearest integer as the exact one: a half is
one only if the other is the same half. -/
theorem roundsAway (h : RoundsTo ((n : ℚ) / d) v) (hd : 0 < d) (heven : 2 ∣ d) (hd' : d ≤ 2 ^ 53)
    (hn : |n| < 2 ^ 51) (hk : RoundsAway ((n : ℚ) / d) k) : RoundsAway v k := by
  have hlow := hk.sub_half_le
  have hhigh := hk.le_add_half
  have hkn : |k| ≤ |n| + 1 := by
    have hquot : |(n : ℚ) / d| ≤ |(n : ℚ)| := by
      rw [abs_div, Nat.abs_cast]
      exact div_le_self (abs_nonneg _) (by exact_mod_cast hd)
    have hquot := abs_le.mp hquot
    have : |(k : ℚ)| ≤ |(n : ℚ)| + 1 := abs_le.mpr ⟨by linarith, by linarith⟩
    exact_mod_cast this
  have hk' := abs_le.mp hkn
  have hbelow : ((2 * k - 1 : ℤ) : ℚ) / 2 ^ 1 = k - 1 / 2 := by
    push_cast
    ring
  have habove : ((2 * k + 1 : ℤ) : ℚ) / 2 ^ 1 = k + 1 / 2 := by
    push_cast
    ring
  have hlow' : (k : ℚ) - 1 / 2 ≤ v :=
    h.ge (hbelow ▸ representable_div_two_pow (abs_le.mpr (by omega)) (by norm_num)) hlow
  have hhigh' : v ≤ (k : ℚ) + 1 / 2 :=
    h.le (habove ▸ representable_div_two_pow (abs_le.mpr (by omega)) (by norm_num)) hhigh
  refine ⟨abs_le.mpr ⟨by linarith, by linarith⟩, fun htie => ?_⟩
  -- a half is a fraction of the even divisor
  have hsame : v = n / d := by
    obtain ⟨c, rfl⟩ := heven
    have hc : (c : ℚ) ≠ 0 := by exact_mod_cast (by omega : c ≠ 0)
    rcases abs_eq (by norm_num) |>.mp htie with hv | hv
    · refine h.eq_of_fraction hd hd' (by omega) (i := c * (2 * k + 1)) ?_
      rw [sub_eq_iff_eq_add.mp hv]
      push_cast
      field_simp
      ring
    · refine h.eq_of_fraction hd hd' (by omega) (i := c * (2 * k - 1)) ?_
      rw [sub_eq_iff_eq_add.mp hv]
      push_cast
      field_simp
      ring
  rw [hsame] at htie ⊢
  exact hk.away htie

end RoundsTo

/-! ## Rounded integers -/

/-- A double that stands for an integer is rounded to it. -/
theorem round_of_value {x : Double} {n : ℤ} (h : x.value = n) : x.round = n := by
  have hround := x.roundsAway_round
  rw [h] at hround
  exact hround.unique (.of_int n)

/-- Within bounds that fit the significand, an integer survives being a double. -/
theorem clampTo_round {x : Double} {n lo hi : ℤ} (h : RoundsTo n x.value) (hle : lo ≤ hi)
    (hlo : |lo| ≤ 2 ^ 53) (hhi : |hi| ≤ 2 ^ 53) : clampTo lo hi x.round = clampTo lo hi n := by
  -- beyond the bounds only the side matters, and rounding keeps it; within them it is exact
  rcases lt_or_ge n lo with hn | hn
  · have hround : x.round ≤ lo := x.roundsAway_round.mono (.of_int lo)
      (h.le (representable_intCast hlo) (by exact_mod_cast hn.le))
    rw [clampTo, clampTo]
    split_ifs <;> omega
  · rcases lt_or_ge hi n with hn' | hn'
    · have hround : hi ≤ x.round := (RoundsAway.of_int hi).mono x.roundsAway_round
        (h.ge (representable_intCast hhi) (by exact_mod_cast hn'.le))
      rw [clampTo, clampTo]
      split_ifs <;> omega
    · have hfits : |n| ≤ 2 ^ 53 :=
        abs_le.mpr ⟨(abs_le.mp hlo).1.trans hn, hn'.trans (abs_le.mp hhi).2⟩
      rw [round_of_value (h.eq (representable_intCast hfits))]

end Double

end BattleScript
