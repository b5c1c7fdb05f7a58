import BattleScript.Number.Range
import Mathlib.Algebra.Order.AbsoluteValue.Basic
import Mathlib.Data.Rat.Floor
import Mathlib.Tactic.FieldSimp
import Mathlib.Tactic.Linarith
import Mathlib.Tactic.Ring

/-!
# Rounding to an integer

`RoundsAway q k` says that `k` is the integer nearest to the rational `q`, a half going away from
zero. There is one such integer for every `q`: `roundDiv` finds it for a fraction
(`roundsAway_roundDiv`), and a greater number is never rounded to a lesser integer
(`RoundsAway.mono`).
-/

namespace BattleScript

/-- The integer `k` is nearest to `q`, and if another one is as near, `k` is the one farther from
zero. -/
structure RoundsAway (q : ℚ) (k : ℤ) : Prop where
  near : |q - k| ≤ 1 / 2
  away : |q - k| = 1 / 2 → |q| < |(k : ℚ)|

namespace RoundsAway

variable {q r : ℚ} {k l : ℤ}

/-- Halves go away from zero on both sides alike. -/
theorem neg (h : RoundsAway q k) : RoundsAway (-q) (-k) := by
  have hdist : |-q - ((-k : ℤ) : ℚ)| = |q - k| := by
    rw [Int.cast_neg, ← abs_neg]
    ring_nf
  refine ⟨hdist ▸ h.near, fun htie => ?_⟩
  rw [Int.cast_neg, abs_neg, abs_neg]
  exact h.away (hdist ▸ htie)

/-- The two bounds on what was rounded. -/
theorem sub_half_le (h : RoundsAway q k) : (k : ℚ) - 1 / 2 ≤ q := by
  have := (abs_le.mp h.near).1
  linarith

theorem le_add_half (h : RoundsAway q k) : q ≤ (k : ℚ) + 1 / 2 := by
  have := (abs_le.mp h.near).2
  linarith

/-- A greater number is never rounded to a lesser integer. -/
theorem mono (h : RoundsAway q k) (h' : RoundsAway r l) (hle : q ≤ r) : k ≤ l := by
  by_contra hlt
  have hsucc : (l : ℚ) + 1 ≤ k := by exact_mod_cast Int.not_le.mp hlt
  have hk := h.sub_half_le
  have hl := h'.le_add_half
  -- then both numbers are the half between the two integers, which rounds one way only
  have hq : q = l + 1 / 2 := by linarith
  have hr : r = l + 1 / 2 := by linarith
  have hkl : (k : ℚ) = l + 1 := by linarith
  have hup : |(l : ℚ) + 1 / 2| < |(l : ℚ) + 1| := by
    rw [← hq, ← hkl]
    refine h.away ?_
    rw [hq, hkl]
    norm_num
  have hdown : |(l : ℚ) + 1 / 2| < |(l : ℚ)| := by
    rw [← hr]
    refine h'.away ?_
    rw [hr]
    norm_num
  rcases le_total 0 l with hsign | hsign
  · have : (0 : ℚ) ≤ l := by exact_mod_cast hsign
    rw [abs_of_nonneg (by linarith), abs_of_nonneg this] at hdown
    linarith
  · have hl0 : (l : ℚ) ≤ 0 := by exact_mod_cast hsign
    rcases hsign.eq_or_lt with rfl | hneg
    · norm_num at hdown
    · have : (l : ℚ) + 1 ≤ 0 := by exact_mod_cast hneg
      rw [abs_of_nonpos (by linarith), abs_of_nonpos this] at hup
      linarith

/-- There is only one. -/
theorem unique (h : RoundsAway q k) (h' : RoundsAway q l) : k = l :=
  le_antisymm (h.mono h' le_rfl) (h'.mono h le_rfl)

/-- An integer is rounded to itself. -/
theorem of_int (k : ℤ) : RoundsAway k k := by
  constructor
  · norm_num
  · intro htie
    norm_num at htie

end RoundsAway

/-- The nearest natural number to a fraction of natural numbers. -/
theorem roundsAway_nat_div (m : ℕ) {d : ℕ} (hd : 0 < d) :
    RoundsAway ((m : ℚ) / d) ((2 * m + d) / (2 * d) : ℕ) := by
  obtain ⟨k, hk⟩ : ∃ k, (2 * m + d) / (2 * d) = k := ⟨_, rfl⟩
  have hd' : (0 : ℚ) < d := by exact_mod_cast hd
  have hlow : (k : ℚ) - 1 / 2 ≤ m / d := by
    have hmul : k * (2 * d) ≤ 2 * m + d := hk ▸ Nat.div_mul_le_self _ _
    have hmul : (k : ℚ) * (2 * d) ≤ 2 * m + d := by exact_mod_cast hmul
    rw [le_div_iff₀ hd']
    linarith
  have hhigh : (m : ℚ) / d < k + 1 / 2 := by
    have hmul : 2 * m + d < 2 * d * (k + 1) := hk ▸ Nat.lt_mul_div_succ _ (by omega)
    have hmul : 2 * (m : ℚ) + d < 2 * d * (k + 1) := by exact_mod_cast hmul
    rw [div_lt_iff₀ hd']
    linarith
  rw [hk]
  constructor
  · rw [Int.cast_natCast, abs_le]
    constructor <;> linarith
  · intro htie
    rw [Int.cast_natCast] at htie ⊢
    -- the half above is left out, so the number is the half below
    have hq : (m : ℚ) / d = k - 1 / 2 := by
      rcases abs_eq (by norm_num) |>.mp htie with h | h <;> linarith
    have hnonneg : (0 : ℚ) ≤ m / d := by positivity
    rw [abs_of_nonneg hnonneg, abs_of_nonneg (Nat.cast_nonneg k)]
    linarith

/-- What `roundDiv` finds. -/
theorem roundsAway_roundDiv (n : ℤ) {d : ℕ} (hd : 0 < d) :
    RoundsAway ((n : ℚ) / d) (roundDiv n d) := by
  have hnat := roundsAway_nat_div n.natAbs hd
  unfold roundDiv
  -- the magnitude is rounded, and the sign put back
  split
  · next hneg =>
    have habs : (n : ℚ) = -(n.natAbs : ℚ) := by
      rw [Nat.cast_natAbs, abs_of_neg hneg, Int.cast_neg, neg_neg]
    rw [habs, neg_div]
    exact hnat.neg
  · next hneg =>
    have habs : (n : ℚ) = (n.natAbs : ℚ) := by
      rw [Nat.cast_natAbs, abs_of_nonneg (Int.not_lt.mp hneg)]
    rw [habs]
    exact hnat

/-- Every number has a nearest integer. -/
theorem exists_roundsAway (q : ℚ) : ∃ k, RoundsAway q k := by
  have h := roundsAway_roundDiv q.num q.den_pos
  rw [Rat.num_div_den] at h
  exact ⟨_, h⟩

end BattleScript
