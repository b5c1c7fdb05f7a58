import BattleScript.Geometry.Point
import BattleScript.Number.Range
import BattleScript.Stage.Sprite
import Mathlib.Algebra.Order.Field.Basic
import Mathlib.Data.Rat.Cast.Order
import Mathlib.Tactic.FieldSimp
import Mathlib.Tactic.Linarith
import Mathlib.Tactic.Positivity
import Mathlib.Tactic.Ring

/-!
# Equal steps

Geometry and easing are written over any scalars; over the rationals their formulas are exact. There
are two of them that bring a value to a target within a number of frames: the average with a weight
that falls (`glide`), and the constant rate that does not go past the target (`Sprite.approach`).
Both do the same: after `k` of `n` frames the value has gone `k` of `n` equal parts of its way
(`glide_onTheWay`, `approach_onTheWay`). So a value that follows one of them eases to its target
(`Eases`): by equal parts, without going past it, and to rest there.
-/

namespace BattleScript

/-! ## Rational scalars -/

instance : Scalar ℚ where
  ofNat n := n
  magnitude q := |q|
  larger := max
  smaller := min
  atMost p q := decide (p ≤ q)
  rounded q := roundDiv q.num q.den

@[simp] theorem ofNat_rat (n : ℕ) : (Scalar.ofNat n : ℚ) = n := rfl

/-- The average that the camera and the sprites are moved by: of `n` parts all but one stay where
they are, and one is at the target. -/
theorem glide_rat (n : ℕ) (x target : ℚ) : glide n x target = (x * (n - 1) + target) / n := by
  show (x * ((n : ℚ) - (1 : ℕ)) + target) / n = _
  rw [Nat.cast_one]

/-- A step at a constant rate, which the target stops. -/
theorem approach_rat (rate target x : ℚ) :
    Sprite.approach rate target x =
      if target ≤ x then max (x - rate) target else min (x + rate) target := by
  simp only [Sprite.approach, Scalar.atMost, decide_eq_true_eq]
  rfl

/-! ## Equal parts of the way -/

/-- `k` of `n` equal parts of the way from `start` to `target`. -/
def onTheWay (start target : ℚ) (n k : ℕ) : ℚ := start + k / n * (target - start)

section

variable {start target : ℚ} {n k : ℕ}

@[simp] theorem onTheWay_zero : onTheWay start target n 0 = start := by simp [onTheWay]

theorem onTheWay_self (hn : 1 ≤ n) : onTheWay start target n n = target := by
  have hne : (n : ℚ) ≠ 0 := Nat.cast_ne_zero.mpr (by omega)
  rw [onTheWay, div_self hne]
  ring

/-- One more frame is one more part. -/
theorem onTheWay_succ :
    onTheWay start target n (k + 1) = onTheWay start target n k + (target - start) / n := by
  rw [onTheWay, onTheWay, Nat.cast_succ]
  ring

/-- The way in the other direction is the mirror image. -/
theorem onTheWay_neg : onTheWay (-start) (-target) n k = -onTheWay start target n k := by
  rw [onTheWay, onTheWay]
  ring

/-! No part of the way leads past the target. -/

/-- From below, no part of the way is above the target. -/
theorem onTheWay_le (hk : k ≤ n) (h : start ≤ target) : onTheWay start target n k ≤ target := by
  have hpart : (k : ℚ) / n ≤ 1 := div_le_one_of_le₀ (by exact_mod_cast hk) (Nat.cast_nonneg n)
  have hway : (k : ℚ) / n * (target - start) ≤ 1 * (target - start) :=
    mul_le_mul_of_nonneg_right hpart (sub_nonneg.mpr h)
  rw [onTheWay]
  linarith

theorem le_onTheWay (hk : k ≤ n) (h : target ≤ start) : target ≤ onTheWay start target n k := by
  have hneg := onTheWay_le hk (neg_le_neg h)
  rw [onTheWay_neg] at hneg
  exact neg_le_neg_iff.mp hneg

/-- From below, the way is short of the target until its last part. -/
theorem onTheWay_lt (hk : k < n) (h : start < target) : onTheWay start target n k < target := by
  have hn : (0 : ℚ) < n := by exact_mod_cast hk.pos
  have hpart : (k : ℚ) / n < 1 := (div_lt_one hn).mpr (by exact_mod_cast hk)
  have hway : (k : ℚ) / n * (target - start) < 1 * (target - start) :=
    mul_lt_mul_of_pos_right hpart (sub_pos.mpr h)
  rw [onTheWay]
  linarith

theorem lt_onTheWay (hk : k < n) (h : target < start) : target < onTheWay start target n k := by
  have hneg := onTheWay_lt hk (neg_lt_neg h)
  rw [onTheWay_neg] at hneg
  exact neg_lt_neg_iff.mp hneg

/-! ## Two ways to go on -/

/-- The average with falling weights goes on by an equal part. -/
theorem glide_onTheWay (hk : k < n) :
    glide (n - k) (onTheWay start target n k) target = onTheWay start target n (k + 1) := by
  have hn : (n : ℚ) ≠ 0 := Nat.cast_ne_zero.mpr (by omega)
  have hleft : (n : ℚ) - k ≠ 0 := sub_ne_zero.mpr (by exact_mod_cast hk.ne')
  rw [glide_rat, Nat.cast_sub hk.le, onTheWay, onTheWay, Nat.cast_succ]
  field_simp
  ring

/-- So does the constant rate. -/
theorem approach_onTheWay (hk : k < n) :
    Sprite.approach (|start - target| / n) target (onTheWay start target n k) =
      onTheWay start target n (k + 1) := by
  rw [approach_rat]
  -- the value is on the same side of its target all the way
  rcases le_or_gt target start with h | h
  · have hstep : onTheWay start target n k - |start - target| / n =
        onTheWay start target n (k + 1) := by
      rw [onTheWay_succ, abs_of_nonneg (sub_nonneg.mpr h)]
      ring
    rw [if_pos (le_onTheWay hk.le h), hstep, max_eq_left (le_onTheWay hk h)]
  · have hstep : onTheWay start target n k + |start - target| / n =
        onTheWay start target n (k + 1) := by
      rw [onTheWay_succ, abs_of_neg (sub_neg.mpr h)]
      ring
    rw [if_neg (onTheWay_lt hk h).not_ge, hstep, min_eq_left (onTheWay_le hk h.le)]

/-! ## Easing -/

/-- The value goes from its start to its target in `n` equal parts. -/
structure Eases (start target : ℚ) (n : ℕ) (value : ℕ → ℚ) : Prop where
  /-- After `k` frames it has gone `k` parts of the way, -/
  linear : ∀ k ≤ n, value k = start + k / n * (target - start)
  /-- with the last of them it is there, -/
  lands : value n = target
  /-- before that it is neither there nor past it, -/
  short : ∀ k < n, (start < target → value k < target) ∧ (target < start → target < value k)
  /-- and from then on it stays there. -/
  rests : ∀ k, n ≤ k → value k = target

variable {value : ℕ → ℚ}

/-- A value that goes on by equal parts, and then stays, eases. -/
theorem eases_of_onTheWay (hn : 1 ≤ n) (hvalue : ∀ k ≤ n, value k = onTheWay start target n k)
    (hrest : ∀ k, n ≤ k → value (k + 1) = target ∨ value (k + 1) = value k) :
    Eases start target n value where
  linear := hvalue
  lands := (hvalue n le_rfl).trans (onTheWay_self hn)
  short := by
    intro k hk
    rw [hvalue k hk.le]
    exact ⟨onTheWay_lt hk, lt_onTheWay hk⟩
  rests := by
    intro k hk
    -- at rest: with every further frame it is put to the target again, or left there
    induction k, hk using Nat.le_induction with
    | base => exact (hvalue n le_rfl).trans (onTheWay_self hn)
    | succ k hk ih => exact (hrest k hk).elim id (·.trans ih)

/-- A value that glides to its target eases. -/
theorem eases_of_glide (hn : 1 ≤ n) (hzero : value 0 = start)
    (hstep : ∀ k < n, value (k + 1) = glide (n - k) (value k) target)
    (hrest : ∀ k, n ≤ k → value (k + 1) = target ∨ value (k + 1) = value k) :
    Eases start target n value := by
  refine eases_of_onTheWay hn ?_ hrest
  intro k hk
  induction k with
  | zero => rw [hzero, onTheWay_zero]
  | succ k ih => rw [hstep k hk, ih (by omega), glide_onTheWay hk]

/-- A value that goes at the constant rate, and is put to its target with the last frame, eases. -/
theorem eases_of_approach (hn : 1 ≤ n) (hzero : value 0 = start)
    (hstep : ∀ k, k + 1 < n →
      value (k + 1) = Sprite.approach (|start - target| / n) target (value k))
    (hlast : value n = target)
    (hrest : ∀ k, n ≤ k → value (k + 1) = target ∨ value (k + 1) = value k) :
    Eases start target n value := by
  refine eases_of_onTheWay hn ?_ hrest
  intro k hk
  induction k with
  | zero => rw [hzero, onTheWay_zero]
  | succ k ih =>
    -- the last frame puts it there whatever the rate has made of it
    rcases Nat.lt_or_eq_of_le hk with hk | rfl
    · rw [hstep k hk, ih (by omega), approach_onTheWay (by omega)]
    · rw [hlast, onTheWay_self hn]

end

end BattleScript
