/-!
# 32-bit ranges

Counters, pools and prices of a battle are integers kept in the signed 32-bit range. They are
held as `Int`, so that sums and products are exact, and brought back into range by `saturate` at the
places where the rules of the game saturate.

* `clampTo lo hi` moves a number to the nearest point of an interval.
* `saturate` is `clampTo` on the signed 32-bit range; `FitsInt32` is membership in it.
* `roundDiv n d` is the integer nearest to `n / d`, a half going away from zero.
-/

namespace BattleScript

/-- The least signed 32-bit integer. -/
def int32Min : Int := -2147483648

/-- The greatest signed 32-bit integer. -/
def int32Max : Int := 2147483647

/-- The greatest unsigned 32-bit integer. -/
def nat32Max : Nat := 4294967295

/-- Membership in the signed 32-bit range. -/
def FitsInt32 (x : Int) : Prop := int32Min ≤ x ∧ x ≤ int32Max

instance (x : Int) : Decidable (FitsInt32 x) := by unfold FitsInt32; infer_instance

/-- The point of `[lo, hi]` nearest to `x`; the lower bound wins if the interval is empty. -/
def clampTo (lo hi x : Int) : Int := if x < lo then lo else if hi < x then hi else x

/-- A number within the bounds is left as it is. -/
theorem clampTo_of_mem {lo hi x : Int} (h₁ : lo ≤ x) (h₂ : x ≤ hi) : clampTo lo hi x = x := by
  unfold clampTo; repeat' split
  all_goals omega

theorem le_clampTo {lo hi : Int} (h : lo ≤ hi) (x : Int) : lo ≤ clampTo lo hi x := by
  unfold clampTo; repeat' split
  all_goals omega

theorem clampTo_le {lo hi : Int} (h : lo ≤ hi) (x : Int) : clampTo lo hi x ≤ hi := by
  unfold clampTo; repeat' split
  all_goals omega

theorem clampTo_mono {lo hi x y : Int} (h : lo ≤ hi) (hle : x ≤ y) :
    clampTo lo hi x ≤ clampTo lo hi y := by
  unfold clampTo; repeat' split
  all_goals omega

/-- The lower bound is met by the numbers up to it, and by no others. -/
theorem clampTo_eq_lo_iff {lo hi x : Int} (h : lo < hi) : clampTo lo hi x = lo ↔ x ≤ lo := by
  unfold clampTo; repeat' split
  all_goals omega

/-- The signed 32-bit integer nearest to `x`. -/
def saturate (x : Int) : Int := clampTo int32Min int32Max x

theorem fitsInt32_saturate (x : Int) : FitsInt32 (saturate x) :=
  ⟨le_clampTo (by decide) x, clampTo_le (by decide) x⟩

/-- A number of the range saturates to itself. -/
theorem saturate_of_fits {x : Int} (h : FitsInt32 x) : saturate x = x :=
  clampTo_of_mem h.1 h.2

/-- A bound inside the range is met with or without saturation on the way. -/
theorem clampTo_saturate {lo hi : Int} (hlo : int32Min ≤ lo) (h : lo ≤ hi) (hhi : hi ≤ int32Max)
    (x : Int) : clampTo lo hi (saturate x) = clampTo lo hi x := by
  unfold saturate clampTo
  repeat' split
  all_goals omega

/-- The signed reading of the low 32 bits of a natural number. -/
def wrapInt32 (n : Nat) : Int := Int.bmod n 4294967296

/-- The integer nearest to `n / d`, where a half goes away from zero. -/
def roundDiv (n : Int) (d : Nat) : Int :=
  let q : Int := ((2 * n.natAbs + d) / (2 * d) : Nat)
  if n < 0 then -q else q

end BattleScript
