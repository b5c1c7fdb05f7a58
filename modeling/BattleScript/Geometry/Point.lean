import BattleScript.Number.Scalar
import BattleScript.Settings

/-!
# Points and footprints

Positions on the field, with y growing downwards, and the rectangle that a battler covers there: its
width lies around its position, its height above it.
-/

namespace BattleScript

/-- A point of the field, or a shift of one. -/
structure Point (α : Type) where
  x : α
  y : α
  deriving Repr, DecidableEq

namespace Point

variable {α : Type} [Scalar α]

instance : Add (Point α) := ⟨fun p q => ⟨p.x + q.x, p.y + q.y⟩⟩

/-- The point with both coordinates multiplied. -/
def scale (p : Point α) (k : α) : Point α := ⟨p.x * k, p.y * k⟩

/-- The point with both coordinates divided. -/
def divBy (p : Point α) (k : α) : Point α := ⟨p.x / k, p.y / k⟩

/-- The origin. -/
def zero : Point α := ⟨0, 0⟩

/-- The sum of a list, taken from the left. -/
def sum (ps : List (Point α)) : Point α := ps.foldl (· + ·) zero

end Point

/-- The centre of a field. -/
def Bounds.center {α : Type} [Scalar α] (b : Bounds α) : Point α := ⟨b.width / 2, b.height / 2⟩

/-- The average of `current`, counted `n - 1` times, and `target`: with a constant target, `n` such
steps with falling `n` go the whole way in equal parts. -/
def glide {α : Type} [Scalar α] (n : Nat) (current target : α) : α :=
  (current * (Scalar.ofNat n - 1) + target) / Scalar.ofNat n

/-- `glide` in both coordinates. -/
def Point.glide {α : Type} [Scalar α] (n : Nat) (current target : Point α) : Point α :=
  ⟨BattleScript.glide n current.x target.x, BattleScript.glide n current.y target.y⟩

end BattleScript
