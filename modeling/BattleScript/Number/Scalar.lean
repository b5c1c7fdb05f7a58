/-!
# Scalars

Positions, heights, zoom factors and opacities move by formulas that make sense over any ordered
field. They are written once, over a `Scalar` type, with every operation in a fixed order. Running
code instantiates them at `Float`; exact laws about them can be stated over the rationals.

`larger` and `smaller` are the maximum and minimum of the number line; where one side is not a
number, they give the other side.
-/

namespace BattleScript

/-- The arithmetic that geometry and easing need. -/
class Scalar (α : Type) extends Add α, Sub α, Mul α, Div α, Neg α where
  /-- The scalar of a natural number. -/
  ofNat : Nat → α
  /-- The distance from zero. -/
  magnitude : α → α
  /-- The greater of two scalars. -/
  larger : α → α → α
  /-- The lesser of two scalars. -/
  smaller : α → α → α
  /-- Whether the first scalar is at most the second. -/
  atMost : α → α → Bool
  /-- The nearest whole number, a half going away from zero. -/
  rounded : α → α

namespace Scalar

instance (priority := low) instOfNat {α : Type} [Scalar α] (n : Nat) : OfNat α n := ⟨ofNat n⟩

/-- The greater of two doubles. -/
def largerFloat (a b : Float) : Float := if a < b || a.isNaN then b else a

/-- The lesser of two doubles. -/
def smallerFloat (a b : Float) : Float := if b < a || a.isNaN then b else a

instance : Scalar Float where
  ofNat := Float.ofNat
  magnitude := Float.abs
  larger := largerFloat
  smaller := smallerFloat
  atMost a b := decide (a ≤ b)
  rounded := Float.round

/-- The sum of a list, taken from the left. -/
def sum {α : Type} [Scalar α] (xs : List α) : α := xs.foldl (· + ·) (ofNat 0)

end Scalar

end BattleScript
