import BattleScript.Number.Nearest
import BattleScript.Number.Range

/-!
# Doubles

Quotients and shares are calculated in binary floating-point numbers of double precision, and made
integers only at the end. A `Double` is a finite number of that format, held exactly as a
significand of at most 53 bits times a power of two. Every operation takes the exact result, as a
fraction, to the double nearest to it, a tie going to the even significand.

The numbers that go in are 32-bit integers, so that no result comes near the upper end of the
format: there are no infinities here. As integers are made of the results, zero needs no sign.
-/

namespace BattleScript

/-- The number `significand * 2 ^ exponent`. -/
structure Double where
  significand : Int
  exponent : Int
  deriving DecidableEq, Repr

namespace Double

/-- The numerator of the number as a fraction. -/
def numerator (x : Double) : Int := x.significand * (1 <<< x.exponent.toNat : Nat)

/-- The denominator of the number as a fraction. -/
def denominator (x : Double) : Nat := 1 <<< (-x.exponent).toNat

/-- The double nearest to `n / d`. -/
def nearest (n : Int) (d : Nat) : Double :=
  let e := lastBinaryPlace n.natAbs d
  ⟨n.sign * significandAt n.natAbs d e, e⟩

/-- The double nearest to an integer. -/
def ofInt (n : Int) : Double := nearest n 1

/-- A quarter. -/
def quarter : Double := ⟨1, -2⟩

instance : Add Double where
  add x y :=
    nearest (x.numerator * y.denominator + y.numerator * x.denominator)
      (x.denominator * y.denominator)

instance : Mul Double where
  mul x y := nearest (x.numerator * y.numerator) (x.denominator * y.denominator)

/-- Division by anything but zero. -/
instance : Div Double where
  div x y :=
    nearest (y.numerator.sign * (x.numerator * y.denominator))
      (x.denominator * y.numerator.natAbs)

/-- The greatest integer that is not greater. -/
def floor (x : Double) : Int := Int.fdiv x.numerator x.denominator

/-- The nearest integer, a half going away from zero. -/
def round (x : Double) : Int := roundDiv x.numerator x.denominator

end Double

end BattleScript
