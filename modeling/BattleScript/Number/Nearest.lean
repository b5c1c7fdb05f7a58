/-!
# The double nearest to a fraction

A decimal numeral denotes a fraction of natural numbers. `nearestDouble n d` is the IEEE double
closest to `n / d`, ties going to the even significand: the quotient is cut to 53 binary digits (or
to the grid of the subnormal numbers), rounded by its exact remainder, and assembled from its bits.
A carry out of the significand moves the exponent on by one, as it should, because the two fields
lie next to each other.
-/

namespace BattleScript

/-- The binary exponent of the last digit kept of `n / d`: the one that leaves 53 digits, but never
below the grid of the subnormal numbers. -/
def lastBinaryPlace (n d : Nat) : Int :=
  let k : Int := (n.log2 : Int) - (d.log2 : Int)
  let reaches : Bool := if 0 ≤ k then d <<< k.toNat ≤ n else d ≤ n <<< (-k).toNat
  max (-1074) (if reaches then k - 52 else k - 53)

/-- `n / d` rounded to the nearest natural number, a tie going to the even one. -/
def divToEven (n d : Nat) : Nat :=
  let q := n / d
  let r := n % d
  if d < 2 * r || (2 * r == d && q % 2 == 1) then q + 1 else q

/-- `n / d` rounded to a whole number of units of the binary place `e`. -/
def significandAt (n d : Nat) (e : Int) : Nat :=
  if 0 ≤ e then divToEven n (d <<< e.toNat) else divToEven (n <<< (-e).toNat) d

/-- The double nearest to `n / d`; infinite when the fraction is out of range. -/
def nearestDouble (n d : Nat) : Float :=
  if n = 0 ∨ d = 0 then 0 else
    let e := lastBinaryPlace n d
    let bits := (e + 1074).toNat * 4503599627370496 + significandAt n d e
    Float.ofBits (min bits 0x7FF0000000000000).toUInt64

end BattleScript
