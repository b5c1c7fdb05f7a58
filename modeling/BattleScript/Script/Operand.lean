import BattleScript.Number.Nearest
import BattleScript.Text.Case
import BattleScript.Text.Digit

/-!
# Operands

How the arguments of a command are read as values. Integers and decimals are read from the start of
the argument and may be followed by anything; a percentage must end in its sign; a truth value is
one of four words.
-/

namespace BattleScript.Operand

/-- The integer at the start of a text, after blanks. -/
def int? (s : String) : Option Int := Text.leadingInt? (Text.trimStart s.toList)

/-- A decimal numeral: its sign, its digits as one number, and how many of them follow the
point. -/
structure Numeral where
  negative : Bool
  digits : Nat
  places : Nat
  deriving DecidableEq, Repr

/-- The double nearest to a numeral. -/
def Numeral.toFloat (n : Numeral) : Float :=
  let x := nearestDouble n.digits (Nat.pow 10 n.places)
  if n.negative then -x else x

/-- The numeral at the start of a text: an optional sign, digits, and a point among or beside them.
It needs at least one digit. -/
def leadingNumeral? (cs : List Char) : Option Numeral :=
  let (negative, body) := Text.splitSign cs
  let whole := body.takeWhile Char.isDigit
  let rest := body.dropWhile Char.isDigit
  let part := match rest with
    | '.' :: r => r.takeWhile Char.isDigit
    | _ => []
  if whole ++ part = [] then none
  else some ⟨negative, Text.numeral (whole ++ part), part.length⟩

/-- The decimal at the start of a text, after blanks. -/
def decimal? (s : String) : Option Float :=
  (leadingNumeral? (Text.trim s.toList)).map Numeral.toFloat

/-- The number in front of a percent sign that ends the text. -/
def percent? (s : String) : Option Float :=
  match (Text.trim s.toList).reverse with
  | '%' :: r => decimal? (String.ofList r.reverse)
  | _ => none

/-- A truth value: `true` or `on`, `false` or `off`. -/
def bool? (s : String) : Option Bool :=
  match Text.keyword s with
  | "TRUE" => some true
  | "ON" => some true
  | "FALSE" => some false
  | "OFF" => some false
  | _ => none

/-- An integer argument, where an absent, unreadable or zero one takes the given value. -/
def intOr (arg : Option String) (otherwise : Int) : Int :=
  match arg.bind int? with
  | some n => if n = 0 then otherwise else n
  | none => otherwise

/-- A number of frames, where an absent, unreadable or nonpositive one takes the given value. -/
def framesOr (arg : Option String) (otherwise : Nat) : Nat :=
  match arg.bind int? with
  | some n => if 0 < n then n.toNat else otherwise
  | none => otherwise

end BattleScript.Operand
