import BattleScript.Number.Double
import BattleScript.Text.Scan

/-!
# Amounts

A signed amount such as `-120`, `+25%` or `- variable 7`: a sign, then a number or the number of a
game variable, then perhaps a percent sign. A percent amount is a share of a maximum that is known
only when the amount is used, rounded to the nearest integer, a half going away from zero.
-/

namespace BattleScript

/-- Where the number of an amount comes from. -/
inductive Amount.Source
  /-- A number written out. -/
  | literal (value : Int)
  /-- The value of a game variable. -/
  | stored (id : Nat)
  deriving DecidableEq, Repr

/-- A signed amount. -/
structure Amount where
  negative : Bool
  source : Amount.Source
  percent : Bool
  deriving DecidableEq, Repr

namespace Amount

/-- The rest after the word for a game variable and the blanks that have to follow it. -/
def afterVariable (cs : List Char) : Option (List Char) :=
  ((Text.after "variable" cs).bind Text.afterBlank).or ((Text.after "var" cs).bind Text.afterBlank)

/-- What ends an amount: blanks and perhaps a percent sign, which is reported. -/
def ending? (cs : List Char) : Option Bool :=
  match Text.trimStart cs with
  | [] => some false
  | ['%'] => some true
  | _ => none

/-- Reads a source and gives the rest after it. The number must fit the range of its kind. -/
def source? (cs : List Char) : Option (Source × List Char) :=
  match afterVariable cs with
  | some r => do
    let (ds, rest) ← Text.digits r
    let id ← Text.nat32? ds
    return (.stored id, rest)
  | none => do
    let (ds, rest) ← Text.digits cs
    let value ← (Text.readNat? ds).bind (Text.signedInt32? false)
    return (.literal value, rest)

/-- Reads an amount from characters that start with its sign. -/
def ofChars? (cs : List Char) : Option Amount := do
  let (some negative, body) := Text.sign cs | none
  let (source, rest) ← source? (Text.trimStart body)
  let percent ← ending? rest
  return ⟨negative, source, percent⟩

/-- Reads an amount; blanks around it do not matter. -/
def ofString? (s : String) : Option Amount := ofChars? (Text.trim s.toList)

/-- The change that an amount stands for, given the values of the variables and the maximum it may
be a share of. -/
def resolve (a : Amount) (values : Nat → Int) (maximum : Int) : Int :=
  let base := match a.source with
    | .literal n => n
    | .stored id => values id
  let share := Double.ofInt maximum * Double.ofInt base / Double.ofInt 100
  let magnitude := if a.percent then saturate share.round else base
  if a.negative then saturate (-magnitude) else magnitude

end Amount

end BattleScript
