import BattleScript.Text.Case
import BattleScript.Text.Digit

/-!
# Recognisers

Tags and numbers are recognised from the left. A recogniser takes the text still to be read and
gives the rest after what it recognised, or nothing. Every piece takes as much as it can, and in the
patterns of this library what follows a piece can never be part of it, so no choice is revisited.

`search` tries a recogniser at every place of a text, leftmost first.
-/

namespace BattleScript.Text

/-- The rest after the lower-case ASCII text `word`, up to simple case folding. -/
def afterWord : List Char → List Char → Option (List Char)
  | [], cs => some cs
  | l :: ls, c :: cs => if foldsTo l c then afterWord ls cs else none
  | _ :: _, [] => none

/-- The rest after the string `word`, which is given in lower case. -/
def after (word : String) (cs : List Char) : Option (List Char) := afterWord word.toList cs

/-- The rest after at least one blank. -/
def afterBlank : List Char → Option (List Char)
  | c :: cs => if isBlank c then some (trimStart cs) else none
  | [] => none

/-- A nonempty run of decimal digits of any script, and the rest. -/
def digits (cs : List Char) : Option (List Char × List Char) :=
  match cs.takeWhile isDigit with
  | [] => none
  | d :: ds => some (d :: ds, cs.dropWhile isDigit)

/-- An optional sign (`true` for a minus), and the rest. -/
def sign : List Char → Option Bool × List Char
  | '+' :: cs => (some false, cs)
  | '-' :: cs => (some true, cs)
  | cs => (none, cs)

/-- The rest after exactly the given text. -/
def afterExact : List Char → List Char → Option (List Char)
  | [], cs => some cs
  | l :: ls, c :: cs => if l = c then afterExact ls cs else none
  | _ :: _, [] => none

/-- The characters of a word that is a numeral in some script. -/
def numeralWord? (w : String) : Option (List Char) :=
  if w.toList ≠ [] ∧ w.toList.all isDigit then some w.toList else none

/-- The unsigned 32-bit number that a numeral denotes. -/
def nat32? (ds : List Char) : Option Nat := (readNat? ds).filter (· ≤ nat32Max)

/-- The result of the recogniser at the leftmost place where it has one. -/
def search {β : Type} (recognise : List Char → Option β) : List Char → Option β
  | [] => recognise []
  | c :: cs => (recognise (c :: cs)).or (search recognise cs)

end BattleScript.Text
