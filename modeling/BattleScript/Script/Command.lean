import BattleScript.Text.Case

/-!
# Commands

A script is a list of lines. A line is read as a `Command`: the words before the first colon, in
upper case, name it, and the clause after the colon holds its arguments, separated by commas.

Every line is a command; whether some pack knows its name is another matter. A blank clause has no
arguments, while in any other clause every piece between commas is one, blank or not. A blank
argument counts as absent when it is asked for.
-/

namespace BattleScript

/-- The lines of one phase of an action. -/
abbrev Script := List String

/-- A line of a script, taken apart. -/
structure Command where
  /-- The words of the name, in upper case. -/
  words : List String
  /-- The arguments, trimmed. -/
  args : List String
  /-- The whole line, trimmed. -/
  line : String
  deriving DecidableEq, Repr

namespace Command

/-- The arguments of a clause. -/
def argsOfClause (clause : List Char) : List String :=
  if Text.trim clause = [] then []
  else (Text.splitOn (· == ',') clause).map fun piece => String.ofList (Text.trim piece)

/-- The words of a name, in upper case. -/
def wordsOfName (name : List Char) : List String :=
  (Text.words name).map fun word => String.ofList (Text.upper word)

/-- Reads a line. -/
def ofLine (line : String) : Command :=
  let cs := Text.trim line.toList
  let (name, clause) := Text.cut (· == ':') cs
  ⟨wordsOfName name, argsOfClause (clause.getD []), String.ofList cs⟩

/-- The name: its words with one space between them. -/
def name (c : Command) : String := " ".intercalate c.words

/-- The argument at a position, if it is present and not blank. -/
def arg (c : Command) (i : Nat) : Option String := c.args[i]?.filter (· ≠ "")

/-- The argument at a position in upper case. -/
def argUpper (c : Command) (i : Nat) : Option String := (c.arg i).map Text.uppered

/-- Whether some argument is the given word, up to ASCII case. -/
def hasFlag (c : Command) (flag : String) : Bool := c.args.any (Text.sameAscii · flag)

/-- Whether the argument at a position is the given word, up to ASCII case. -/
def argIs (c : Command) (i : Nat) (word : String) : Bool :=
  (c.arg i).any (Text.sameAscii · word)

end Command

end BattleScript
