import BattleScript.Battler.Id
import BattleScript.Text.Scan

/-!
# Target specifiers

How a script says who is meant: `user`, `dead enemies not user`, `friend 2`. A specifier is a fixed
phrase, a group of a side, or a place; case and extra blanks do not matter.
-/

namespace BattleScript

/-- The side of a group or place: one of the two, or relative to the user. -/
inductive SideRef
  | fixed (side : Side)
  | friends
  | opponents
  deriving DecidableEq, Repr

/-- The side that is meant when a battler of side `user` acts. -/
def SideRef.resolve (s : SideRef) (user : Side) : Side :=
  match s with
  | .fixed side => side
  | .friends => user
  | .opponents => user.opposite

/-- Which members of a group are meant. -/
inductive Life
  | alive
  | any
  | dead
  deriving DecidableEq, Repr

/-- A target specifier. -/
inductive TargetSpec
  | user
  | targets
  | group (side : SideRef) (life : Life) (excludeUser : Bool)
  /-- A position of a side, counted from one. -/
  | slot (side : SideRef) (index : Nat)
  /-- The actor with a number in the game's data. -/
  | character (dataId : Nat)
  | allAlive
  | allMembers
  | allDead
  | allNotUser
  | focus
  | notFocus
  deriving DecidableEq, Repr

namespace TargetSpec

/-- The side that a word in the plural names. -/
def sideOfPlural? : String → Option SideRef
  | "ACTORS" => some (.fixed .actor)
  | "ENEMIES" => some (.fixed .enemy)
  | "FRIENDS" => some .friends
  | "OPPONENTS" => some .opponents
  | _ => none

/-- The side that a word in the singular names. -/
def sideOfSingular? : String → Option SideRef
  | "ACTOR" => some (.fixed .actor)
  | "ENEMY" => some (.fixed .enemy)
  | "FRIEND" => some .friends
  | "OPPONENT" => some .opponents
  | _ => none

/-- The members that a word means. -/
def lifeOfWord? : String → Option Life
  | "EXISTING" | "ALIVE" => some .alive
  | "ALL" => some .any
  | "DEAD" => some .dead
  | _ => none

/-- The specifier that is a fixed phrase. -/
def phrase? : List String → Option TargetSpec
  | ["USER"] | ["SUBJECT"] => some .user
  | ["TARGET"] | ["TARGETS"] => some .targets
  | ["ALL", "ALIVE"] => some .allAlive
  | ["ALL", "MEMBERS"] => some .allMembers
  | ["ALL", "DEAD"] => some .allDead
  | ["ALL", "NOT", "USER"] => some .allNotUser
  | ["FOCUS"] | ["PARTICIPANTS"] => some .focus
  | ["NOT", "FOCUS"] | ["NONPARTICIPANTS"] => some .notFocus
  | _ => none

/-- The specifier that is a group: perhaps which members, then the side, then perhaps `NOT USER`. -/
def group? : List String → Option TargetSpec
  | [s] => (sideOfPlural? s).map (.group · .alive false)
  | [w, s] => do return .group (← sideOfPlural? s) (← lifeOfWord? w) false
  | [s, "NOT", "USER"] => (sideOfPlural? s).map (.group · .alive true)
  | [w, s, "NOT", "USER"] => do return .group (← sideOfPlural? s) (← lifeOfWord? w) true
  | _ => none

/-- The specifier that is a place: a side or `CHARACTER`, and a number. -/
def place? : List String → Option TargetSpec
  | [w, n] => do
    let n ← Text.nat32? n.toList
    if w = "CHARACTER" then return .character n
    return .slot (← sideOfSingular? w) n
  | _ => none

/-- The specifier of words in upper case. -/
def ofWords? (ws : List String) : Option TargetSpec :=
  (phrase? ws).or ((group? ws).or (place? ws))

/-- The words of a text, in upper case. -/
def wordsOf (s : String) : List String :=
  (Text.words s.toList).map fun w => String.ofList (Text.upper w)

/-- Reads a specifier. -/
def ofString? (s : String) : Option TargetSpec := ofWords? (wordsOf s)

end TargetSpec

end BattleScript
