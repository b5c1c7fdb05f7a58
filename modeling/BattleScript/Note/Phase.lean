import BattleScript.Script.Command

/-!
# Phases and action sequences

An action runs in five phases, each with its own script. The target phase runs once for every
target.
-/

namespace BattleScript

/-- The phases of an action, in their order. -/
inductive Phase
  | setup
  | whole
  | target
  | follow
  | finish
  deriving DecidableEq, Repr

namespace Phase

/-- All phases in their order. -/
def all : List Phase := [.setup, .whole, .target, .follow, .finish]

/-- The word for a phase in notes. -/
def tag : Phase → String
  | .setup => "setup"
  | .whole => "whole"
  | .target => "target"
  | .follow => "follow"
  | .finish => "finish"

/-- The phase after this one. -/
def next? : Phase → Option Phase
  | .setup => some .whole
  | .whole => some .target
  | .target => some .follow
  | .follow => some .finish
  | .finish => none

/-- The number of phases that come after this one. -/
def left : Phase → Nat
  | .setup => 4
  | .whole => 3
  | .target => 2
  | .follow => 1
  | .finish => 0

end Phase

/-- The scripts of an action. -/
structure ActionSequence where
  setup : Script
  whole : Script
  target : Script
  follow : Script
  finish : Script
  deriving DecidableEq, Repr

namespace ActionSequence

/-- The script of a phase. -/
def script (s : ActionSequence) : Phase → Script
  | .setup => s.setup
  | .whole => s.whole
  | .target => s.target
  | .follow => s.follow
  | .finish => s.finish

/-- The sequence with another script for one phase. -/
def withScript (s : ActionSequence) (p : Phase) (lines : Script) : ActionSequence :=
  match p with
  | .setup => { s with setup := lines }
  | .whole => { s with whole := lines }
  | .target => { s with target := lines }
  | .follow => { s with follow := lines }
  | .finish => { s with finish := lines }

/-- Declaring a script for a phase leaves the scripts of the others as they are. -/
theorem script_withScript (s : ActionSequence) (p q : Phase) (lines : Script) :
    (s.withScript p lines).script q = if q = p then lines else s.script q := by
  cases p <;> cases q <;> rfl

/-- The sequence of an action whose notes declare none: announce it, make the targets immortal while
each of them is struck, then let those fall who have no life left. -/
def standard : ActionSequence where
  setup := ["display action", "immortal: targets, true", "perform start", "wait for movement",
    "cast animation", "wait for animation"]
  whole := []
  target := ["perform action", "action animation", "wait for animation", "action effect",
    "death break"]
  follow := []
  finish := ["immortal: targets, false", "wait for new line", "clear battle log", "perform finish",
    "wait for movement", "wait for effect"]

end ActionSequence

end BattleScript
