import BattleScript.Cooldown.Rules
import BattleScript.Item.Ref
import BattleScript.Note.Phase

/-!
# Notes

Everything the note text of a skill or item says: the scripts it declares, the entry whose scripts
it copies, and its cooldown rules.
-/

namespace BattleScript

/-- The meaning of a note text. -/
structure Notes where
  sequence : ActionSequence := .standard
  /-- The phases with a script of their own, in the order of their first declaration. -/
  declared : List Phase := []
  /-- The entry whose sequence is used instead. -/
  copy : Option ItemRef := none
  cooldown : CooldownRules := {}
  deriving DecidableEq, Repr

/-- The notes with a script for a phase. -/
def Notes.declare (n : Notes) (p : Phase) (lines : Script) : Notes :=
  { n with
    sequence := n.sequence.withScript p lines
    declared := if p ∈ n.declared then n.declared else n.declared ++ [p] }

end BattleScript
