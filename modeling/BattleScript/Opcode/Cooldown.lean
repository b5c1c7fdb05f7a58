import BattleScript.Action.Pack
import BattleScript.Script.Operand

/-!
# Cooldown commands

Commands that set or change cooldowns: of all skills that the targets know, of those of a type, or
of one skill. A value with a sign is a change, one without is the new cooldown.
-/

namespace BattleScript

/-- The skills whose cooldowns are meant. -/
inductive CooldownScope
  | known
  | skill (id : Nat)
  | skillType (stypeId : Nat)
  deriving DecidableEq, Repr

/-- What happens to a cooldown. -/
inductive CooldownChange
  | add (x : Int)
  | set (x : Int)
  deriving DecidableEq, Repr

/-- Reads a change. -/
def CooldownChange.ofString? (s : String) : Option CooldownChange :=
  (Operand.int? s).map fun x => if (Text.sign (Text.trim s.toList)).1.isSome then .add x else .set x

/-- A cooldown command. -/
structure CooldownOp where
  scope : CooldownScope
  target : Option String
  change : Option CooldownChange
  deriving DecidableEq, Repr

namespace CooldownOp

/-- The scope that the words of a command name. A number out of range names none. -/
def scope? : List String → Option CooldownScope
  | ["GLOBAL", "COOLDOWN"] => some .known
  | ["SKILL", n, "COOLDOWN"] => (Text.nat32? n.toList).map .skill
  | ["SKILL", "TYPE", n, "COOLDOWN"] => (Text.nat32? n.toList).map .skillType
  | ["STYPE", n, "COOLDOWN"] => (Text.nat32? n.toList).map .skillType
  | _ => none

/-- Reads a cooldown command. -/
def ofCommand? (c : Command) : Option CooldownOp :=
  (scope? c.words).map fun scope => ⟨scope, c.arg 0, (c.arg 1).bind CooldownChange.ofString?⟩

/-- The numbers of the skills in scope for a battler. -/
def skillIds (b : Battle) (id : BattlerId) : CooldownScope → List Nat
  | .known => (b.knownSkills id).map (·.id)
  | .skill n => [n]
  | .skillType stype => ((b.knownSkills id).filter (·.stypeId == stype)).map (·.id)

/-- The skills in scope for a battler, each looked up by its number. -/
def skills (b : Battle) (id : BattlerId) (scope : CooldownScope) : List Usable :=
  (skillIds b id scope).filterMap b.database.skill?

/-- The ledger after a change of one cooldown. -/
def changeOne (settings : Settings) (change : CooldownChange) (id : BattlerId) (l : Ledger)
    (skill : Usable) : Ledger :=
  match change with
  | .add x => l.addCooldown settings id skill x
  | .set x => l.setCooldown settings id skill x

/-- The ledger after a change of the cooldowns in scope for one battler. -/
def changeAll (scope : CooldownScope) (change : CooldownChange) (b : Battle) (l : Ledger)
    (id : BattlerId) : Ledger :=
  (skills b id scope).foldl (changeOne b.settings change id) l

/-- Runs a cooldown command. -/
def run (op : CooldownOp) (c : ActionContext) (b : Battle) : Signal × Battle :=
  match op.change with
  | none => (.proceed, b)
  | some change =>
    (.proceed, { b with
      cooldowns := (b.targets c op.target).foldl (changeAll op.scope change b) b.cooldowns })

/-- The pack of the cooldown commands. -/
def pack : Pack := .ofInstructions "cooldown" ofCommand? fun op c b => some (op.run c b)

end CooldownOp

end BattleScript
