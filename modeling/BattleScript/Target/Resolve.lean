import BattleScript.Action.Context
import BattleScript.Battler.Roster
import BattleScript.Target.Spec

/-!
# Resolving target specifiers

Who a specifier means in a roster and the context of an action. Groups and fixed phrases give places
of the roster in its order; only `targets` gives the context's list as it is, repetitions included.
-/

namespace BattleScript

namespace Roster

/-- The members of a side that are meant. -/
def ofLife (r : Roster) (s : Side) : Life → List BattlerId
  | .alive => r.aliveMembers s
  | .any => r.members s
  | .dead => r.deadMembers s

/-- The member at a position of a side, counted from one. -/
def slot? (r : Roster) (s : Side) (n : Nat) : Option BattlerId :=
  if n = 0 then none else (r.members s)[n - 1]?

end Roster

/-- The places that a specifier means. -/
def TargetSpec.resolve (spec : TargetSpec) (c : ActionContext) (r : Roster) : List BattlerId :=
  match spec with
  | .user => [c.subject]
  | .targets => c.targets
  | .group side life excludeUser =>
    (r.ofLife (side.resolve c.subject.side) life).filter fun id => !(excludeUser && id = c.subject)
  | .slot side n => (r.slot? (side.resolve c.subject.side) n).toList
  | .character dataId => (r.findActor dataId).toList
  | .allAlive => r.all.filter r.isAlive
  | .allMembers => r.all
  | .allDead => r.all.filter (!r.isAlive ·)
  | .allNotUser => r.all.filter fun id => r.isAlive id && id ≠ c.subject
  | .focus => c.focus
  | .notFocus => r.all.filter (· ∉ c.focus)

/-- The places that a text means; nobody if it is missing or no specifier. -/
def resolveTargets (text : Option String) (c : ActionContext) (r : Roster) : List BattlerId :=
  ((text.bind TargetSpec.ofString?).map (·.resolve c r)).getD []

end BattleScript
