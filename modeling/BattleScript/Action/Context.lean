import BattleScript.Battler.Id
import BattleScript.Item.Ref

/-!
# The context of an action
-/

namespace BattleScript

/-- Who acts, on whom, with what. -/
structure ActionContext where
  subject : BattlerId
  /-- The declared targets, or the one target of the target phase. -/
  targets : List BattlerId
  item : ItemRef
  deriving DecidableEq, Repr

/-- The subject and the targets, each once. -/
def ActionContext.focus (c : ActionContext) : List BattlerId := distinct (c.subject :: c.targets)

end BattleScript
