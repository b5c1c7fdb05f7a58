/-!
# References to skills and items
-/

namespace BattleScript

/-- What an action uses: a skill or an item, by its number in the database. -/
inductive ItemRef
  | skill (id : Nat)
  | item (id : Nat)
  deriving DecidableEq, Repr

/-- How a reference is shown. -/
def ItemRef.label : ItemRef → String
  | .skill id => "skill " ++ toString id
  | .item id => "item " ++ toString id

end BattleScript
