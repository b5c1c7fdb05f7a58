import BattleScript.Battler.Basic
import BattleScript.Battler.Id

/-!
# The roster

The battlers of both sides at their places. Places are listed in order: the party before the troop,
and on each side from the first position on.
-/

namespace BattleScript

/-- The battlers of both sides. -/
structure Roster where
  party : List Battler := []
  troop : List Battler := []
  deriving DecidableEq, Repr

namespace Roster

/-- The battlers of a side. -/
def battlers (r : Roster) : Side → List Battler
  | .actor => r.party
  | .enemy => r.troop

/-- The battler at a place. -/
def get? (r : Roster) : BattlerId → Option Battler
  | .actor i => r.party[i]?
  | .enemy i => r.troop[i]?

/-- Changes the battler at a place, if there is one. -/
def modify (r : Roster) (id : BattlerId) (f : Battler → Battler) : Roster :=
  match id with
  | .actor i => { r with party := r.party.modify i f }
  | .enemy i => { r with troop := r.troop.modify i f }

/-- A change is seen at its own place only, and makes no battler where there was none. -/
theorem get?_modify (r : Roster) (id j : BattlerId) (f : Battler → Battler) :
    (r.modify id f).get? j = if j = id then (r.get? j).map f else r.get? j := by
  cases id <;> cases j <;> simp [modify, get?, List.getElem?_modify, eq_comm]
  all_goals split <;> simp

/-- Rosters with the same battlers at every place are the same. -/
theorem ext_get? {r r' : Roster} (h : ∀ id, r.get? id = r'.get? id) : r = r' := by
  obtain ⟨party, troop⟩ := r
  obtain ⟨party', troop'⟩ := r'
  have hparty : party = party' := List.ext_getElem? fun i => h (.actor i)
  have htroop : troop = troop' := List.ext_getElem? fun i => h (.enemy i)
  rw [hparty, htroop]

/-- The places of a side. -/
def members (r : Roster) (s : Side) : List BattlerId :=
  (List.range (r.battlers s).length).map (BattlerId.on s)

/-- All places. -/
def all (r : Roster) : List BattlerId := r.members .actor ++ r.members .enemy

/-- Whether a battler is at the place and alive. -/
def isAlive (r : Roster) (id : BattlerId) : Bool := (r.get? id).any Battler.isAlive

/-- The places of the living of a side. -/
def aliveMembers (r : Roster) (s : Side) : List BattlerId := (r.members s).filter r.isAlive

/-- The places of the dead of a side. -/
def deadMembers (r : Roster) (s : Side) : List BattlerId := (r.members s).filter (!r.isAlive ·)

/-- The place of the first actor with a number in the game's data. -/
def findActor (r : Roster) (dataId : Nat) : Option BattlerId :=
  (r.party.findIdx? (·.dataId == dataId)).map .actor

/-- The roster with every battler changed. -/
def map (r : Roster) (f : Battler → Battler) : Roster := ⟨r.party.map f, r.troop.map f⟩

/-- The roster under a game's rules for death and TP. -/
def withRules (r : Roster) (deathState : Nat) (maxTp : Int) : Roster :=
  r.map fun b => { b with deathState := deathState, maxTp := maxTp }

end Roster

end BattleScript
