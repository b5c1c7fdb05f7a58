import BattleScript.Number.Range
import BattleScript.OrderedMap

/-!
# Stores

What the game remembers outside of the battlers: switches, variables and the inventory. Switches and
variables have numbers from one on; zero is no number, and writing to it does nothing. Numbers that
were never written read as off or as zero.

The inventory keeps no entry for a count of zero, holds at most `maxItems` of one kind and at most
`maxGold` pieces of gold.
-/

namespace BattleScript

/-- The switches of a game. -/
structure Switches where
  written : OrderedMap Nat Bool := ∅
  deriving DecidableEq, Repr

/-- Whether a switch is on. -/
def Switches.get (s : Switches) (id : Nat) : Bool := (s.written.find? id).getD false

/-- Turns a switch on or off. -/
def Switches.set (s : Switches) (id : Nat) (on : Bool) : Switches :=
  if id = 0 then s else ⟨s.written.insert id on⟩

/-- A switch that is written is seen at its own number only, and the number zero is not written.
-/
theorem Switches.get_set (s : Switches) (id j : Nat) (on : Bool) :
    (s.set id on).get j = if j = id ∧ id ≠ 0 then on else s.get j := by
  unfold set get
  split
  · simp_all
  · rw [OrderedMap.find?_insert]
    split <;> simp_all

/-- The variables of a game. -/
structure Variables where
  written : OrderedMap Nat Int := ∅
  deriving DecidableEq, Repr

/-- The value of a variable. -/
def Variables.get (v : Variables) (id : Nat) : Int := (v.written.find? id).getD 0

/-- Gives a variable a value. -/
def Variables.set (v : Variables) (id : Nat) (x : Int) : Variables :=
  if id = 0 then v else ⟨v.written.insert id x⟩

/-- A variable that is written is seen at its own number only, and the number zero is not written.
-/
theorem Variables.get_set (v : Variables) (id j : Nat) (x : Int) :
    (v.set id x).get j = if j = id ∧ id ≠ 0 then x else v.get j := by
  unfold set get
  split
  · simp_all
  · rw [OrderedMap.find?_insert]
    split <;> simp_all

/-- The kinds of things that an inventory holds. -/
inductive ItemKind
  | item
  | weapon
  | armor
  deriving DecidableEq, Repr

/-- The gold and the things of the party. -/
structure Inventory where
  gold : Int := 0
  items : OrderedMap Nat Int := ∅
  weapons : OrderedMap Nat Int := ∅
  armors : OrderedMap Nat Int := ∅
  deriving DecidableEq, Repr

namespace Inventory

/-- The greatest amount of gold. -/
def maxGold : Int := 99999999

/-- The greatest count of one thing. -/
def maxItems : Int := 99

/-- The things of a kind. -/
def held (v : Inventory) : ItemKind → OrderedMap Nat Int
  | .item => v.items
  | .weapon => v.weapons
  | .armor => v.armors

/-- The inventory with other things of a kind. -/
def withHeld (v : Inventory) (k : ItemKind) (m : OrderedMap Nat Int) : Inventory :=
  match k with
  | .item => { v with items := m }
  | .weapon => { v with weapons := m }
  | .armor => { v with armors := m }

/-- Other things of one kind leave those of the other kinds alone. -/
@[simp] theorem held_withHeld (v : Inventory) (k j : ItemKind) (m : OrderedMap Nat Int) :
    (v.withHeld k m).held j = if j = k then m else v.held j := by
  cases k <;> cases j <;> rfl

/-- How many of a thing there are. -/
def count (v : Inventory) (k : ItemKind) (id : Nat) : Int := ((v.held k).find? id).getD 0

/-- Adds gold, within its bounds. -/
def gainGold (v : Inventory) (x : Int) : Inventory :=
  { v with gold := clampTo 0 maxGold (saturate (v.gold + x)) }

/-- Adds to the count of a thing, within its bounds. -/
def gainItem (v : Inventory) (k : ItemKind) (id : Nat) (x : Int) : Inventory :=
  let n := clampTo 0 maxItems (saturate (v.count k id + x))
  v.withHeld k (if n = 0 then (v.held k).erase id else (v.held k).insert id n)

end Inventory

end BattleScript
