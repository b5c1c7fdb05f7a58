import BattleScript.Text.Case

/-!
# Parameters and pools

The eight parameters of a battler, a table with one value for each of them, and the three pools that
actions drain and fill.
-/

namespace BattleScript

/-- The parameters of a battler. -/
inductive Param
  | maxHp
  | maxMp
  | attack
  | defense
  | magicAttack
  | magicDefense
  | agility
  | luck
  deriving DecidableEq, Repr

namespace Param

/-- The parameters in their order. -/
def all : List Param :=
  [.maxHp, .maxMp, .attack, .defense, .magicAttack, .magicDefense, .agility, .luck]

/-- The number of a parameter, from zero. -/
def number : Param → Nat
  | .maxHp => 0
  | .maxMp => 1
  | .attack => 2
  | .defense => 3
  | .magicAttack => 4
  | .magicDefense => 5
  | .agility => 6
  | .luck => 7

/-- The parameter that a keyword names. -/
def ofKeyword? (s : String) : Option Param :=
  match Text.keyword s with
  | "HP" | "MAXHP" | "MAX HP" => some .maxHp
  | "MP" | "MAXMP" | "MAX MP" | "SP" | "MAXSP" | "MAX SP" => some .maxMp
  | "ATK" | "STR" => some .attack
  | "DEF" => some .defense
  | "MAT" | "INT" | "SPI" => some .magicAttack
  | "MDF" | "RES" => some .magicDefense
  | "AGI" | "SPD" => some .agility
  | "LUK" => some .luck
  | _ => none

/-- How a parameter is called in results. -/
def label : Param → String
  | .maxHp => "Max HP"
  | .maxMp => "Max MP"
  | .attack => "Attack"
  | .defense => "Defense"
  | .magicAttack => "M.Attack"
  | .magicDefense => "M.Defense"
  | .agility => "Agility"
  | .luck => "Luck"

end Param

/-- One value for every parameter. -/
structure PerParam (α : Type) where
  maxHp : α
  maxMp : α
  attack : α
  defense : α
  magicAttack : α
  magicDefense : α
  agility : α
  luck : α
  deriving DecidableEq, Repr

namespace PerParam

variable {α : Type}

/-- The value for a parameter. -/
def get (t : PerParam α) : Param → α
  | .maxHp => t.maxHp
  | .maxMp => t.maxMp
  | .attack => t.attack
  | .defense => t.defense
  | .magicAttack => t.magicAttack
  | .magicDefense => t.magicDefense
  | .agility => t.agility
  | .luck => t.luck

/-- The table of a function. -/
def ofFn (f : Param → α) : PerParam α :=
  ⟨f .maxHp, f .maxMp, f .attack, f .defense, f .magicAttack, f .magicDefense, f .agility, f .luck⟩

/-- A table made of a function has its values. -/
@[simp] theorem get_ofFn (f : Param → α) (p : Param) : (ofFn f).get p = f p := by cases p <;> rfl

/-- Tables with the same values are the same. -/
theorem ext_get {s t : PerParam α} (h : ∀ p, s.get p = t.get p) : s = t := by
  obtain ⟨⟩ := s
  obtain ⟨⟩ := t
  simp only [mk.injEq]
  exact ⟨h .maxHp, h .maxMp, h .attack, h .defense, h .magicAttack, h .magicDefense, h .agility,
    h .luck⟩

/-- The same value for every parameter. -/
def fill (x : α) : PerParam α := ofFn fun _ => x

@[simp] theorem get_fill (x : α) (p : Param) : (fill x).get p = x := get_ofFn _ p

/-- The table with another value for one parameter. -/
def set (t : PerParam α) (p : Param) (x : α) : PerParam α :=
  ofFn fun q => if q = p then x else t.get q

/-- Writing one parameter is seen there and nowhere else. -/
@[simp] theorem get_set (t : PerParam α) (p q : Param) (x : α) :
    (t.set p x).get q = if q = p then x else t.get q := get_ofFn _ q

/-- The values in the order of the parameters. -/
def toList (t : PerParam α) : List α := Param.all.map t.get

end PerParam

/-- What actions drain and fill. -/
inductive Pool
  | hp
  | mp
  | tp
  deriving DecidableEq, Repr

/-- How a pool is called in results. -/
def Pool.label : Pool → String
  | .hp => "HP"
  | .mp => "MP"
  | .tp => "TP"

end BattleScript
