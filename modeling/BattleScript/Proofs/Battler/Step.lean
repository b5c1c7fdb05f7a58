import BattleScript.Battler.Roster
import Mathlib.Logic.Relation

/-!
# Steps of a battler

`Battler.Step` is one operation on a battler, with any arguments. Whatever is done to a battler in a
battle is a number of them, so a fact about battlers in play is an induction over steps.

A battler also has a part that no operation touches: who it is, what it can do and by which rules it
lives and dies. That part is its `Sheet`.

Where it matters which operations they are, they are given as data (`Op`).
-/

namespace BattleScript

namespace Battler

/-- What is true of a battler for good. -/
structure Sheet where
  name : String
  dataId : Nat
  params : PerParam Int
  skills : List Nat
  maxTp : Int
  deathState : Nat
  deriving DecidableEq, Repr

/-- The sheet of a battler. -/
def sheet (x : Battler) : Sheet where
  name := x.name
  dataId := x.dataId
  params := x.params
  skills := x.skills
  maxTp := x.maxTp
  deathState := x.deathState

/-- One operation on a battler. The collapse is only noted of the dead. -/
inductive Step : Battler → Battler → Prop
  | gain (x : Battler) (p : Pool) (n : Int) : Step x (x.gain p n)
  | setImmortal (x : Battler) (on : Bool) : Step x (x.setImmortal on)
  | addState (x : Battler) (s : Nat) : Step x (x.addState s).2
  | removeState (x : Battler) (s : Nat) : Step x (x.removeState s).2
  | addBuff (x : Battler) (p : Param) (turns : Nat) : Step x (x.addBuff p turns)
  | addDebuff (x : Battler) (p : Param) (turns : Nat) : Step x (x.addDebuff p turns)
  | removeBuff (x : Battler) (p : Param) : Step x (x.removeBuff p)
  | updateBuffTurns (x : Battler) : Step x x.updateBuffTurns
  | markCollapsed (x : Battler) (dead : x.isDead) : Step x x.markCollapsed.2

/-! ## The sheet -/

/-- Refreshing touches nothing of the sheet, and so no operation that ends with it does. -/
@[simp] theorem sheet_refresh (x : Battler) : x.refresh.sheet = x.sheet := by
  simp only [refresh, settleLife]
  repeat' split
  all_goals rfl

@[simp] theorem sheet_withPool (x : Battler) (p : Pool) (n : Int) :
    (x.withPool p n).sheet = x.sheet := by
  cases p <;> rfl

@[simp] theorem sheet_gain (x : Battler) (p : Pool) (n : Int) : (x.gain p n).sheet = x.sheet := by
  rw [gain, sheet_refresh, sheet_withPool]

@[simp] theorem sheet_setImmortal (x : Battler) (on : Bool) :
    (x.setImmortal on).sheet = x.sheet := by
  rw [setImmortal, sheet_refresh]
  rfl

@[simp] theorem sheet_addState (x : Battler) (s : Nat) : (x.addState s).2.sheet = x.sheet := by
  unfold addState
  repeat' split
  all_goals rfl

@[simp] theorem sheet_removeState (x : Battler) (s : Nat) :
    (x.removeState s).2.sheet = x.sheet := by
  simp only [removeState]
  repeat' split
  all_goals rfl

@[simp] theorem sheet_settleBuff (x : Battler) (p : Param) (level : Int) (turns : Nat) :
    (x.settleBuff p level turns).sheet = x.sheet := by
  rw [settleBuff, sheet_refresh]
  rfl

@[simp] theorem sheet_addBuff (x : Battler) (p : Param) (turns : Nat) :
    (x.addBuff p turns).sheet = x.sheet := by
  unfold addBuff
  split
  · rfl
  · exact sheet_settleBuff ..

@[simp] theorem sheet_addDebuff (x : Battler) (p : Param) (turns : Nat) :
    (x.addDebuff p turns).sheet = x.sheet := by
  unfold addDebuff
  split
  · rfl
  · exact sheet_settleBuff ..

@[simp] theorem sheet_removeBuff (x : Battler) (p : Param) : (x.removeBuff p).sheet = x.sheet := by
  rw [removeBuff, sheet_refresh]
  rfl

@[simp] theorem sheet_updateBuffTurns (x : Battler) : x.updateBuffTurns.sheet = x.sheet := by
  rw [updateBuffTurns, sheet_refresh]
  rfl

@[simp] theorem sheet_markCollapsed (x : Battler) : x.markCollapsed.2.sheet = x.sheet := by
  unfold markCollapsed
  split <;> rfl

/-- No operation changes the sheet. -/
theorem Step.sheet_eq {x y : Battler} (h : Step x y) : y.sheet = x.sheet := by
  cases h <;> simp

/-! ## Runs -/

/-- Operations on a battler. -/
abbrev Steps : Battler → Battler → Prop := Relation.ReflTransGen Step

/-- The sheet is the same however many operations were applied. -/
theorem Steps.sheet_eq {x y : Battler} (h : Steps x y) : y.sheet = x.sheet := by
  induction h with
  | refl => rfl
  | tail _ step ih => exact step.sheet_eq.trans ih

/-! ## Operations as data -/

/-- An operation on a battler, with its arguments. -/
inductive Op
  | gain (p : Pool) (n : Int)
  | setImmortal (on : Bool)
  | addState (s : Nat)
  | removeState (s : Nat)
  | addBuff (p : Param) (turns : Nat)
  | addDebuff (p : Param) (turns : Nat)
  | removeBuff (p : Param)
  | endTurn
  deriving DecidableEq, Repr

namespace Op

/-- The battler after the operation. -/
def apply (x : Battler) : Op → Battler
  | gain p n => x.gain p n
  | setImmortal on => x.setImmortal on
  | addState s => (x.addState s).2
  | removeState s => (x.removeState s).2
  | addBuff p turns => x.addBuff p turns
  | addDebuff p turns => x.addDebuff p turns
  | removeBuff p => x.removeBuff p
  | endTurn => x.updateBuffTurns

/-- The battler after operations, in their order. -/
def applyAll (x : Battler) (ops : List Op) : Battler := ops.foldl apply x

end Op

end Battler

end BattleScript
