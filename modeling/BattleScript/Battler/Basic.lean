import BattleScript.Battler.Param
import BattleScript.Number.Double

/-!
# Battlers

A battler has pools, parameters with buffs on them, and states. One state means death. A battler
whose HP reach zero dies, unless it is immortal; then it dies as soon as it is not. Death empties
its states and buffs; getting HP, or losing the state of death, brings it back.

`refresh` is what ties these together: it is run after every change of a pool, a buff or
immortality, brings the pools under their maxima and settles life and death by the HP.
-/

namespace BattleScript

/-- One who fights. -/
structure Battler where
  name : String
  dataId : Nat
  hp : Int
  mp : Int
  tp : Int
  /-- The parameters without buffs. -/
  params : PerParam Int
  /-- The levels of the buffs; a negative level is a debuff. -/
  buffs : PerParam Int
  /-- The turns that the buffs still last. -/
  buffTurns : PerParam Nat
  /-- The states in the order in which they came. -/
  states : List Nat
  skills : List Nat
  /-- Whether zero HP do not kill. -/
  immortal : Bool
  /-- Whether the collapse after death was shown. -/
  collapsed : Bool
  maxTp : Int
  /-- The state that means death. -/
  deathState : Nat
  deriving DecidableEq, Repr

namespace Battler

/-- The greatest level of a buff or debuff. -/
def maxBuffLevel : Int := 2

/-- A battler in full health, with base values of ten. -/
def fresh (name : String) (dataId : Nat) (mhp mmp : Int) : Battler where
  name := name
  dataId := dataId
  hp := max mhp 1
  mp := max mmp 0
  tp := 0
  params := ((PerParam.fill 10).set .maxHp (max mhp 1)).set .maxMp (max mmp 0)
  buffs := .fill 0
  buffTurns := .fill 0
  states := []
  skills := []
  immortal := false
  collapsed := false
  maxTp := 100
  deathState := 1

/-- The value of a parameter: each level of its buff is worth a quarter of the base. -/
def param (b : Battler) (p : Param) : Int :=
  let rate := Double.ofInt 1 + Double.quarter * Double.ofInt (b.buffs.get p)
  clampTo 0 int32Max (Double.ofInt (b.params.get p) * rate).round

/-- The maximum of the HP. -/
def mhp (b : Battler) : Int := max (b.param .maxHp) 1

/-- The maximum of the MP. -/
def mmp (b : Battler) : Int := b.param .maxMp

/-- What is in a pool. -/
def pool (b : Battler) : Pool → Int
  | .hp => b.hp
  | .mp => b.mp
  | .tp => b.tp

/-- The maximum of a pool. -/
def maxPool (b : Battler) : Pool → Int
  | .hp => b.mhp
  | .mp => b.mmp
  | .tp => b.maxTp

/-- The battler with another content of a pool. -/
def withPool (b : Battler) (p : Pool) (x : Int) : Battler :=
  match p with
  | .hp => { b with hp := x }
  | .mp => { b with mp := x }
  | .tp => { b with tp := x }

/-- Whether the battler has a state. -/
def hasState (b : Battler) (s : Nat) : Bool := b.states.contains s

/-- Whether the battler is dead. -/
def isDead (b : Battler) : Bool := b.hasState b.deathState

/-- Whether the battler is alive. -/
def isAlive (b : Battler) : Bool := !b.isDead

/-- What death takes: HP, states and buffs. -/
def perish (b : Battler) : Battler :=
  { b with hp := 0, states := [], buffs := .fill 0, buffTurns := .fill 0 }

/-- The battler without a state. -/
def dropState (b : Battler) (s : Nat) : Battler := { b with states := b.states.filter (· ≠ s) }

/-- The pools under their maxima. -/
def capPools (b : Battler) : Battler :=
  { b with hp := min b.hp b.mhp, mp := min b.mp b.mmp, tp := min b.tp b.maxTp }

/-- Life and death by the HP. -/
def settleLife (b : Battler) : Battler :=
  if b.hp = 0 then
    if b.immortal || b.isDead then b else { b.perish with states := [b.deathState] }
  else if b.isDead then { b.dropState b.deathState with collapsed := false }
  else b

/-- Brings the battler in order after a change. -/
def refresh (b : Battler) : Battler := b.capPools.settleLife

/-- Adds to a pool, within its bounds. -/
def gain (b : Battler) (p : Pool) (x : Int) : Battler :=
  (b.withPool p (clampTo 0 (b.maxPool p) (saturate (b.pool p + x)))).refresh

/-- Makes the battler immortal, or mortal again. -/
def setImmortal (b : Battler) (immortal : Bool) : Battler := { b with immortal := immortal }.refresh

/-- Adds a state, and whether it was added. The dead get no states, and the immortal do not die. -/
def addState (b : Battler) (s : Nat) : Bool × Battler :=
  if b.hasState s then (false, b)
  else if s = b.deathState then
    if b.immortal then (false, b) else (true, { b.perish with states := [s] })
  else if b.isDead then (false, b)
  else (true, { b with states := b.states ++ [s] })

/-- Removes a state, and whether it was there. Without the state of death there is some life. -/
def removeState (b : Battler) (s : Nat) : Bool × Battler :=
  if b.hasState s then
    let r := b.dropState s
    (true, if s = b.deathState then
      { r with hp := if r.hp = 0 then 1 else r.hp, collapsed := false } else r)
  else (false, b)

/-- Gives a buff another level, lasting at least the given turns unless the level is zero. -/
def settleBuff (b : Battler) (p : Param) (level : Int) (turns : Nat) : Battler :=
  { b with
    buffs := b.buffs.set p level
    buffTurns :=
      b.buffTurns.set p (if level = 0 then 0 else max (b.buffTurns.get p) turns) }.refresh

/-- Raises a parameter of the living by a level. -/
def addBuff (b : Battler) (p : Param) (turns : Nat) : Battler :=
  if b.isDead then b
  else
    let level := b.buffs.get p
    b.settleBuff p (if level < maxBuffLevel then level + 1 else level) turns

/-- Lowers a parameter of the living by a level. -/
def addDebuff (b : Battler) (p : Param) (turns : Nat) : Battler :=
  if b.isDead then b
  else
    let level := b.buffs.get p
    b.settleBuff p (if -maxBuffLevel < level then level - 1 else level) turns

/-- Takes a parameter back to its base. -/
def removeBuff (b : Battler) (p : Param) : Battler :=
  { b with buffs := b.buffs.set p 0, buffTurns := b.buffTurns.set p 0 }.refresh

/-- Whether a parameter is raised. -/
def isBuffed (b : Battler) (p : Param) : Bool := 0 < b.buffs.get p

/-- Whether a parameter is lowered. -/
def isDebuffed (b : Battler) (p : Param) : Bool := b.buffs.get p < 0

/-- A turn less for every buff; those that had one turn left end. -/
def updateBuffTurns (b : Battler) : Battler :=
  { b with
    buffs := .ofFn fun p => if b.buffTurns.get p = 1 then 0 else b.buffs.get p
    buffTurns := .ofFn fun p => b.buffTurns.get p - 1 }.refresh

/-- Notes that the collapse is shown, and whether that was not yet so. -/
def markCollapsed (b : Battler) : Bool × Battler :=
  if b.collapsed then (false, b) else (true, { b with collapsed := true })

/-- The marks that the battler carries. -/
def marks (b : Battler) : List String :=
  (if b.immortal then ["IMMORTAL"] else []) ++ (if b.collapsed then ["COLLAPSED"] else [])

end Battler

end BattleScript
