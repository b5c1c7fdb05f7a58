import BattleScript.Battler.Id
import BattleScript.Geometry.Point
import BattleScript.Item.Ref
import BattleScript.Text.Case

/-!
# Stage requests

What an action asks the stage to show.
-/

namespace BattleScript

/-- The parts of the user's own performance. -/
inductive Performance
  | start
  | action
  | finish
  deriving DecidableEq, Repr

/-- The motions of a sprite. -/
inductive Motion
  | walk
  | wait
  | chant
  | guard
  | damage
  | evade
  | thrust
  | swing
  | missile
  | skill
  | spell
  | item
  | escape
  | victory
  | dying
  | abnormal
  | sleep
  | dead
  deriving DecidableEq, Repr

namespace Motion

/-- The motion that a keyword names. -/
def ofKeyword? (s : String) : Option Motion :=
  match Text.lowerKeyword s with
  | "walk" | "move" => some .walk
  | "wait" => some .wait
  | "chant" => some .chant
  | "guard" => some .guard
  | "damage" | "hit" => some .damage
  | "evade" => some .evade
  | "thrust" => some .thrust
  | "swing" => some .swing
  | "missile" => some .missile
  | "skill" => some .skill
  | "spell" => some .spell
  | "item" => some .item
  | "escape" => some .escape
  | "victory" => some .victory
  | "dying" => some .dying
  | "abnormal" => some .abnormal
  | "sleep" => some .sleep
  | "dead" => some .dead
  | _ => none

/-- Whether the motion is made with a weapon. -/
def isWeapon (m : Motion) : Bool := m = .thrust || m = .swing || m = .missile

end Motion

/-- Where a sprite is sent. -/
inductive Destination (α : Type)
  | home
  /-- A distance ahead of where it was last sent, in the direction that its side faces. -/
  | forward (distance : α)
  | point (p : Point α)
  deriving Repr

/-- Where a sprite looks. -/
inductive Facing (α : Type)
  | forward
  | backward
  | home
  | awayFromHome
  | toward (p : Point α)
  | awayFrom (p : Point α)
  deriving Repr

/-- The effects that a sprite shows on demand. -/
inductive SpriteEffect
  | whiten
  | blink
  deriving DecidableEq, Repr

/-- The directions of a fade. -/
inductive Fade
  | fadeIn
  | fadeOut
  deriving DecidableEq, Repr

/-- Four channels of a colour or tone. -/
structure Tone where
  red : Int
  green : Int
  blue : Int
  fourth : Int
  deriving DecidableEq, Repr

/-- What the stage can be asked. -/
inductive StageRequest (α : Type)
  | displayAction (subject : BattlerId) (item : ItemRef)
  | displayResults (target : BattlerId) (message : String)
  | clearLog
  | refreshStatus
  | perform (battler : BattlerId) (performance : Performance)
  | castAnimation (subject : BattlerId) (item : ItemRef)
  | animation (targets : List BattlerId) (animationId : Nat) (mirror : Bool)
  | attackAnimation (subject : BattlerId) (targets : List BattlerId) (mirror : Bool)
  | actionEffect (subject target : BattlerId) (item : ItemRef)
  | damagePopup (battler : BattlerId)
  | collapse (battler : BattlerId)
  | effect (battler : BattlerId) (effect : SpriteEffect)
  | motion (battler : BattlerId) (motion : Motion)
  | performAttack (battler : BattlerId)
  | move (battler : BattlerId) (destination : Destination α) (frames : Nat)
  | face (battler : BattlerId) (facing : Facing α)
  | float (battler : BattlerId) (height : α) (frames : Nat)
  | jump (battler : BattlerId) (height : α) (frames : Nat)
  | opacity (battler : BattlerId) (opacity : UInt8) (frames : Nat)
  | flash (color : Tone) (frames : Nat)
  | tint (tone : Tone) (frames : Nat)
  | shake (power speed : Int) (frames : Nat)
  | fade (fade : Fade) (frames : Nat)
  | battleHud (visible : Bool)
  deriving Repr

end BattleScript
