import BattleScript.Number.Range
import BattleScript.Stage.Request

/-!
# Sprites

The figure of a battler on the stage. It moves, floats, jumps and fades over a number of frames
each, independently of each other; `advance` is one frame of all of them.

A move glides to its destination. A float and a fade go at a constant rate and land on their target
with the last frame. A jump is a parabola over its whole length.
-/

namespace BattleScript

/-- What does not change about a sprite. -/
structure SpriteSpec (α : Type) where
  home : Point α
  width : α
  height : α
  /-- Whether it can be moved, floated and made to jump. -/
  canMove : Bool
  deriving Repr

/-- The state of a sprite. -/
structure Sprite (α : Type) where
  spec : SpriteSpec α
  position : Point α
  destination : Point α
  moveFrames : Nat
  facing : Option (Facing α)
  /-- Its height over the ground, in its own heights. -/
  floatHeight : α
  floatTarget : α
  floatRate : α
  floatFrames : Nat
  /-- The peak of the jump, in its own heights. -/
  jumpPeak : α
  jumpFrames : Nat
  /-- The frames of the whole jump. -/
  jumpLength : Nat
  opacity : α
  opacityTarget : α
  opacityRate : α
  opacityFrames : Int
  /-- Whether the opacity is on its way to its target. -/
  fading : Bool
  effectFrames : Nat
  motionFrames : Nat
  deriving Repr

namespace Sprite

variable {α : Type} [Scalar α]

/-- A sprite at home and at rest. -/
def atHome (spec : SpriteSpec α) : Sprite α where
  spec := spec
  position := spec.home
  destination := spec.home
  moveFrames := 0
  facing := none
  floatHeight := 0
  floatTarget := 0
  floatRate := 0
  floatFrames := 0
  jumpPeak := 0
  jumpFrames := 0
  jumpLength := 0
  opacity := 255
  opacityTarget := 255
  opacityRate := 0
  opacityFrames := 0
  fading := false
  effectFrames := 0
  motionFrames := 0

/-- Sends the sprite to a point; without frames it is there at once. -/
def startMove (s : Sprite α) (destination : Point α) (frames : Nat) : Sprite α :=
  { s with
    destination := destination
    moveFrames := frames
    position := if frames = 0 then destination else s.position }

/-- Lets the sprite float to a height. -/
def startFloat (s : Sprite α) (height : α) (frames : Nat) : Sprite α :=
  let n := max frames 1
  { s with
    floatTarget := height
    floatFrames := n
    floatRate := Scalar.magnitude (s.floatHeight - height) / Scalar.ofNat n }

/-- Lets the sprite jump. -/
def startJump (s : Sprite α) (peak : α) (frames : Nat) : Sprite α :=
  { s with jumpPeak := peak, jumpFrames := frames, jumpLength := frames }

/-- Fades the sprite to an opacity. The frames are counted down as a signed 32-bit number. -/
def startOpacity (s : Sprite α) (opacity : UInt8) (frames : Nat) : Sprite α :=
  let n := max frames 1
  let target : α := Scalar.ofNat opacity.toNat
  { s with
    opacityTarget := target
    opacityFrames := wrapInt32 n
    opacityRate := Scalar.magnitude (s.opacity - target) / Scalar.ofNat n
    fading := true }

/-- The height of the jump at this moment, in the sprite's own heights. -/
def jumpHeight (s : Sprite α) : α :=
  if s.jumpFrames = 0 then 0
  else
    let x : α := Scalar.ofNat (s.jumpLength - s.jumpFrames)
    let h : α := Scalar.ofNat s.jumpLength / 2
    let a := -s.jumpPeak / (h * h)
    a * ((x - h) * (x - h)) + s.jumpPeak

/-- The position raised by float and jump. -/
def liftedPosition (s : Sprite α) : Point α :=
  ⟨s.position.x, s.position.y - (s.floatHeight + s.jumpHeight) * s.spec.height⟩

/-- A value one rate closer to its target, but not past it. -/
def approach (rate target value : α) : α :=
  if Scalar.atMost target value then Scalar.larger (value - rate) target
  else Scalar.smaller (value + rate) target

/-- A frame of the move. -/
def advanceMove (s : Sprite α) : Sprite α :=
  if 0 < s.moveFrames then
    { s with
      position := s.position.glide s.moveFrames s.destination
      moveFrames := s.moveFrames - 1 }
  else s

/-- A frame of the float and the jump. -/
def advanceLift (s : Sprite α) : Sprite α :=
  let n := s.floatFrames - 1
  { s with
    floatFrames := n
    jumpFrames := s.jumpFrames - 1
    floatHeight :=
      if n = 0 then s.floatTarget else approach s.floatRate s.floatTarget s.floatHeight }

/-- A frame of the fade. -/
def advanceOpacity (s : Sprite α) : Sprite α :=
  if s.fading then
    let n := s.opacityFrames - 1
    if n ≤ 0 then { s with opacityFrames := n, opacity := s.opacityTarget, fading := false }
    else { s with
      opacityFrames := n, opacity := approach s.opacityRate s.opacityTarget s.opacity }
  else s

/-- A frame of the effect and the motion. -/
def advanceShow (s : Sprite α) : Sprite α :=
  { s with effectFrames := s.effectFrames - 1, motionFrames := s.motionFrames - 1 }

/-- One frame. -/
def advance (s : Sprite α) : Sprite α :=
  s.advanceMove.advanceLift.advanceOpacity.advanceShow

end Sprite

end BattleScript
