import BattleScript.OrderedMap
import BattleScript.Stage.Sprite

/-!
# The stage

The stage shows an action without a screen: every request is kept, and what it starts runs on frame
counters, so that a script can wait for it. `request` takes a request, `advance` is one frame, and
the predicates from `isAnimationPlaying` on say what can be waited for.
-/

namespace BattleScript

/-- How many frames things take to show. -/
structure Timings where
  animation : Nat := 30
  collapse : Nat := 32
  whiten : Nat := 16
  blink : Nat := 20
  popup : Nat := 90
  motion : Nat := 12
  logLine : Nat := 16
  deriving DecidableEq, Repr

/-- The state of the stage. -/
structure Stage (α : Type) where
  timings : Timings := {}
  sprites : OrderedMap BattlerId (Sprite α) := ∅
  /-- The frames that the animation still takes. -/
  animation : Nat := 0
  /-- The frames that the popup still takes. -/
  popup : Nat := 0
  /-- The frames for which the log takes no new line. -/
  logBusy : Nat := 0
  /-- The frames that the screen effect still takes. -/
  screen : Nat := 0
  log : Array String := #[]
  /-- All requests so far. -/
  history : Array (StageRequest α) := #[]
  hudVisible : Bool := true
  deriving Repr

namespace Stage

variable {α : Type} [Scalar α]

/-- The stage with the sprite of a battler. -/
def addSprite (s : Stage α) (b : BattlerId) (spec : SpriteSpec α) : Stage α :=
  { s with sprites := s.sprites.insert b (.atHome spec) }

/-- The sprite of a battler. -/
def sprite? (s : Stage α) (b : BattlerId) : Option (Sprite α) := s.sprites.find? b

/-- Changes the sprite of a battler, if it has one. -/
def onSprite (s : Stage α) (b : BattlerId) (f : Sprite α → Sprite α) : Stage α :=
  { s with sprites := s.sprites.modify b f }

/-- Changes the sprite of a battler, if it has one that can be moved. -/
def onMovable (s : Stage α) (b : BattlerId) (f : Sprite α → Sprite α) : Stage α :=
  s.onSprite b fun p => if p.spec.canMove then f p else p

/-- Adds a line to the log. -/
def writeLog (s : Stage α) (line : String) : Stage α :=
  { s with log := s.log.push line, logBusy := s.timings.logLine }

/-- The point that a destination means for a sprite. Actors face left. -/
def destinationPoint (b : BattlerId) (p : Sprite α) : Destination α → Point α
  | .home => p.spec.home
  | .point q => q
  | .forward d => p.destination + ⟨if b.isActor then -d else d, 0⟩

/-- What a request starts. -/
def react (s : Stage α) : StageRequest α → Stage α
  | .displayAction subject item => s.writeLog (subject.label ++ " uses " ++ item.label)
  | .displayResults _ message => s.writeLog message
  | .clearLog => { s with log := #[] }
  | .castAnimation .. | .attackAnimation .. | .animation .. =>
    { s with animation := s.timings.animation }
  | .actionEffect _ b _ | .damagePopup b =>
    if s.sprites.contains b then { s with popup := s.timings.popup } else s
  | .collapse b => s.onSprite b fun p => { p with effectFrames := s.timings.collapse }
  | .effect b .whiten => s.onSprite b fun p => { p with effectFrames := s.timings.whiten }
  | .effect b .blink => s.onSprite b fun p => { p with effectFrames := s.timings.blink }
  | .motion b _ | .performAttack b =>
    s.onSprite b fun p => { p with motionFrames := s.timings.motion }
  | .move b destination frames =>
    s.onMovable b fun p => p.startMove (destinationPoint b p destination) frames
  | .face b facing => s.onSprite b fun p => { p with facing := some facing }
  | .float b height frames => s.onMovable b fun p => p.startFloat height frames
  | .jump b height frames => s.onMovable b fun p => p.startJump height frames
  | .opacity b opacity frames => s.onSprite b fun p => p.startOpacity opacity frames
  | .flash _ frames | .tint _ frames | .shake _ _ frames | .fade _ frames =>
    { s with screen := max s.screen frames }
  | .battleHud visible => { s with hudVisible := visible }
  | .perform .. | .refreshStatus => s

/-- Takes a request. -/
def request (s : Stage α) (r : StageRequest α) : Stage α :=
  { s.react r with history := s.history.push r }

/-- One frame. -/
def advance (s : Stage α) : Stage α :=
  { s with
    animation := s.animation - 1
    popup := s.popup - 1
    logBusy := s.logBusy - 1
    screen := s.screen - 1
    sprites := s.sprites.mapValues fun _ p => p.advance }

/-- Whether an animation is playing. -/
def isAnimationPlaying (s : Stage α) : Bool := 0 < s.animation

/-- Whether some sprite shows an effect. -/
def isEffecting (s : Stage α) : Bool := s.sprites.values.any (0 < ·.effectFrames)

/-- Whether some sprite is moving. -/
def isAnyMoving (s : Stage α) : Bool := s.sprites.values.any (0 < ·.moveFrames)

/-- Whether some sprite is on its way to a height. -/
def isAnyFloating (s : Stage α) : Bool := s.sprites.values.any (0 < ·.floatFrames)

/-- Whether some sprite is jumping. -/
def isAnyJumping (s : Stage α) : Bool := s.sprites.values.any (0 < ·.jumpFrames)

/-- Whether some sprite is on its way to an opacity. -/
def isOpacityChanging (s : Stage α) : Bool := s.sprites.values.any (0 < ·.opacityFrames)

/-- Whether the sprite of a battler makes a motion. -/
def isMotionPlaying (s : Stage α) (b : BattlerId) : Bool := (s.sprite? b).any (0 < ·.motionFrames)

/-- Whether a popup is shown. -/
def isPopupPlaying (s : Stage α) : Bool := 0 < s.popup

/-- Whether the log takes no new line yet. -/
def isLogBusy (s : Stage α) : Bool := 0 < s.logBusy

/-- Whether a screen effect is under way. -/
def isScreenBusy (s : Stage α) : Bool := 0 < s.screen

end Stage

end BattleScript
