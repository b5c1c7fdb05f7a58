import BattleScript.Battle

/-!
# Signals and waits

What a command tells the interpreter when it has run: go on, give up the frame, wait for
something, or abort the script. A wait is polled once in every later frame; it either still holds
or has cleared.
-/

namespace BattleScript

/-- What a script can wait for. -/
inductive Wait
  | frames (count : Nat)
  | animation
  | effect
  | movement
  | float
  | jump
  | opacity
  | camera
  | zoom
  | newLine
  | popups
  | motion (battlers : List BattlerId)
  deriving DecidableEq, Repr

/-- What a command tells the interpreter. -/
inductive Signal
  /-- Go on with the next line. -/
  | proceed
  /-- Go on in the next frame. -/
  | yield
  /-- Go on when the wait has cleared. -/
  | wait (w : Wait)
  /-- Drop the rest of the script. -/
  | abort
  deriving DecidableEq, Repr

/-- Whether what is waited for is under way; a count of frames holds until it is used up. -/
def Wait.holds (b : Battle) : Wait → Bool
  | .frames n => 0 < n
  | .animation => b.stage.isAnimationPlaying
  | .effect => b.stage.isEffecting
  | .movement => b.stage.isAnyMoving
  | .float => b.stage.isAnyFloating
  | .jump => b.stage.isAnyJumping
  | .opacity => b.stage.isOpacityChanging
  | .camera => b.camera.isPanning
  | .zoom => b.camera.isZooming
  | .newLine => b.stage.isLogBusy
  | .popups => b.stage.isPopupPlaying
  | .motion ids => ids.any b.stage.isMotionPlaying

/-- The wait after a poll that found it holding. -/
def Wait.tick : Wait → Wait
  | .frames n => .frames (n - 1)
  | w => w

/-- Polls a wait: what is left of it, or nothing if it has cleared. -/
def Wait.poll (b : Battle) (w : Wait) : Option Wait := if w.holds b then some w.tick else none

end BattleScript
