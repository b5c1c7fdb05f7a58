import BattleScript.Action.Pack
import BattleScript.Script.Operand

/-!
# Camera commands

Commands that pan, zoom, focus and reset the camera. Most of them do nothing unless the settings
allow the camera; the resets only need side view, and the waits only the battle camera.
-/

namespace BattleScript

/-- The directions that the camera can be moved in. -/
inductive Direction
  | left
  | right
  | up
  | down
  deriving DecidableEq, Repr

/-- The direction that a word in upper case names. -/
def Direction.ofWord? : String → Option Direction
  | "LEFT" => some .left
  | "RIGHT" => some .right
  | "UP" => some .up
  | "DOWN" => some .down
  | _ => none

/-- A step of one in a direction. -/
def Direction.unit : Direction → Point Float
  | .left => ⟨-1, 0⟩
  | .right => ⟨1, 0⟩
  | .up => ⟨0, -1⟩
  | .down => ⟨0, 1⟩

/-- The words that announce a point given by its coordinates. -/
def pointWords : List String :=
  ["POINT", "POSITION", "COORDINATE", "COORDINATES", "SCREEN", "SCREEN POS"]

/-- The point whose coordinates are the arguments from a position on; one that is no number is
zero. -/
def Command.point (c : Command) (i : Nat) : Point Float :=
  ⟨((c.arg i).bind Operand.decimal?).getD 0, ((c.arg (i + 1)).bind Operand.decimal?).getD 0⟩

/-- What the camera is turned to on the field. -/
inductive ScreenView
  /-- A place given in shares of the field. -/
  | share (place : Point Float) (frames : Nat)
  | point (p : Point Float) (frames : Nat)
  | group (target : String) (anchor : Option Anchor) (frames : Nat)
  | nowhere
  deriving Repr

namespace ScreenView

/-- The place of the field, in shares of it, that words in upper case name. -/
def share? : String → Option (Point Float)
  | "TOP LEFT" | "UPPER LEFT" => some ⟨0, 0⟩
  | "FAR LEFT" | "ABSOLUTE LEFT" => some ⟨0, 0.5⟩
  | "BOTTOM LEFT" | "LOWER LEFT" => some ⟨0, 1⟩
  | "TOP CENTER" | "UPPER CENTER" => some ⟨0.5, 0⟩
  | "CENTER" | "MIDDLE" => some ⟨0.5, 0.5⟩
  | "BOTTOM CENTER" | "LOWER CENTER" => some ⟨0.5, 1⟩
  | "TOP RIGHT" | "UPPER RIGHT" => some ⟨1, 0⟩
  | "FAR RIGHT" | "ABSOLUTE RIGHT" => some ⟨1, 0.5⟩
  | "BOTTOM RIGHT" | "LOWER RIGHT" => some ⟨1, 1⟩
  | _ => none

/-- Reads what the camera is turned to. -/
def ofCommand (c : Command) : ScreenView :=
  match c.argUpper 0 with
  | none => .nowhere
  | some words =>
    match share? words with
    | some place => .share place (Operand.framesOr (c.arg 1) 30)
    | none =>
      if words ∈ pointWords then .point (c.point 1) (Operand.framesOr (c.arg 3) 30)
      else .group words ((c.arg 1).bind Anchor.ofKeyword?) (Operand.framesOr (c.arg 2) 30)

end ScreenView

/-- A camera command. -/
inductive CameraOp
  | clamp (on : Bool)
  | focus (target : Option String) (anchor : Anchor) (frames : Nat)
  | offset (direction : Option Direction) (amount : Float)
  | pan (direction : Option Direction) (amount : Float) (frames : Nat)
  | screen (view : ScreenView)
  | resetCamera (frames : Nat)
  | resetZoom (frames : Nat)
  | waitFor (w : Wait)
  | zoom (scale : Float) (frames : Nat)
  deriving Repr

namespace CameraOp

/-- A decimal argument, where an absent, unreadable or zero one takes the given value. -/
def decimalOr (arg : Option Float) (otherwise : Float) : Float :=
  match arg with
  | some x => if x == 0 then otherwise else x
  | none => otherwise

/-- A scale: a percentage or a plain factor. -/
def scale? (s : String) : Option Float :=
  match Operand.percent? s with
  | some x => some (x * 0.01)
  | none => Operand.decimal? s

/-- Reads a camera command. -/
def ofCommand? (c : Command) : Option CameraOp :=
  let direction := (c.argUpper 0).bind Direction.ofWord?
  let distance := decimalOr ((c.arg 1).bind Operand.decimal?) 100
  match c.words with
  | ["CAMERA", "CLAMP", "ON"] => some (.clamp true)
  | ["CAMERA", "CLAMP", "OFF"] => some (.clamp false)
  | ["CAMERA", "FOCUS"] | ["FOCUS", "CAMERA"] =>
    some (.focus (c.arg 0) (.ofFocusKeyword ((c.arg 1).getD "CENTER"))
      (Operand.framesOr (c.arg 2) 30))
  | ["CAMERA", "OFFSET"] | ["OFFSET", "CAMERA"] => some (.offset direction distance)
  | ["CAMERA", "PAN"] | ["PAN", "CAMERA"] =>
    some (.pan direction distance (Operand.framesOr (c.arg 2) 30))
  | ["CAMERA", "SCREEN"] => some (.screen (.ofCommand c))
  | ["RESET", "CAMERA"] => some (.resetCamera (Operand.framesOr (c.arg 0) 30))
  | ["RESET", "ZOOM"] => some (.resetZoom (Operand.framesOr (c.arg 0) 30))
  | ["WAIT", "FOR", "CAMERA"] => some (.waitFor .camera)
  | ["WAIT", "FOR", "ZOOM"] => some (.waitFor .zoom)
  | ["ZOOM"] =>
    some (.zoom (decimalOr ((c.arg 0).bind scale?) 1) (Operand.framesOr (c.arg 1) 30))
  | _ => none

/-- The offset of a camera after it was moved off in a direction; the other coordinate stays. -/
def offsetAfter (old : Point Float) (amount : Float) : Option Direction → Point Float
  | some .left => { old with x := Direction.left.unit.x * amount }
  | some .right => { old with x := Direction.right.unit.x * amount }
  | some .up => { old with y := Direction.up.unit.y * amount }
  | some .down => { old with y := Direction.down.unit.y * amount }
  | none => old

/-- Turns the camera to a view. On a group that covers no ground it yields; without an anchor it
does nothing. -/
def turn (view : ScreenView) (c : ActionContext) (b : Battle) : Signal × Battle :=
  let bounds := b.settings.bounds
  match view with
  | .share place frames =>
    (.proceed, { b with
      camera := b.camera.panTo ⟨place.x * bounds.width, place.y * bounds.height⟩ frames })
  | .point p frames => (.proceed, { b with camera := b.camera.panTo p frames })
  | .group target anchor frames =>
    let footprints := b.cameraFootprints (b.targets c (some target))
    if footprints.isEmpty then (.yield, b)
    else
      match anchor.bind (anchorPoint footprints · bounds 0) with
      | some p => (.proceed, { b with camera := b.camera.panTo p frames })
      | none => (.proceed, b)
  | .nowhere => (.proceed, b)

/-- Runs a camera command where the camera is allowed. -/
def runEnabled (op : CameraOp) (c : ActionContext) (b : Battle) : Signal × Battle :=
  match op with
  | .clamp on => (.proceed, { b with camera := { b.camera with clamped := on } })
  | .focus target anchor frames =>
    let group := b.targets c target
    if group.isEmpty then (.yield, b)
    else (.proceed, { b with camera := b.camera.focusOn group anchor frames })
  | .offset direction amount =>
    (.proceed, { b with
      camera := { b.camera with offset := offsetAfter b.camera.offset amount direction } })
  | .pan direction amount frames =>
    let shift := (direction.map fun d => d.unit.scale amount).getD .zero
    (.proceed, { b with camera := b.camera.panTo (b.camera.goal + shift) frames })
  | .screen view => turn view c b
  | .zoom scale frames => (.proceed, { b with camera := b.camera.startZoom scale frames })
  | .resetCamera _ | .resetZoom _ | .waitFor _ => (.proceed, b)

/-- Runs a camera command. -/
def run (op : CameraOp) (c : ActionContext) (b : Battle) : Signal × Battle :=
  match op with
  | .resetCamera frames =>
    (.proceed, if b.settings.sideView then
      { b with camera := b.camera.reset b.settings.bounds frames } else b)
  | .resetZoom frames =>
    (.proceed, if b.settings.sideView then
      { b with camera := b.camera.startZoom 1 frames } else b)
  | .waitFor w => if b.settings.battleCamera then (.wait w, b) else (.proceed, b)
  | op => if b.settings.cameraEnabled then op.runEnabled c b else (.proceed, b)

/-- The pack of the camera commands. -/
def pack : Pack := .ofInstructions "camera" ofCommand? fun op c b => some (op.run c b)

end CameraOp

end BattleScript
