import BattleScript.Geometry.Anchor

/-!
# The camera

The camera pans towards a target and zooms towards a scale, each over a number of frames. Its target
is its goal, or a group of battlers while it focuses on one, plus an offset. `viewport` is where the
field is drawn: the camera's position in the middle of the screen, kept on the field while clamped.
-/

namespace BattleScript

/-- The state of the camera. -/
structure Camera (α : Type) where
  /-- What it looks at when it focuses on nobody. -/
  goal : Point α
  offset : Point α
  /-- The battlers it focuses on. -/
  focus : List BattlerId
  focusAnchor : Anchor
  /-- Whether the view is kept on the field. -/
  clamped : Bool
  /-- The frames that the pan still takes. -/
  panFrames : Nat
  position : Point α
  zoom : α
  zoomTarget : α
  /-- The frames that the zoom still takes. -/
  zoomFrames : Nat
  deriving Repr

namespace Camera

variable {α : Type} [Scalar α]

/-- A camera at rest on the centre of the field. -/
def ofBounds (bounds : Bounds α) : Camera α where
  goal := bounds.center
  offset := .zero
  focus := []
  focusAnchor := .center
  clamped := true
  panFrames := 0
  position := bounds.center
  zoom := 1
  zoomTarget := 1
  zoomFrames := 0

/-- Sends the camera back to the centre of the field. -/
def reset (c : Camera α) (bounds : Bounds α) (frames : Nat) : Camera α :=
  { c with
    goal := bounds.center, offset := .zero, focus := [], focusAnchor := .center, clamped := true
    panFrames := frames }

/-- Focuses on a group; on nobody it does nothing. -/
def focusOn (c : Camera α) (group : List BattlerId) (anchor : Anchor) (frames : Nat) : Camera α :=
  if group.isEmpty then c
  else { c with focus := group, focusAnchor := anchor, panFrames := frames }

/-- Gives the camera another goal. -/
def panTo (c : Camera α) (goal : Point α) (frames : Nat) : Camera α :=
  { c with goal := goal, panFrames := frames }

/-- Gives the camera another scale to zoom to. -/
def startZoom (c : Camera α) (scale : α) (frames : Nat) : Camera α :=
  { c with zoomTarget := scale, zoomFrames := frames }

/-- Whether a pan is under way. -/
def isPanning (c : Camera α) : Bool := 0 < c.panFrames

/-- Whether a zoom is under way. -/
def isZooming (c : Camera α) : Bool := 0 < c.zoomFrames

/-- The place of a group that the camera looks at when it focuses on it. -/
def focusPoint (c : Camera α) (group : List (Footprint α)) (bounds : Bounds α) : Option (Point α) :=
  anchorPoint group c.focusAnchor bounds 0

/-- What the camera looks at, given the place of the group it focuses on. -/
def target (c : Camera α) (focusPoint : Option (Point α)) : Point α :=
  (if c.focus.isEmpty then c.goal else focusPoint.getD c.goal) + c.offset

/-- Moves the camera by one frame. -/
def advance (c : Camera α) (target : Point α) : Camera α :=
  { c with
    position := if 0 < c.panFrames then c.position.glide c.panFrames target else target
    panFrames := c.panFrames - 1
    zoom := if 0 < c.zoomFrames then glide c.zoomFrames c.zoom c.zoomTarget else c.zoom
    zoomFrames := c.zoomFrames - 1 }

/-- Where the corner of the field is drawn on the screen, in whole pixels. -/
def viewport (c : Camera α) (bounds : Bounds α) : Point α :=
  let sx := -c.position.x * c.zoom + bounds.width / 2
  let sy := -c.position.y * c.zoom + bounds.height / 2
  let origin : Point α :=
    if c.clamped && Scalar.atMost 1 c.zoom then
      ⟨Scalar.smaller (Scalar.larger sx (-bounds.width * c.zoom + bounds.width)) 0,
       Scalar.smaller (Scalar.larger sy (-bounds.height * c.zoom + bounds.height)) 0⟩
    else if c.clamped then
      ⟨(bounds.width - bounds.width * c.zoom) / 2, (bounds.height - bounds.height * c.zoom) / 2⟩
    else ⟨sx, sy⟩
  ⟨Scalar.rounded origin.x, Scalar.rounded origin.y⟩

end Camera

end BattleScript
