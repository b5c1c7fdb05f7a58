import BattleScript.Battler.Id
import BattleScript.Geometry.Point
import BattleScript.Text.Case

/-!
# Anchors

Places of a group of battlers that a camera can look at or a battler can move to: the front, the
middle or the back of the group, at its feet, its middle or its head. Actors stand on the right and
face left, so the front of an actor is its left edge.
-/

namespace BattleScript

/-- A place along the width of a group. -/
inductive AnchorX
  | front
  | middle
  | back
  deriving DecidableEq, Repr

/-- A place along the height of a group. -/
inductive AnchorY
  | base
  | middle
  | top
  deriving DecidableEq, Repr

/-- A place of a group. -/
structure Anchor where
  x : AnchorX
  y : AnchorY
  deriving DecidableEq, Repr

namespace Anchor

/-- The middle of a group. -/
def center : Anchor := ⟨.middle, .middle⟩

/-- The height that a word names. -/
def heightOfWord? : String → Option AnchorY
  | "BASE" | "FOOT" | "FEET" => some .base
  | "CENTER" | "MIDDLE" => some .middle
  | "HEAD" | "TOP" => some .top
  | _ => none

/-- The anchor of one or two words in upper case: a front or back, a height, or both in this order.
Without a height it is at `bare`. -/
def ofWords? (bare : AnchorY) : List String → Option Anchor
  | ["FRONT"] => some ⟨.front, bare⟩
  | ["BACK"] => some ⟨.back, bare⟩
  | ["FRONT", w] => (heightOfWord? w).map (⟨.front, ·⟩)
  | ["BACK", w] => (heightOfWord? w).map (⟨.back, ·⟩)
  | [w] => (heightOfWord? w).map (⟨.middle, ·⟩)
  | _ => none

/-- The words of a keyword, in upper case. -/
def keywords (s : String) : List String :=
  (Text.words (Text.upper (Text.trim s.toList))).map String.ofList

/-- The anchor that a keyword names for someone who moves there, at the feet unless it says
otherwise. -/
def ofKeyword? (s : String) : Option Anchor := ofWords? .base (keywords s)

/-- The anchor that a keyword names for a camera, in the middle unless it says otherwise. -/
def ofFocusKeyword (s : String) : Anchor := (ofWords? .middle (keywords s)).getD center

end Anchor

/-- The rectangle that a battler covers. -/
structure Footprint (α : Type) where
  side : Side
  position : Point α
  width : α
  height : α
  deriving Repr

section Places

variable {α : Type} [Scalar α]

/-- How far the front of a footprint lies to the right of its position. -/
def Footprint.frontOffset (f : Footprint α) : α :=
  match f.side with
  | .actor => -f.width / 2
  | .enemy => f.width / 2

/-- How far the back of a footprint lies to the right of its position. -/
def Footprint.backOffset (f : Footprint α) : α :=
  match f.side with
  | .actor => f.width / 2
  | .enemy => -f.width / 2

/-- The x coordinate of a place of a nonempty group. `reach` moves the front to the right and the
back to the left. The front is never left of the field and the back never right of it. -/
def anchorX (group : List (Footprint α)) (anchor : AnchorX) (bounds : Bounds α) (reach : α) :
    Option α :=
  if group.isEmpty then none
  else
    let count : α := Scalar.ofNat group.length
    let total : α := match anchor with
      | .middle => Scalar.sum (group.map (·.position.x))
      | .front => group.foldl (fun v f => Scalar.larger v (f.position.x + f.frontOffset + reach)) 0
          * count
      | .back =>
        group.foldl (fun v f => Scalar.smaller v (f.position.x + f.backOffset - reach)) bounds.width
          * count
    some (total / count)

/-- The y coordinate of a place of a nonempty group. The base is never above the field and the top
never below it. -/
def anchorY (group : List (Footprint α)) (anchor : AnchorY) (bounds : Bounds α) : Option α :=
  if group.isEmpty then none
  else
    let count : α := Scalar.ofNat group.length
    let total : α := match anchor with
      | .base => group.foldl (fun v f => Scalar.larger v f.position.y) 0 * count
      | .middle => Scalar.sum (group.map fun f => f.position.y - f.height / 2)
      | .top =>
        group.foldl (fun v f => Scalar.smaller v (f.position.y - f.height)) bounds.height * count
    some (total / count)

/-- The place of a nonempty group. -/
def anchorPoint (group : List (Footprint α)) (anchor : Anchor) (bounds : Bounds α) (reach : α) :
    Option (Point α) := do
  let x ← anchorX group anchor.x bounds reach
  let y ← anchorY group anchor.y bounds
  return ⟨x, y⟩

end Places

end BattleScript
