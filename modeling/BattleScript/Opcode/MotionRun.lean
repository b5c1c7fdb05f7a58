import BattleScript.Opcode.Motion

/-!
# Running motion commands

Motion commands change nothing but the stage. A deed whose movers are nobody is declined, as if no
pack knew the command; sprites only move where the settings have a side view.
-/

namespace BattleScript

namespace MotionOp

/-- The middle of the ground that a group covers. -/
def averagePosition (target : String) (c : ActionContext) (b : Battle) : Option (Point Float) :=
  let footprints := b.groundFootprints (b.targets c (some target))
  if footprints.isEmpty then none
  else some ((Point.sum (footprints.map (·.position))).divBy (Float.ofNat footprints.length))

/-- Has every mover look somewhere. -/
def faceAll (movers : List BattlerId) (facing : Facing Float) (b : Battle) : Battle :=
  b.requests (movers.map (.face · facing))

/-- Has movers look where they are told. -/
def face (movers : List BattlerId) (goal : FaceTo) (c : ActionContext) (b : Battle) :
    Signal × Battle :=
  match goal with
  | .known facing => (.yield, faceAll movers facing b)
  | .group target away =>
    match averagePosition target c b with
    | some p => (.yield, faceAll movers (if away then .awayFrom p else .toward p) b)
    | none => (.yield, b)
  | .nothing => (.proceed, b)

/-- Lifts every mover that has a sprite, by the given kind of request. -/
def lift (movers : List BattlerId) (l : Lift) (ask : BattlerId → Float → StageRequest Float)
    (b : Battle) : Battle :=
  if b.settings.sideView then
    b.requests (movers.filterMap fun id =>
      (b.stage.sprite? id).map fun s => ask id (l.height s.spec.height))
  else b

/-- How far the near edges of the movers lie from their positions, taken together: a mover that
cannot be moved does not count. -/
def reach (movers : List BattlerId) (b : Battle) : Float :=
  Scalar.sum (movers.filterMap fun id => (b.stage.sprite? id).bind fun s =>
    if s.spec.canMove then some (if id.isActor then s.spec.width / 2 else -s.spec.width / 2)
    else none)

/-- A way to go: where to, in how many frames, by what motion and looking where. -/
structure Journey where
  destination : Destination Float
  frames : Nat
  motion : Option Motion
  facing : Facing Float

/-- Sends every mover on a journey. -/
def Journey.begin (j : Journey) (movers : List BattlerId) (b : Battle) : Battle :=
  b.requests (movers.flatMap fun id =>
    [.move id j.destination j.frames] ++ (j.motion.map (.motion id)).toList ++ [.face id j.facing])

/-- The journey to a place of a group; none if the group covers no ground or the place is unknown.
The movers stop with their near edges at the group. -/
def journeyToAnchor (movers : List BattlerId) (target : String) (anchor : Option Anchor)
    (frames : Nat) (c : ActionContext) (b : Battle) : Option Journey := do
  let footprints := b.groundFootprints (b.targets c (some target))
  let p ← anchorPoint footprints (← anchor) b.settings.bounds (reach movers b)
  return ⟨.point p, frames, none, .toward p⟩

/-- Moves movers where they are told. -/
def move (movers : List BattlerId) (goal : MoveTo) (c : ActionContext) (b : Battle) :
    Signal × Battle :=
  match goal with
  | .home frames => (.proceed, Journey.begin ⟨.home, frames, some .walk, .home⟩ movers b)
  | .return frames => (.proceed, Journey.begin ⟨.home, frames, some .evade, .forward⟩ movers b)
  | .step distance backward frames =>
    let d := distance.getD b.settings.stepDistance
    let j : Journey := if backward then ⟨.forward (-d), frames, some .walk, .backward⟩
      else ⟨.forward d, frames, some .walk, .forward⟩
    (.proceed, j.begin movers b)
  | .point p frames =>
    (.proceed, Journey.begin ⟨.point p, frames, some .walk, .toward p⟩ movers b)
  | .anchor target anchor frames =>
    match journeyToAnchor movers target anchor frames c b with
    | some j => (.proceed, j.begin movers b)
    | none => (.yield, b)
  | .nowhere => (.proceed, b)

/-- Has movers do a deed. -/
def runDeed (movers : List BattlerId) (d : Deed) (c : ActionContext) (b : Battle) :
    Signal × Battle :=
  match d with
  | .face goal => face movers goal c b
  | .float l frames => (.yield, lift movers l (.float · · frames) b)
  | .jump l frames => (.proceed, lift movers l (.jump · · frames) b)
  | .move goal => if b.settings.sideView then move movers goal c b else (.proceed, b)
  | .opacity none _ => (.yield, b)
  | .opacity (some x) frames => (.yield, b.requests (movers.map (.opacity · x frames)))

/-- Has a group make a motion; to attack is more than a motion, and an unknown one is waiting. -/
def makeMotion (keyword : String) (group : List BattlerId) (b : Battle) : Signal × Battle :=
  if group.isEmpty then (.proceed, b)
  else if keyword = "ATTACK" then (.yield, b.requests (group.map .performAttack))
  else (.yield, b.requests (group.map (.motion · ((Motion.ofKeyword? keyword).getD .wait))))

/-- Runs a motion command; nothing if it is declined. -/
def run? (op : MotionOp) (c : ActionContext) (b : Battle) : Option (Signal × Battle) :=
  match op with
  | .attackAnimation target mirror =>
    let group := distinct (b.targets c target)
    some (.proceed, if group.isEmpty then b
      else b.request (.attackAnimation c.subject group (mirror && c.subject.isActor)))
  | .enemyEffect target effect =>
    some (.proceed, match effect with
      | some e => b.requests (((b.targets c target).filter (·.isEnemy)).map (.effect · e))
      | none => b)
  | .fade f frames => some (.yield, b.request (.fade f frames))
  | .flash color frames => some (.yield, b.request (.flash color frames))
  | .battleHud visible => some (.yield, b.request (.battleHud visible))
  | .motion keyword target => some (makeMotion keyword (b.targets c target) b)
  | .shake power speed frames => some (.yield, b.request (.shake power speed frames))
  | .tint tone frames => some (.yield, b.request (.tint tone frames))
  | .waitFor w => some (.wait w, b)
  | .deed movers d =>
    let movers := b.targets c (some movers)
    if movers.isEmpty then none else some (runDeed movers d c b)

/-- The pack of the motion commands. -/
def pack : Pack := .ofInstructions "motion" ofCommand? run?

end MotionOp

end BattleScript
