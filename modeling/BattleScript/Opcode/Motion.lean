import BattleScript.Opcode.Camera

/-!
# Motion commands

Commands that move and show battlers and the screen. This module reads them; `Opcode.MotionRun` runs
them.

Five kinds of commands name who moves in their name, as in `MOVE user: home`: facing, floating,
jumping, moving and fading. Such a `Deed` is done by the movers together.
-/

namespace BattleScript

/-- How high a battler is lifted: in its own heights and in pixels. -/
structure Lift where
  peak : Float
  pixels : Float
  deriving Repr

/-- Reads a lift: a percentage of the battler's height, or pixels; anything else is its height. -/
def Lift.ofArgument (arg : Option String) : Lift :=
  let s := arg.getD ""
  match Operand.percent? s with
  | some x => ⟨x * 0.01, 0⟩
  | none =>
    match Operand.int? s with
    | some n => ⟨0, Float.ofInt n⟩
    | none => ⟨1, 0⟩

/-- The lift of a sprite of the given height, in its own heights. -/
def Lift.height (l : Lift) (spriteHeight : Float) : Float :=
  l.peak + l.pixels / Scalar.largerFloat spriteHeight 1

/-- What movers are told to look at. -/
inductive FaceTo
  | known (facing : Facing Float)
  /-- The middle of a group, or away from it. -/
  | group (target : String) (away : Bool)
  | nothing
  deriving Repr

/-- Where movers are told to go. -/
inductive MoveTo
  | home (frames : Nat)
  | return (frames : Nat)
  | step (distance : Option Float) (backward : Bool) (frames : Nat)
  | point (p : Point Float) (frames : Nat)
  | anchor (target : String) (anchor : Option Anchor) (frames : Nat)
  | nowhere
  deriving Repr

/-- What movers are told to do. -/
inductive Deed
  | face (facing : FaceTo)
  | float (lift : Lift) (frames : Nat)
  | jump (lift : Lift) (frames : Nat)
  | move (goal : MoveTo)
  | opacity (opacity : Option UInt8) (frames : Nat)
  deriving Repr

/-- A motion command. -/
inductive MotionOp
  | attackAnimation (target : Option String) (mirror : Bool)
  | enemyEffect (target : Option String) (effect : Option SpriteEffect)
  | fade (fade : Fade) (frames : Nat)
  | flash (color : Tone) (frames : Nat)
  | battleHud (visible : Bool)
  | motion (keyword : String) (target : Option String)
  | shake (power speed : Int) (frames : Nat)
  | tint (tone : Tone) (frames : Nat)
  | waitFor (w : Wait)
  | deed (movers : String) (deed : Deed)
  deriving Repr

/-- The tone whose channels are the first four arguments; one that is no number is zero. -/
def Command.tone (c : Command) : Tone :=
  let channel i := ((c.arg i).bind Operand.int?).getD 0
  ⟨channel 0, channel 1, channel 2, channel 3⟩

/-- The tone of an argument in a table of words, or the one that is given by numbers, and the frames
after it. -/
def Command.toneOf (c : Command) (known : String → Option Tone) : Tone × Nat :=
  match (c.argUpper 0).bind known with
  | some tone => (tone, Operand.framesOr (c.arg 1) 60)
  | none => (c.tone, Operand.framesOr (c.arg 4) 60)

/-- The colours of a flash. -/
def Tone.color? : String → Option Tone
  | "WHITE" => some ⟨255, 255, 255, 255⟩
  | "RED" => some ⟨255, 0, 0, 255⟩
  | "ORANGE" => some ⟨255, 128, 0, 255⟩
  | "YELLOW" => some ⟨255, 255, 0, 255⟩
  | "GREEN" => some ⟨0, 255, 0, 255⟩
  | "BLUE" => some ⟨0, 128, 255, 255⟩
  | "PURPLE" => some ⟨128, 64, 255, 255⟩
  | "MAGENTA" => some ⟨255, 0, 255, 255⟩
  | "BLACK" => some ⟨0, 0, 0, 255⟩
  | _ => none

/-- The tones of a tint. -/
def Tone.tint? : String → Option Tone
  | "NORMAL" => some ⟨0, 0, 0, 0⟩
  | "DARK" => some ⟨-68, -68, -68, 0⟩
  | "SEPIA" => some ⟨34, -34, -68, 170⟩
  | "SUNSET" => some ⟨68, -34, -34, 0⟩
  | "NIGHT" => some ⟨68, -68, 0, 68⟩
  | _ => none

/-- Reads what to look at. -/
def FaceTo.ofCommand (c : Command) : FaceTo :=
  match c.argUpper 0 with
  | none => .nothing
  | some words =>
    match words with
    | "FORWARD" | "NORMAL" => .known .forward
    | "BACKWARD" | "MIRROR" => .known .backward
    | "HOME" | "ORIGIN" => .known .home
    | "AWAY FROM HOME" | "AWAY FROM ORIGIN" => .known .awayFromHome
    | words =>
      if words ∈ pointWords then .known (.toward (c.point 1))
      else match Text.afterExact "AWAY FROM ".toList words.toList with
        | some rest =>
          if String.ofList rest ∈ pointWords then .known (.awayFrom (c.point 1))
          else .group (String.ofList rest) true
        | none => .group words false

/-- Reads where to go. -/
def MoveTo.ofCommand (c : Command) : MoveTo :=
  let step backward :=
    .step ((c.arg 1).bind Operand.decimal?) backward (Operand.framesOr (c.arg 2) 12)
  match c.argUpper 0 with
  | none => .nowhere
  | some words =>
    match words with
    | "HOME" | "ORIGIN" => .home (Operand.framesOr (c.arg 1) 12)
    | "RETURN" => .return (Operand.framesOr (c.arg 1) 12)
    | "FORWARD" | "FORWARDS" => step false
    | "BACKWARD" | "BACKWARDS" => step true
    | words =>
      if words ∈ pointWords then .point (c.point 1) (Operand.framesOr (c.arg 3) 12)
      else .anchor words ((c.arg 1).bind Anchor.ofKeyword?) (Operand.framesOr (c.arg 2) 12)

/-- Reads an opacity: a percentage of the full one, or a number; both are cut to a byte. -/
def opacityOf? (s : String) : Option UInt8 :=
  match Operand.percent? s with
  | some x => some (x * 0.01 * 255).toUInt8
  | none => (Operand.int? s).map fun n => UInt8.ofNat (clampTo 0 255 n).toNat

namespace MotionOp

/-- The effect that an argument names. -/
def effect? : String → Option SpriteEffect
  | "WHITEN" => some .whiten
  | "BLINK" => some .blink
  | _ => none

/-- The deed that the first word of a name means. -/
def deed? (c : Command) : String → Option Deed
  | "FACE" => some (.face (.ofCommand c))
  | "FLOAT" => some (.float (.ofArgument (c.arg 0)) (Operand.framesOr (c.arg 1) 12))
  | "JUMP" => some (.jump (.ofArgument (c.arg 0)) (Operand.framesOr (c.arg 1) 12))
  | "MOVE" => some (.move (.ofCommand c))
  | "OPACITY" => some (.opacity ((c.arg 0).bind opacityOf?) (Operand.framesOr (c.arg 1) 12))
  | _ => none

/-- Reads a command whose name is a fixed phrase. -/
def phrase? (c : Command) : Option MotionOp :=
  let number i otherwise := ((c.arg i).bind Operand.int?).getD otherwise
  match c.words with
  | ["ATTACK", "ANIMATION"] => some (.attackAnimation (c.arg 0) (c.argIs 1 "MIRROR"))
  | ["ENEMY", "EFFECT"] => some (.enemyEffect (c.arg 0) ((c.argUpper 1).bind effect?))
  | ["FADE", "IN"] => some (.fade .fadeIn (Operand.framesOr (c.arg 0) 60))
  | ["FADE", "OUT"] => some (.fade .fadeOut (Operand.framesOr (c.arg 0) 60))
  | ["FLASH", "SCREEN"] => some (.flash (c.toneOf Tone.color?).1 (c.toneOf Tone.color?).2)
  | ["HIDE", "BATTLE", "HUD"] => some (.battleHud false)
  | ["SHOW", "BATTLE", "HUD"] => some (.battleHud true)
  | ["SHAKE", "SCREEN"] =>
    some (.shake (number 0 5) (number 1 5) (Operand.framesOr (c.arg 2) 60))
  | ["TINT", "SCREEN"] => some (.tint (c.toneOf Tone.tint?).1 (c.toneOf Tone.tint?).2)
  | ["WAIT", "FOR", "FLOAT"] => some (.waitFor .float)
  | ["WAIT", "FOR", "JUMP"] => some (.waitFor .jump)
  | ["WAIT", "FOR", "OPACITY"] => some (.waitFor .opacity)
  | _ => none

/-- Reads a command whose name has an operand: a motion, or who moves. `MOTION WAIT` is a wait and
not the motion of waiting. -/
def named? (c : Command) : Option MotionOp :=
  match c.words with
  | ["MOTION", "WAIT"] => none
  | first :: second :: rest =>
    let operand := " ".intercalate (second :: rest)
    if first = "MOTION" then some (.motion operand (c.arg 0))
    else (deed? c first).map (.deed operand)
  | _ => none

/-- Reads a motion command. -/
def ofCommand? (c : Command) : Option MotionOp := phrase? c <|> named? c

end MotionOp

end BattleScript
