import BattleScript.Action.Pack
import BattleScript.Script.Operand

/-!
# Control commands

The commands that every action is made of: waits, the announcement and performance of the user, the
animation and effect of what is used, immortality, and the break when the user has fallen.
-/

namespace BattleScript

/-- A control command. -/
inductive ControlOp
  | wait (frames : Nat)
  | waitFor (w : Wait)
  | motionWait (target : Option String)
  | deathBreak
  | displayAction
  | clearBattleLog
  | perform (performance : Performance)
  | castAnimation
  | actionAnimation (target : Option String) (mirror : Bool)
  | actionEffect (target : Option String)
  | immortal (target : Option String) (immortal : Bool)
  deriving DecidableEq, Repr

namespace ControlOp

/-- Reads a control command. -/
def ofCommand? (c : Command) : Option ControlOp :=
  match c.words with
  | ["WAIT"] => some (.wait (((c.arg 0).bind Operand.int?).getD 0).toNat)
  | ["WAIT", "FOR", "ANIMATION"] => some (.waitFor .animation)
  | ["WAIT", "FOR", "EFFECT"] => some (.waitFor .effect)
  | ["WAIT", "FOR", "MOVEMENT"] => some (.waitFor .movement)
  | ["WAIT", "FOR", "NEW", "LINE"] => some (.waitFor .newLine)
  | ["WAIT", "FOR", "POPUPS"] => some (.waitFor .popups)
  | ["MOTION", "WAIT"] => some (.motionWait (c.arg 0))
  | ["DEATH", "BREAK"] => some .deathBreak
  | ["DISPLAY", "ACTION"] => some .displayAction
  | ["CLEAR", "BATTLE", "LOG"] => some .clearBattleLog
  | ["PERFORM", "START"] => some (.perform .start)
  | ["PERFORM", "ACTION"] => some (.perform .action)
  | ["PERFORM", "FINISH"] => some (.perform .finish)
  | ["CAST", "ANIMATION"] => some .castAnimation
  | ["ACTION", "ANIMATION"] => some (.actionAnimation (c.arg 0) (c.argIs 1 "MIRROR"))
  | ["ACTION", "EFFECT"] => some (.actionEffect (c.arg 0))
  | ["IMMORTAL"] => some (.immortal (c.arg 0) (((c.arg 1).bind Operand.bool?).getD false))
  | _ => none

/-- The battlers that a target argument means; without one, the targets of the action. -/
def targetsOr (c : ActionContext) (b : Battle) : Option String → List BattlerId
  | some target => b.targets c (some target)
  | none => c.targets

/-- Whether the user is missing, dead or without HP. -/
def hasFallen (c : ActionContext) (b : Battle) : Bool :=
  match b.roster.get? c.subject with
  | some x => x.isDead || x.hp ≤ 0
  | none => true

/-- Makes a battler immortal or mortal. One that dies of it collapses. -/
def setImmortal (immortal : Bool) (b : Battle) (id : BattlerId) : Battle :=
  match b.roster.get? id with
  | none => b
  | some x =>
    let y := x.setImmortal immortal
    if !x.isDead && y.isDead then
      let (shown, z) := y.markCollapsed
      let b := b.withBattler id z
      if shown then b.request (.collapse id) else b
    else b.withBattler id y

/-- Shows the effect of what is used on a target, and lets its cooldown changes take effect. -/
def strike (c : ActionContext) (b : Battle) (id : BattlerId) : Battle :=
  (b.request (.actionEffect c.subject id c.item)).applyCooldownChanges id c.item

/-- Runs a control command. -/
def run (op : ControlOp) (c : ActionContext) (b : Battle) : Signal × Battle :=
  match op with
  | .wait n => (.wait (.frames n), b)
  | .waitFor w => (.wait w, b)
  | .motionWait target =>
    let group := b.targets c target
    if group.isEmpty then (.proceed, b) else (.wait (.motion group), b)
  | .deathBreak => if hasFallen c b then (.abort, b) else (.proceed, b)
  | .displayAction => (.proceed, b.request (.displayAction c.subject c.item))
  | .clearBattleLog => (.proceed, b.request .clearLog)
  | .perform .start => (.proceed, b.request (.perform c.subject .start))
  | .perform .action => (.yield, b.request (.perform c.subject .action))
  | .perform .finish =>
    let b := b.request (.perform c.subject .finish)
    (.proceed, if b.settings.sideView then b.restoreCamera 30 30 else b)
  | .castAnimation =>
    match c.item with
    | .skill _ => (.proceed, b.request (.castAnimation c.subject c.item))
    | .item _ => (.proceed, b)
  | .actionAnimation target mirror =>
    let group := targetsOr c b target
    let animation := ((b.database.find? c.item).map (·.animationId)).getD 0
    if group.isEmpty || animation == 0 then (.proceed, b)
    else (.proceed, b.request (.animation (distinct group) animation mirror))
  | .actionEffect target => (.proceed, (targetsOr c b target).foldl (strike c) b)
  | .immortal target on => (.proceed, (b.targets c target).foldl (setImmortal on) b)

/-- The pack of the control commands. -/
def pack : Pack := .ofInstructions "core" ofCommand? fun op c b => some (op.run c b)

end ControlOp

end BattleScript
