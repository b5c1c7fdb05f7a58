import BattleScript.Opcode.Effect

/-!
# Running effect commands

A command aimed at several battlers works on one after the other, in the order of the targets and
as often as each occurs. Places without a battler are passed over. Results are shown only on
request; if one was shown for an actor, or a buff or state of an actor was touched, the status is
shown anew once at the end.
-/

namespace BattleScript

namespace EffectOp

/-- The battle with a change to one battler, and whether the status has to be shown anew. -/
abbrev Progress := Battle × Bool

/-- What a change does to the buff of a battler, and how that is told; nothing if it does not
apply. -/
def applyBuff (change : BuffChange) (p : Param) (turns : Nat) (x : Battler) :
    Option (String × Battler) :=
  match change with
  | .raise => if x.isDead then none else some ("went up", x.addBuff p turns)
  | .lower => if x.isDead then none else some ("went down", x.addDebuff p turns)
  | .endBuff => if x.isBuffed p then some ("returned to normal", x.removeBuff p) else none
  | .endDebuff => if x.isDebuffed p then some ("returned to normal", x.removeBuff p) else none

/-- Changes a buff of one battler. -/
def buffOne (change : BuffChange) (p : Param) (turns : Nat) (report : Bool) (acc : Progress)
    (id : BattlerId) : Progress :=
  match (acc.1.roster.get? id).bind (applyBuff change p turns) with
  | none => acc
  | some (told, x) =>
    let b := acc.1.withBattler id x
    let b := if report then b.showResult id (x.name ++ "'s " ++ p.label ++ " " ++ told) else b
    (b, acc.2 || id.isActor)

/-- What adding or removing a state does to a battler, and how that is told. A state that was to be
added is told of even if the battler did not get it; one that was not there is not told of. -/
def applyState (add : Bool) (s : Nat) (x : Battler) : Option (String × Battler) :=
  if add then some (x.name ++ " is affected by state " ++ toString s, (x.addState s).2)
  else
    let (removed, y) := x.removeState s
    if removed then some (x.name ++ " is no longer affected by state " ++ toString s, y) else none

/-- Adds a state to one battler, or removes it. -/
def stateOne (add : Bool) (report : Bool) (id : BattlerId) (acc : Progress) (s : Nat) : Progress :=
  match (acc.1.roster.get? id).bind (applyState add s) with
  | none => acc
  | some (told, x) =>
    let b := acc.1.withBattler id x
    let b := if report then b.showResult id told else b
    (b, acc.2 || id.isActor)

/-- How the change of a pool is told. -/
def poolMessage (name : String) (p : Pool) (change : Int) : String :=
  if change = 0 then name ++ " was not affected"
  else if 0 < change then name ++ " recovered " ++ toString change ++ " " ++ p.label
  else if p = .hp then name ++ " took " ++ toString (-change) ++ " damage"
  else name ++ " lost " ++ toString (-change) ++ " " ++ p.label

/-- Notes that a pool cannot be kept below a negative maximum. -/
def noteBreach (b : Battle) (id : BattlerId) (p : Pool) (x : Battler) : Battle :=
  if x.maxPool p < 0 ∧ b.breach.isNone then { b with breach := some (.negativeMaximum id p) } else b

/-- Changes a pool of one battler. -/
def poolOne (p : Pool) (amount : Amount) (report : Bool) (acc : Progress) (id : BattlerId) :
    Progress :=
  match acc.1.roster.get? id with
  | none => acc
  | some x =>
    let b := noteBreach acc.1 id p x
    let y := x.gain p (amount.resolve b.variables.get (x.maxPool p))
    let b := b.withBattler id y
    if report then
      let b := b.request (.damagePopup id)
      let b := b.showResult id (poolMessage y.name p (y.pool p - x.pool p))
      (b, acc.2 || id.isActor)
    else (b, acc.2)

/-- Lets one battler collapse if it is dead; by force it dies first. -/
def collapseOne (force : Bool) (b : Battle) (id : BattlerId) : Battle :=
  match b.roster.get? id with
  | none => b
  | some x =>
    let y := if force then ((x.setImmortal false).addState x.deathState).2 else x
    if y.isDead then
      let (shown, z) := y.markCollapsed
      let b := b.withBattler id z
      if shown then b.request (.collapse id) else b
    else b.withBattler id y

/-- The switches with one of them changed. A copy takes the value that its source had at first. -/
def switchOne (change : SwitchChange) (atFirst s : Switches) (id : Nat) : Switches :=
  match change with
  | .set on => s.set id on
  | .toggle => s.set id (!s.get id)
  | .copyFrom source => s.set id (atFirst.get source)

/-- Tells a channel its cue. -/
def playCue (channel : Channel) (cue : Cue) (b : Battle) : Battle :=
  match cue with
  | .stop => { b with mixer := b.mixer.stop channel }
  | .memorize =>
    { b with memorized := match b.mixer.current channel with
        | some track => b.memorized.insert channel track
        | none => b.memorized.erase channel }
  | .replay =>
    match b.memorized.find? channel with
    | some track => { b with mixer := b.mixer.replay channel track }
    | none => b
  | .system sound => { b with mixer := b.mixer.system sound }
  | .play name volume pitch pan =>
    let track : Track := {
      name := name
      volume := volume.getD b.settings.defaultVolume
      pitch := pitch.getD b.settings.defaultPitch
      pan := pan.getD b.settings.defaultPan }
    { b with mixer := b.mixer.play channel track }

/-- The battle after work on several battlers. -/
def settleProgress (p : Progress) : Battle := p.1.refreshStatus p.2

/-- Runs an effect command. -/
def run (op : EffectOp) (c : ActionContext) (b : Battle) : Signal × Battle :=
  match op with
  | .buff change param target turns report =>
    let group := b.targets c target
    if group.isEmpty then (.yield, b)
    else match param with
      | none => (.proceed, b)
      | some p =>
        (.proceed, settleProgress (group.foldl (buffOne change p turns report) (b, false)))
  | .state add states target report =>
    let group := b.targets c target
    if group.isEmpty then (.yield, b)
    else (.proceed, settleProgress
      (group.foldl (fun acc id => states.foldl (stateOne add report id) acc) (b, false)))
  | .animation animationId target mirror =>
    if animationId = 0 then (.proceed, b)
    else
      let group := b.targets c target
      if group.isEmpty then (.yield, b)
      else (.proceed, b.request (.animation group animationId mirror))
  | .audio channel cue => (.proceed, (cue.map (playCue channel · b)).getD b)
  | .collapse target force => (.yield, (b.targets c target).foldl (collapseOne force) b)
  | .commonEvent id =>
    match id with
    | some n => (.yield, if 0 < n then { b with commonEvents := b.commonEvents.push n } else b)
    | none => (.yield, b)
  | .switches first last change =>
    match change with
    | none => (.proceed, b)
    | some change =>
      (.proceed, { b with
        switches := (List.range' first (last + 1 - first)).foldl
          (switchOne change b.switches) b.switches })
  | .assign id operator operand =>
    let y := match operand with
      | .literal n => n
      | .stored source => b.variables.get source
    match operator.bind (·.apply (b.variables.get id) y) with
    | some x => (.proceed, { b with «variables» := b.variables.set id x })
    | none => (.proceed, b)
  | .gainItem kind id amount =>
    (.proceed, { b with inventory := b.inventory.gainItem kind id amount })
  | .gold amount => (.proceed, { b with inventory := b.inventory.gainGold amount })
  | .pool p amount target report =>
    let group := b.targets c target
    if group.isEmpty then (.yield, b)
    else match amount with
      | none => (.yield, b)
      | some a => (.proceed, settleProgress (group.foldl (poolOne p a report) (b, false)))
  | .refreshStatus => (.yield, b.request .refreshStatus)

/-- The pack of the effect commands. -/
def pack : Pack := .ofInstructions "effects" ofCommand? fun op c b => some (op.run c b)

end EffectOp

end BattleScript
