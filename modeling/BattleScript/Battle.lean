import BattleScript.Action.Context
import BattleScript.Battler.Roster
import BattleScript.Camera
import BattleScript.Cooldown.Ledger
import BattleScript.Sound.Basic
import BattleScript.Stage.Basic
import BattleScript.Store
import BattleScript.Target.Resolve

/-!
# Battles

A battle is everything that actions read and change: the rules, the battlers, the database, the
stores, the camera, the cooldowns, and the stage and the mixer that show it.

A rule of the game may be impossible to apply: a pool cannot be kept between zero and a negative
maximum. Such a breach is kept in the battle, as the ledger keeps that a counter left its range;
from then on the battle has no meaning (`isSound`).
-/

namespace BattleScript

/-- A rule that could not be applied. -/
inductive Breach
  /-- A pool was to be kept between zero and a negative maximum. -/
  | negativeMaximum (battler : BattlerId) (pool : Pool)
  deriving DecidableEq, Repr

/-- The state of a battle. -/
structure Battle where
  settings : Settings
  roster : Roster
  database : Database
  switches : Switches := {}
  «variables» : Variables := {}
  inventory : Inventory := {}
  camera : Camera Float
  cooldowns : Ledger := {}
  /-- The common events that were reserved. -/
  commonEvents : Array Nat := #[]
  /-- The tracks kept to be played again. -/
  memorized : OrderedMap Channel Track := ∅
  stage : Stage Float
  mixer : Mixer := {}
  /-- The frames so far. -/
  frame : Nat := 0
  /-- The steps taken so far, as an unsigned 32-bit number. -/
  steps : Nat := 0
  /-- The first rule that could not be applied. -/
  breach : Option Breach := none
  deriving Repr

namespace Battle

/-- Whether every rule could be applied so far, and every counter moved on. -/
def isSound (b : Battle) : Bool := b.breach.isNone && !b.cooldowns.overflow

/-- A battle by the rules of its settings. -/
def ofRoster (settings : Settings) (roster : Roster) (database : Database) (stage : Stage Float) :
    Battle where
  settings := settings
  roster := roster.withRules settings.deathState settings.maxTp
  database := database
  camera := .ofBounds settings.bounds
  stage := stage

/-- The skills of a battler that are in the database. -/
def knownSkills (b : Battle) (id : BattlerId) : List Usable :=
  ((b.roster.get? id).map fun x => x.skills.filterMap b.database.skill?).getD []

/-- Sends the camera back to the centre of the field and to its natural scale. -/
def restoreCamera (b : Battle) (panFrames zoomFrames : Nat) : Battle :=
  { b with camera := (b.camera.reset b.settings.bounds panFrames).startZoom 1 zoomFrames }

/-- Begins the battle: the camera at rest, the warmups running. -/
def start (b : Battle) : Battle :=
  let b := b.restoreCamera 0 1
  { b with
    cooldowns := b.roster.all.foldl
      (fun l id => l.startWarmups b.settings id (b.knownSkills id)) b.cooldowns }

/-- The footprints of those of a group who have a sprite, where `place` says they are. -/
def footprints (b : Battle) (place : Sprite Float → Point Float) (group : List BattlerId) :
    List (Footprint Float) :=
  group.filterMap fun id => (b.stage.sprite? id).map fun s =>
    ⟨id.side, place s, s.spec.width, s.spec.height⟩

/-- The footprints of a group as the camera sees them, raised by floats and jumps. -/
def cameraFootprints (b : Battle) (group : List BattlerId) : List (Footprint Float) :=
  b.footprints Sprite.liftedPosition group

/-- The footprints of a group on the ground. -/
def groundFootprints (b : Battle) (group : List BattlerId) : List (Footprint Float) :=
  b.footprints Sprite.position group

/-- One frame: the stage moves on, and the camera follows it. -/
def advance (b : Battle) : Battle :=
  let b := { b with frame := b.frame + 1, stage := b.stage.advance }
  let group := b.cameraFootprints b.camera.focus
  let point := b.camera.focusPoint group b.settings.bounds
  { b with camera := b.camera.advance (b.camera.target point) }

/-- Ends a turn for everybody. -/
def endTurn (b : Battle) : Battle :=
  b.roster.all.foldl (fun b id =>
    { b with
      cooldowns := b.cooldowns.updateTurn id
      roster := b.roster.modify id Battler.updateBuffTurns }) b

/-- Ends the battle for the party. -/
def finish (b : Battle) : Battle :=
  { b with
    cooldowns := (b.roster.members .actor).foldl
      (fun l id => l.endBattle b.settings b.database id) b.cooldowns }

/-- Takes a step. -/
def takeStep (b : Battle) : Battle :=
  let steps := (b.steps + 1) % 4294967296
  { b with
    steps := steps
    cooldowns := (b.roster.members .actor).foldl
      (fun l id => l.updateSteps b.settings b.database id steps) b.cooldowns }

/-- Takes several steps. -/
def takeSteps (b : Battle) (count : Nat) : Battle := count.repeat takeStep b

/-- Charges a battler for using an item; only skills cost anything. -/
def payCooldowns (b : Battle) (id : BattlerId) : ItemRef → Battle
  | .item _ => b
  | .skill skill =>
    match b.database.skill? skill with
    | some used =>
      { b with cooldowns := b.cooldowns.pay b.settings b.database id used (b.knownSkills id) }
    | none => b

/-- Only the cooldowns are charged. -/
theorem exists_payCooldowns_eq (b : Battle) (id : BattlerId) (item : ItemRef) :
    ∃ l, b.payCooldowns id item = { b with cooldowns := l } := by
  unfold payCooldowns
  repeat' split
  all_goals exact ⟨_, rfl⟩

/-- Lets the cooldown changes of an item take effect on a battler. -/
def applyCooldownChanges (b : Battle) (id : BattlerId) (item : ItemRef) : Battle :=
  match b.database.find? item with
  | some source =>
    { b with
      cooldowns := b.cooldowns.applyChanges b.settings b.database id source (b.knownSkills id) }
  | none => b

/-- The places that a text means. -/
def targets (b : Battle) (c : ActionContext) (text : Option String) : List BattlerId :=
  resolveTargets text c b.roster

/-- Asks the stage for something. -/
def request (b : Battle) (r : StageRequest Float) : Battle := { b with stage := b.stage.request r }

/-- Asks the stage for several things in turn. -/
def requests (b : Battle) (rs : List (StageRequest Float)) : Battle := rs.foldl request b

/-- Shows a result in the log. -/
def showResult (b : Battle) (id : BattlerId) (message : String) : Battle :=
  b.request (.displayResults id message)

/-- Has the status shown anew, if it may have changed for an actor. -/
def refreshStatus (b : Battle) (refresh : Bool) : Battle :=
  if refresh then b.request .refreshStatus else b

/-- Replaces the battler at a place. -/
def withBattler (b : Battle) (id : BattlerId) (x : Battler) : Battle :=
  { b with roster := b.roster.modify id fun _ => x }

end Battle

end BattleScript
