import BattleScript.Action.Runner
import BattleScript.Opcode.Standard

/-!
# Scenarios

A scenario describes a battle at the moment when one action begins: the rules, the battlers with
their sprites, the database, the stores, and who uses what on whom. `build?` makes the battle and
the runner of the action; `play?` plays the action to its end and then lets the aftermath happen.
-/

namespace BattleScript

/-- A battler as it is described. -/
structure BattlerSpec where
  name : String
  dataId : Nat := 0
  mhp : Int
  mmp : Int := 0
  /-- The HP at the start, or all of them. -/
  hp : Option Int := none
  /-- The MP at the start, or all of them. -/
  mp : Option Int := none
  tp : Int := 0
  states : List Nat := []
  skills : List Nat := []
  sprite : Option (SpriteSpec Float) := none
  deriving Repr

/-- The battler that is described. Its states are given to it one after the other, so that they obey
the rules for states. -/
def BattlerSpec.build (s : BattlerSpec) : Battler :=
  let fresh := Battler.fresh s.name s.dataId s.mhp s.mmp
  let b := { fresh with
    hp := (s.hp.map (clampTo 0 fresh.mhp)).getD fresh.hp
    mp := (s.mp.map (clampTo 0 fresh.mmp)).getD fresh.mp
    tp := max s.tp 0
    skills := s.skills }
  s.states.foldl (fun b state => (b.addState state).2) b

/-- A skill or item as it is described. -/
structure ItemSpec where
  id : Nat
  name : String
  stypeId : Nat := 0
  animationId : Nat := 0
  note : String := ""
  deriving Repr

/-- The skill or item that is described. -/
def ItemSpec.build (s : ItemSpec) : Usable := .ofNote s.id s.name s.stypeId s.animationId s.note

/-- What happens after the action. -/
structure Aftermath where
  endTurn : Bool := false
  endBattle : Bool := false
  /-- The steps that the party takes. -/
  steps : Nat := 0
  deriving DecidableEq, Repr

/-- A battle and an action in it. -/
structure Scenario where
  settings : Settings := {}
  timings : Timings := {}
  party : List BattlerSpec := []
  troop : List BattlerSpec := []
  skills : List ItemSpec := []
  items : List ItemSpec := []
  switches : Switches := {}
  «variables» : Variables := {}
  inventory : Inventory := {}
  subject : BattlerId
  targets : List BattlerId := []
  item : ItemRef
  aftermath : Aftermath := {}
  deriving Repr

/-- Why no battle can be built. -/
inductive LoadError
  /-- The user is not among the battlers. -/
  | unknownSubject (subject : BattlerId)
  /-- What is used is not in the database. -/
  | unknownItem (item : ItemRef)
  deriving DecidableEq, Repr

/-- How the error is told. -/
def LoadError.message : LoadError → String
  | .unknownSubject subject => "subject " ++ subject.label ++ " is not in the battle"
  | .unknownItem item => item.label ++ " is not in the database"

/-- The battle after an aftermath: the turn ends before the battle, and the steps come last. -/
def Battle.conclude (b : Battle) (a : Aftermath) : Battle :=
  let b := if a.endTurn then b.endTurn else b
  let b := if a.endBattle then b.finish else b
  b.takeSteps a.steps

/-- The database of descriptions. -/
def Database.ofSpecs (skills items : List ItemSpec) : Database :=
  let d := skills.foldl (fun d s => d.insertSkill s.build) {}
  items.foldl (fun d s => d.insertItem s.build) d

namespace Scenario

/-- The database of the scenario. -/
def database (s : Scenario) : Database := .ofSpecs s.skills s.items

/-- The battlers of the scenario, before the rules of its settings apply to them. -/
def roster (s : Scenario) : Roster := ⟨s.party.map BattlerSpec.build, s.troop.map BattlerSpec.build⟩

/-- The stage with the sprites of one side. -/
def placeSprites (side : Side) (specs : List BattlerSpec) (st : Stage Float) : Stage Float :=
  specs.zipIdx.foldl (fun st (spec, i) =>
    match spec.sprite with
    | some sprite => st.addSprite (.on side i) sprite
    | none => st) st

/-- The stage with all sprites. -/
def stage (s : Scenario) : Stage Float :=
  placeSprites .enemy s.troop (placeSprites .actor s.party { timings := s.timings })

/-- The context of the action. -/
def context (s : Scenario) : ActionContext := ⟨s.subject, s.targets, s.item⟩

/-- The battle at its start, before the action begins. -/
def battle (s : Scenario) : Battle :=
  { Battle.ofRoster s.settings s.roster s.database s.stage with
    switches := s.switches
    «variables» := s.variables
    inventory := s.inventory }.start

/-- The battle and the runner at the beginning of the action. The item is looked up first. -/
def build? (s : Scenario) : Except LoadError (Battle × Runner) :=
  if (s.database.find? s.item).isNone then .error (.unknownItem s.item)
  else if (s.roster.get? s.subject).isNone then .error (.unknownSubject s.subject)
  else
    let (r, b) := Runner.start s.battle s.context
    .ok (b, r)

end Scenario

/-- How an action went: the number of frames, the battle and the runner after them. -/
structure Outcome where
  frames : Nat
  battle : Battle
  runner : Runner
  deriving Repr

/-- What a frame of an action looked like: its number, the runner after it and the number of
requests so far. -/
structure Snapshot where
  frame : Nat
  runner : Runner
  requests : Nat
  deriving Repr

namespace Snapshot

/-- What is looked at to see whether an action got on. -/
def mark (r : Runner) : Option Phase × Nat × List BattlerId :=
  (r.phase, r.interpreter.cursor, r.pending)

/-- Adds a snapshot of a frame, unless the action stands where it stood in the last one. -/
def record (entries : Array Snapshot) (frame : Nat) (r : Runner) (b : Battle) : Array Snapshot :=
  if (entries.back?.map fun e => mark e.runner) = some (mark r) then entries
  else entries.push ⟨frame, r, b.stage.history.size⟩

end Snapshot

namespace Runner

/-- Plays an action as `runFrom` does, with snapshots of the frames in which it got on. -/
def traceFrom (chain : Chain) :
    Nat → Nat → Array Snapshot → Runner → Battle → Outcome × Array Snapshot
  | 0, played, entries, r, b => (⟨played, b, r⟩, entries)
  | limit + 1, played, entries, r, b =>
    if r.isFinished then (⟨played, b, r⟩, entries)
    else
      let (r, b) := r.frame chain b
      traceFrom chain limit (played + 1) (Snapshot.record entries (played + 1) r b) r b

/-- Snapshots do not change how an action goes. -/
theorem traceFrom_fst (chain : Chain) (limit played : Nat) (entries : Array Snapshot) (r : Runner)
    (b : Battle) :
    (traceFrom chain limit played entries r b).1 =
      let (n, r, b) := runFrom chain limit played r b
      ⟨n, b, r⟩ := by
  -- on the frames that may be played; the record so far is general
  induction limit generalizing played entries r b with
  | zero => rfl
  | succ limit ih =>
    unfold traceFrom runFrom
    split
    · rfl
    · exact ih ..

end Runner

/-- Plays the action of a scenario, at most the given number of frames, and concludes it. The
snapshots are those of the frames in which the action got on. -/
def Scenario.play? (s : Scenario) (limit : Nat) : Except LoadError (Outcome × Array Snapshot) := do
  let (b, r) ← s.build?
  let (o, entries) := Runner.traceFrom .standard limit 0 #[] r b
  return ({ o with battle := o.battle.conclude s.aftermath }, entries)

end BattleScript
