import BattleScript.Proofs.Runner.Log
import BattleScript.Scenario

/-!
# The moments of a battle

What becomes of a battle by a command does not tell what happened to a battler in the midst of it: a
command may bring a battler back to life and kill it again. This module adds the battles in between,
beside the code that goes through them: after every operation on a battler, after every work on one
target of a command, and after every command, frame and aftermath.

`Battle.moments` are the battles from the start of a number of actions to the end of the last one.
-/

namespace BattleScript

section Loops

variable {α β : Type}

/-- The battles on the way of work on one thing after another, if `way` are those of the work on a
single thing. -/
def along (way : β → α → List Battle) (work : β → α → β) : β → List α → List Battle
  | _, [] => []
  | acc, x :: xs => way acc x ++ along way work (work acc x) xs

/-- The battles after the work on each single thing. -/
def afterEach (battle : β → Battle) (work : β → α → β) : β → List α → List Battle :=
  along (fun acc x => [battle (work acc x)]) work

end Loops

/-! ## Commands -/

namespace ControlOp

/-- A battler becomes immortal or mortal, and then may collapse. -/
def immortalWay (on : Bool) (b : Battle) (id : BattlerId) : List Battle :=
  match b.roster.get? id with
  | none => []
  | some x => [b.withBattler id (x.setImmortal on), setImmortal on b id]

/-- The battles on the way of a control command. -/
def way (op : ControlOp) (c : ActionContext) (b : Battle) : List Battle :=
  match op with
  | .immortal target on => along (immortalWay on) (setImmortal on) b (b.targets c target)
  | _ => []

end ControlOp

namespace EffectOp

/-- By force a battler first becomes mortal and then dies; after that it may collapse. -/
def collapseWay (force : Bool) (b : Battle) (id : BattlerId) : List Battle :=
  match b.roster.get? id with
  | none => []
  | some x =>
    let mortal := x.setImmortal false
    let forced := [b.withBattler id mortal, b.withBattler id (mortal.addState x.deathState).2]
    (if force then forced else []) ++ [collapseOne force b id]

/-- The battles on the way of an effect command. -/
def way (op : EffectOp) (c : ActionContext) (b : Battle) : List Battle :=
  match op with
  | .buff change (some p) target turns report =>
    afterEach Prod.fst (buffOne change p turns report) (b, false) (b.targets c target)
  | .state add states target report =>
    along (fun acc id => afterEach Prod.fst (stateOne add report id) acc states)
      (fun acc id => states.foldl (stateOne add report id) acc) (b, false) (b.targets c target)
  | .pool p (some amount) target report =>
    afterEach Prod.fst (poolOne p amount report) (b, false) (b.targets c target)
  | .collapse target force =>
    along (collapseWay force) (collapseOne force) b (b.targets c target)
  | _ => []

end EffectOp

/-- The battles on the way of a command. Commands of the other packs do nothing to battlers. -/
def Command.way (c : Command) (scene : Scene) : List Battle :=
  match ControlOp.ofCommand? c, EffectOp.ofCommand? c with
  | some op, _ => op.way scene.context scene.battle
  | none, some op => op.way scene.context scene.battle
  | none, none => []

/-- The battles from a command on to its end. -/
def Dispatch.moments (d : Dispatch) : List Battle := d.command.way d.before ++ [d.after.battle]

/-! ## Actions -/

namespace Runner

/-- The battles that an event stands for. -/
def Event.moments : Event → List Battle
  | .dispatched d => d.moments
  | .aborted _ | .entered _ _ => []

/-- The moments of a frame of the interpreter are those of the commands dispatched in it. -/
theorem moments_played (chain : Chain) (r : Runner) (b : Battle) :
    (r.played chain b).flatMap Event.moments =
      (r.interpreter.dispatches chain ⟨b, r.context⟩).flatMap Dispatch.moments := by
  rw [played, List.flatMap_map]
  rfl

/-- The events between two phases are no moments of their own. -/
theorem moments_handover (p : Phase) (state : InterpreterState) (next : Runner) :
    (handover p state next).flatMap Event.moments = [] := by
  simp only [handover, entry, List.flatMap_append]
  split <;> cases next.phase <;> rfl

/-- The battles in a number of frames. A frame begins with a frame of the battle. -/
def momentsOver (chain : Chain) : Nat → Runner × Battle → List Battle
  | 0, _ => []
  | n + 1, s =>
    let next := s.1.frame chain s.2
    s.2.advance :: (s.1.events chain s.2.advance).flatMap Event.moments ++ next.2 ::
      momentsOver chain n next

end Runner

namespace Battle

/-- The end of a turn for one battler. -/
def endTurnOf (b : Battle) (id : BattlerId) : Battle :=
  { b with
    cooldowns := b.cooldowns.updateTurn id
    roster := b.roster.modify id Battler.updateBuffTurns }

/-- The battles in an aftermath. -/
def concludeWay (b : Battle) (a : Aftermath) : List Battle :=
  (if a.endTurn then afterEach (fun b => b) endTurnOf b b.roster.all else []) ++ [b.conclude a]

end Battle

/-- An action that is played for a number of frames, and what happens after it. -/
structure Play where
  context : ActionContext
  frames : Nat
  aftermath : Aftermath := {}
  deriving DecidableEq, Repr

namespace Play

/-- The battle after the action. -/
def battle (p : Play) (b : Battle) : Battle :=
  (Runner.afterFrames .standard p.frames (Runner.start b p.context)).2.conclude p.aftermath

/-- The battles in the action. -/
def way (p : Play) (b : Battle) : List Battle :=
  let s := Runner.start b p.context
  s.2 :: Runner.momentsOver .standard p.frames s ++
    (Runner.afterFrames .standard p.frames s).2.concludeWay p.aftermath

end Play

namespace Battle

/-- The battle after a number of actions. -/
def afterPlays (b : Battle) (plays : List Play) : Battle := plays.foldl (fun b p => p.battle b) b

/-- The battles in a number of actions, from the start on. -/
def moments (b : Battle) (plays : List Play) : List Battle :=
  b :: along (fun b p => p.way b) (fun b p => p.battle b) b plays

end Battle

end BattleScript
