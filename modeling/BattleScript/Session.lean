import BattleScript.Scenario

/-!
# Sessions

A session is a battle that is played by hand: single commands are run in it, scripts are played by
an interpreter of its own, and actions by a runner. Commands and scripts share the context of the
session; a runner keeps the one it was started with.
-/

namespace BattleScript

/-- A battle and what is being played in it. -/
structure Session where
  battle : Battle
  context : ActionContext
  interpreter : Interpreter := {}
  runner : Runner
  chain : Chain := .standard

namespace Session

/-- The session of a scenario, with the action that it describes at its beginning. -/
def ofScenario? (s : Scenario) : Except LoadError Session := do
  let (b, r) ← s.build?
  return { battle := b, context := r.context, runner := r }

/-- The session with another battle. -/
def withBattle (s : Session) (b : Battle) : Session := { s with battle := b }

/-- Runs one command. -/
def command (s : Session) (line : String) : Signal × Session :=
  let (signal, scene) := s.chain.dispatch (.ofLine line) ⟨s.battle, s.context⟩
  (signal, { s with battle := scene.battle, context := scene.context })

/-- Lets frames of the battle pass. -/
def tick (s : Session) (frames : Nat) : Session :=
  s.withBattle (frames.repeat Battle.advance s.battle)

/-- Loads a script. -/
def load (s : Session) (script : Script) : Session := { s with interpreter := .load script }

/-- A frame of the battle and then of the script. -/
def runFrame (s : Session) : Session :=
  let (i, scene) := s.interpreter.update s.chain ⟨s.battle.advance, s.context⟩
  { s with interpreter := i, battle := scene.battle, context := scene.context }

/-- Plays frames of the script. -/
def run (s : Session) (frames : Nat) : Session := frames.repeat runFrame s

/-- Starts an action in the context of the session. -/
def start (s : Session) : Session :=
  let (r, b) := Runner.start s.battle s.context
  { s with runner := r, battle := b }

/-- Plays frames of the action, the battle going on even when the action has finished. -/
def frames (s : Session) (count : Nat) : Session :=
  let (r, b) := count.repeat (fun (r, b) => r.frame s.chain b) (s.runner, s.battle)
  { s with runner := r, battle := b }

/-- Plays the action to its end, but at most the given number of frames; with the number of frames
played. -/
def play (s : Session) (limit : Nat) : Nat × Session :=
  let (n, r, b) := s.runner.runToEnd s.chain limit s.battle
  (n, { s with runner := r, battle := b })

/-- Replaces the packs by others, installed in the given order. -/
def install (s : Session) (packs : List Pack) : Session :=
  { s with chain := packs.foldl Chain.install {} }

end Session

end BattleScript
