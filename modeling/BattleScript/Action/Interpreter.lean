import BattleScript.Action.Pack

/-!
# The interpreter

The interpreter plays one script. Each `update` is a frame: commands run back to back until one of
them gives up the frame, waits or aborts, or the script runs out. A wait is polled at the start of
the frame, and when it has cleared the script goes on in the same frame.

`runLines` is the part that runs commands. It recurses on the lines left, so a frame always ends.
-/

namespace BattleScript

/-- What the interpreter is doing. -/
inductive InterpreterState
  /-- Nothing was loaded. -/
  | idle
  | running
  | waiting (w : Wait)
  /-- All lines were run. -/
  | completed
  /-- A command aborted the script. -/
  | aborted
  deriving DecidableEq, Repr

/-- A script and how far it was played. -/
structure Interpreter where
  script : Script := []
  /-- The position of the next line. -/
  cursor : Nat := 0
  state : InterpreterState := .idle
  deriving DecidableEq, Repr

namespace Interpreter

/-- An interpreter at the first line of a script. -/
def load (script : Script) : Interpreter := ⟨script, 0, .running⟩

/-- Whether there is nothing left to play. -/
def isFinished (i : Interpreter) : Bool :=
  match i.state with
  | .idle | .completed | .aborted => true
  | .running | .waiting _ => false

/-- How a run of commands ended: the number of lines that were run, what the interpreter does next,
and what the lines made of the scene. -/
structure Stretch where
  taken : Nat
  state : InterpreterState
  scene : Scene

/-- Runs lines until one of them ends the frame or the script. -/
def runLines (chain : Chain) : List String → Scene → Stretch
  | [], scene => ⟨0, .completed, scene⟩
  | line :: rest, scene =>
    match chain.dispatch (Command.ofLine line) scene with
    | (.proceed, scene) =>
      let s := runLines chain rest scene
      { s with taken := s.taken + 1 }
    | (.yield, scene) => ⟨1, .running, scene⟩
    | (.wait w, scene) => ⟨1, .waiting w, scene⟩
    | (.abort, scene) => ⟨1, .aborted, scene⟩

/-- Goes on with the script. -/
def resume (chain : Chain) (i : Interpreter) (scene : Scene) : Interpreter × Scene :=
  let s := runLines chain (i.script.drop i.cursor) scene
  ({ i with cursor := i.cursor + s.taken, state := s.state }, s.scene)

/-- Plays one frame. -/
def update (chain : Chain) (i : Interpreter) (scene : Scene) : Interpreter × Scene :=
  match i.state with
  | .idle | .completed | .aborted => (i, scene)
  | .running => i.resume chain scene
  | .waiting w =>
    match w.poll scene.battle with
    | some w => ({ i with state := .waiting w }, scene)
    | none => i.resume chain scene

end Interpreter

end BattleScript
