import BattleScript.Action.Signal
import BattleScript.Script.Command

/-!
# Packs

Commands are known by packs. A pack either claims a command and runs it, or leaves it alone. A chain
asks its packs in turn, the one installed last first; a command that no pack claims does nothing.
-/

namespace BattleScript

/-- What a command can change: the battle and the context of the action. -/
structure Scene where
  battle : Battle
  context : ActionContext
  deriving Repr

/-- A set of commands and what they do. -/
structure Pack where
  name : String
  /-- Runs a command of the pack; nothing if it is none. -/
  run? : Command → Scene → Option (Signal × Scene)

/-- A pack whose commands are read as instructions, which change the battle alone. An instruction
may still decline to run. -/
def Pack.ofInstructions {ι : Type} (name : String) (read? : Command → Option ι)
    (run? : ι → ActionContext → Battle → Option (Signal × Battle)) : Pack where
  name := name
  run? command scene := do
    let instruction ← read? command
    let (signal, battle) ← run? instruction scene.context scene.battle
    return (signal, { scene with battle := battle })

/-- Packs, the one installed last first. -/
structure Chain where
  packs : List Pack := []

namespace Chain

/-- The chain with one more pack, which is asked before all others. -/
def install (c : Chain) (p : Pack) : Chain := ⟨p :: c.packs⟩

/-- The names of the packs, in the order in which they are asked. -/
def names (c : Chain) : List String := c.packs.map (·.name)

/-- Runs a command by the first pack that claims it. -/
def dispatch (c : Chain) (command : Command) (scene : Scene) : Signal × Scene :=
  (c.packs.findSome? fun p => p.run? command scene).getD (.proceed, scene)

end Chain

end BattleScript
