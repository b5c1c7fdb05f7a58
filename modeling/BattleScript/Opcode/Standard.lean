import BattleScript.Opcode.Control
import BattleScript.Opcode.Cooldown
import BattleScript.Opcode.EffectRun
import BattleScript.Opcode.MotionRun

/-!
# The standard packs
-/

namespace BattleScript

/-- The chain of all packs of this library. -/
def Chain.standard : Chain :=
  ((((Chain.install {} ControlOp.pack).install EffectOp.pack).install MotionOp.pack).install
    CameraOp.pack).install CooldownOp.pack

end BattleScript
