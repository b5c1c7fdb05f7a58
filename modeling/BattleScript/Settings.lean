/-!
# Settings

The rules of a game that a battle is played by, and the bounds of the field.
-/

namespace BattleScript

/-- The extent of the field. -/
structure Bounds (α : Type) where
  width : α
  height : α
  deriving Repr

/-- The field of a game that does not say otherwise. -/
def Bounds.standard : Bounds Float := ⟨816, 624⟩

/-- The rules of a game. -/
structure Settings where
  defaultVolume : Int := 90
  defaultPitch : Int := 100
  defaultPan : Int := 0
  /-- How far a battler steps that is told no distance. -/
  stepDistance : Float := 48
  bounds : Bounds Float := .standard
  /-- Whether battlers stand on the field and can be moved over it. -/
  sideView : Bool := true
  /-- Whether scripts may use the camera. -/
  battleCamera : Bool := true
  /-- The state that means death. -/
  deathState : Nat := 1
  maxTp : Int := 100
  /-- What the end of a battle adds to a cooldown whose skill does not say. -/
  cooldownAfterBattle : Int := -10
  /-- The number of steps that take one off a cooldown whose skill does not say. -/
  cooldownSteps : Nat := 5
  /-- Skills that are free of cooldowns whatever their notes say. -/
  cooldownBypass : List Nat := [1, 2, 3, 4, 5, 6, 7]
  deriving Repr

/-- Scripts move the camera only in side view. -/
def Settings.cameraEnabled (s : Settings) : Bool := s.sideView && s.battleCamera

end BattleScript
