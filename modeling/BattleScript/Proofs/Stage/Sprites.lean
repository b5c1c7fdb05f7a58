import BattleScript.Proofs.OrderedMap
import BattleScript.Stage.Basic

/-!
# What holds of every sprite

Only four things happen to the sprites of a stage: one is put there at home, a request changes that
of one battler, perhaps only if it can be moved, and a frame changes all of them. A property of
sprites that these keep holds of every sprite of the stage (`Stage.Every`).

Such a property is to stand at home (`Sprite.Standing`): nothing but a move, a float or a jump ends
it. Where home is stays the same in any case, and so does all else that a sprite was described by
(`Stage.specs`).
-/

namespace BattleScript

/-! ## The sprites of a stage -/

namespace Stage

variable {α : Type} {s : Stage α} {P : Sprite α → Prop}

/-- Every sprite of the stage has the property. -/
def Every (s : Stage α) (P : Sprite α → Prop) : Prop := ∀ p ∈ s.sprites.values, P p

/-- The four things that happen to sprites, each with what it has to keep. -/
theorem Every.onSprite (h : s.Every P) (b : BattlerId) {f : Sprite α → Sprite α}
    (hf : ∀ p, P p → P (f p)) : (s.onSprite b f).Every P := by
  intro p hp
  obtain ⟨q, hq, rfl | rfl⟩ := OrderedMap.mem_values_modify hp
  · exact h _ hq
  · exact hf q (h q hq)

theorem Every.onMovable (h : s.Every P) (b : BattlerId) {f : Sprite α → Sprite α}
    (hf : ∀ p, p.spec.canMove → P p → P (f p)) : (s.onMovable b f).Every P := by
  refine h.onSprite b fun p hp => ?_
  split
  · next movable => exact hf p movable hp
  · exact hp

variable [Scalar α]

theorem Every.addSprite (h : s.Every P) (b : BattlerId) {spec : SpriteSpec α}
    (hspec : P (.atHome spec)) : (s.addSprite b spec).Every P := by
  intro p hp
  rcases OrderedMap.mem_values_insert hp with rfl | hp
  · exact hspec
  · exact h p hp

theorem Every.advance (h : s.Every P) (hP : ∀ p, P p → P p.advance) : s.advance.Every P := by
  intro p hp
  have hvalues : s.advance.sprites.values = s.sprites.values.map Sprite.advance :=
    OrderedMap.values_mapValues ..
  rw [hvalues] at hp
  obtain ⟨q, hq, rfl⟩ := List.mem_map.mp hp
  exact hP q (h q hq)

end Stage

/-! ## What sprites are described by -/

/-- No frame changes what a sprite is described by. -/
theorem Sprite.spec_advance {α : Type} [Scalar α] (p : Sprite α) : p.advance.spec = p.spec := by
  simp only [advance, advanceShow, advanceOpacity, advanceLift, advanceMove]
  repeat' split
  all_goals rfl

namespace Stage

variable {α : Type}

/-- What the sprites of the stage are described by, each with its battler. -/
def specs (s : Stage α) : List (BattlerId × SpriteSpec α) :=
  s.sprites.entries.map fun e => (e.1, e.2.spec)

/-- A change of one sprite changes no description, if it does not change that of the sprite. -/
theorem specs_onSprite (s : Stage α) (b : BattlerId) {f : Sprite α → Sprite α}
    (h : ∀ p, (f p).spec = p.spec) : (s.onSprite b f).specs = s.specs :=
  s.sprites.map_entries_modify b h

theorem specs_onMovable (s : Stage α) (b : BattlerId) {f : Sprite α → Sprite α}
    (h : ∀ p, (f p).spec = p.spec) : (s.onMovable b f).specs = s.specs :=
  s.specs_onSprite b fun p => by split <;> simp [h]

variable [Scalar α]

/-- No request changes them. -/
theorem specs_request (s : Stage α) (r : StageRequest α) : (s.request r).specs = s.specs := by
  show (s.react r).specs = s.specs
  cases r with
  | collapse b | motion b | performAttack b | face b | opacity b =>
    exact s.specs_onSprite b fun _ => rfl
  | effect b e => cases e <;> exact s.specs_onSprite b fun _ => rfl
  | move b | float b | jump b => exact s.specs_onMovable b fun _ => rfl
  | actionEffect _ b | damagePopup b =>
    simp only [react]
    split <;> rfl
  | _ => rfl

/-- No frame changes them. -/
theorem specs_advance (s : Stage α) : s.advance.specs = s.specs := by
  simp only [specs, advance, OrderedMap.mapValues, List.map_map]
  exact List.map_congr_left fun e _ => congrArg (Prod.mk e.1) (Sprite.spec_advance e.2)

end Stage

/-! ## Standing at home -/

/-- The request leaves sprites standing where they are: it sends, lifts or has jump none of them. -/
def StageRequest.IsStanding {α : Type} : StageRequest α → Prop
  | .move .. | .float .. | .jump .. => False
  | _ => True

section Standing

variable {α : Type} [Scalar α]

/-- The sprite is at home and on the ground, and on no way from there. -/
structure Sprite.Standing (p : Sprite α) : Prop where
  position : p.position = p.spec.home
  destination : p.destination = p.spec.home
  moveFrames : p.moveFrames = 0
  floatHeight : p.floatHeight = 0
  floatTarget : p.floatTarget = 0
  floatFrames : p.floatFrames = 0
  jumpFrames : p.jumpFrames = 0

namespace Sprite

variable {p : Sprite α}

/-- A sprite is put on the stage standing. -/
theorem standing_atHome (spec : SpriteSpec α) : (atHome spec).Standing :=
  ⟨rfl, rfl, rfl, rfl, rfl, rfl, rfl⟩

/-- A standing sprite is on the ground. -/
theorem Standing.jumpHeight (h : p.Standing) : p.jumpHeight = 0 := if_pos h.jumpFrames

/-- A frame leaves it standing. -/
theorem Standing.advance (h : p.Standing) : p.advance.Standing := by
  have hmove : p.advanceMove = p := by simp [advanceMove, h.moveFrames]
  have hlift : p.advanceLift.Standing := by
    refine { h with floatHeight := ?_, floatFrames := ?_, jumpFrames := ?_ }
    · -- no float is under way, so the sprite is put to the height that it is to have
      simp [advanceLift, h.floatFrames, h.floatTarget]
    · simp [advanceLift, h.floatFrames]
    · simp [advanceLift, h.jumpFrames]
  have hopacity : p.advanceLift.advanceOpacity.Standing := by
    unfold advanceOpacity
    split
    · dsimp only
      split <;> exact { hlift with }
    · exact hlift
  rw [Sprite.advance, hmove]
  exact { hopacity with }

end Sprite

/-- Requests that leave sprites standing do so. -/
theorem Stage.Every.standing_request {s : Stage α} (h : s.Every Sprite.Standing)
    {r : StageRequest α} (hr : r.IsStanding) : (s.request r).Every Sprite.Standing := by
  show (s.react r).Every Sprite.Standing
  -- what is left are changes of looks and facing, and requests that change no sprite
  cases r with
  | move | float | jump => cases hr
  | collapse b | motion b | performAttack b | face b | opacity b =>
    exact h.onSprite b fun p hp => { hp with }
  | effect b e => cases e <;> exact h.onSprite b fun p hp => { hp with }
  | actionEffect _ b | damagePopup b =>
    simp only [react]
    split <;> exact h
  | _ => exact h

end Standing

end BattleScript
