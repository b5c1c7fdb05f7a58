import BattleScript.Action.Signal
import BattleScript.Proofs.Stage.Sprites

/-!
# Countdowns

Whatever a script can wait for is counted down by a counter: of its own, of the stage, of the
camera, or of the sprites, where the greatest counter of all decides. `Wait.countdown` reads it. A
wait holds as long as its countdown is positive (`Wait.holds_eq`), and a frame of the battle takes
one off (`Wait.countdown_advance`), so that every wait clears after as many frames.

The fade of a sprite needs an invariant for this. Its counter is polled by itself but only runs
while the sprite is marked as fading; `Stage.FadesRun` says that a counter that is left is running.
Requests and frames keep it.
-/

namespace BattleScript

/-! ## The greatest of several counters -/

/-- The greatest number of a list; zero for none. -/
def greatest (ns : List Nat) : Nat := ns.foldr max 0

/-- The greatest counter runs as long as any does. -/
theorem greatest_pos_iff {ns : List Nat} : 0 < greatest ns ↔ ∃ n ∈ ns, 0 < n := by
  -- on the counters, the first against the greatest of the rest
  induction ns with
  | nil => simp [greatest]
  | cons n ns ih =>
    have hcons : greatest (n :: ns) = max n (greatest ns) := rfl
    simp only [hcons, List.mem_cons, exists_eq_or_imp, ← ih]
    omega

/-- Counters that each lose one lose one together. -/
theorem greatest_map_sub_one (ns : List Nat) : greatest (ns.map (· - 1)) = greatest ns - 1 := by
  induction ns with
  | nil => rfl
  | cons n ns ih =>
    show max (n - 1) (greatest (ns.map (· - 1))) = max n (greatest ns) - 1
    omega

/-- What is true of some counted thing is that the greatest counter is positive. -/
theorem any_pos_eq {α : Type} (xs : List α) (count : α → Nat) :
    xs.any (fun x => decide (0 < count x)) = decide (0 < greatest (xs.map count)) := by
  rw [Bool.eq_iff_iff, List.any_eq_true, decide_eq_true_iff, greatest_pos_iff]
  constructor
  · rintro ⟨x, hx, hpos⟩
    exact ⟨count x, List.mem_map_of_mem hx, of_decide_eq_true hpos⟩
  · rintro ⟨n, hn, hpos⟩
    obtain ⟨x, hx, rfl⟩ := List.mem_map.mp hn
    exact ⟨x, hx, decide_eq_true hpos⟩

/-! ## Sprites -/

namespace Sprite

variable {α : Type} [Scalar α]

/-- If frames are left for a fade, the sprite is fading. -/
def FadeRuns (p : Sprite α) : Prop := 0 < p.opacityFrames → p.fading = true

/-- A sprite at home is not fading, and has no frames left to fade. -/
theorem fadeRuns_atHome (spec : SpriteSpec α) : (atHome spec).FadeRuns := fun h => by cases h

/-- A frame stops a fade only when its frames are used up. -/
theorem fadeRuns_advance {p : Sprite α} (hp : p.FadeRuns) : p.advance.FadeRuns := by
  have hlift : p.advanceMove.advanceLift.FadeRuns := by
    unfold advanceMove
    split <;> exact hp
  have hopacity : p.advanceMove.advanceLift.advanceOpacity.FadeRuns := by
    unfold advanceOpacity
    split
    · next hfading =>
      -- the fade only stops when its count is used up
      dsimp only
      split
      · next hn => exact fun h => absurd h (Int.not_lt.mpr hn)
      · exact fun _ => hfading
    · exact hlift
  exact hopacity

/-! A frame takes one off every counter. -/

@[simp] theorem moveFrames_advance (p : Sprite α) : p.advance.moveFrames = p.moveFrames - 1 := by
  simp only [advance, advanceShow, advanceOpacity, advanceLift, advanceMove]
  repeat' split
  all_goals simp_all

@[simp] theorem floatFrames_advance (p : Sprite α) : p.advance.floatFrames = p.floatFrames - 1 := by
  simp only [advance, advanceShow, advanceOpacity, advanceLift, advanceMove]
  repeat' split
  all_goals rfl

@[simp] theorem jumpFrames_advance (p : Sprite α) : p.advance.jumpFrames = p.jumpFrames - 1 := by
  simp only [advance, advanceShow, advanceOpacity, advanceLift, advanceMove]
  repeat' split
  all_goals rfl

@[simp] theorem effectFrames_advance (p : Sprite α) :
    p.advance.effectFrames = p.effectFrames - 1 := by
  simp only [advance, advanceShow, advanceOpacity, advanceLift, advanceMove]
  repeat' split
  all_goals rfl

@[simp] theorem motionFrames_advance (p : Sprite α) :
    p.advance.motionFrames = p.motionFrames - 1 := by
  simp only [advance, advanceShow, advanceOpacity, advanceLift, advanceMove]
  repeat' split
  all_goals rfl

/-- Of the fade only while it runs. -/
theorem opacityFrames_advance {p : Sprite α} (hp : p.FadeRuns) :
    p.advance.opacityFrames.toNat = p.opacityFrames.toNat - 1 := by
  have hlift : p.advanceMove.advanceLift.fading = p.fading ∧
      p.advanceMove.advanceLift.opacityFrames = p.opacityFrames := by
    unfold advanceMove
    split <;> exact ⟨rfl, rfl⟩
  show p.advanceMove.advanceLift.advanceOpacity.opacityFrames.toNat = _
  unfold advanceOpacity
  -- a sprite that is not fading has no frames left, so that nothing has to be taken off
  by_cases hf : p.fading = true
  · rw [if_pos (hlift.1.trans hf), hlift.2]
    dsimp only
    split <;> exact Int.pred_toNat _
  · have hn : ¬ 0 < p.opacityFrames := fun h => hf (hp h)
    rw [if_neg (fun h => hf (hlift.1.symm.trans h)), hlift.2]
    omega

end Sprite

/-! ## The stage -/

namespace Stage

variable {α : Type} [Scalar α] {s : Stage α}

/-- The greatest of a counter of the sprites. -/
def most (s : Stage α) (count : Sprite α → Nat) : Nat := greatest (s.sprites.values.map count)

/-- The frames that the motion of a battler still takes. -/
def motionFrames (s : Stage α) (b : BattlerId) : Nat := ((s.sprite? b).map (·.motionFrames)).getD 0

/-- Every fade that has frames left is running. -/
def FadesRun (s : Stage α) : Prop := ∀ p ∈ s.sprites.values, p.FadeRuns

/-- A request that sets the frames of a fade starts it. -/
theorem FadesRun.request (h : s.FadesRun) (r : StageRequest α) : (s.request r).FadesRun := by
  have h : s.Every Sprite.FadeRuns := h
  show (s.react r).Every Sprite.FadeRuns
  cases r with
  | opacity b x n => exact h.onSprite b fun p _ _ => rfl
  | move b | float b | jump b => exact h.onMovable b fun p _ hp => hp
  | collapse b | motion b | performAttack b | face b => exact h.onSprite b fun p hp => hp
  | effect b e => cases e <;> exact h.onSprite b fun p hp => hp
  | actionEffect _ b | damagePopup b =>
    simp only [react]
    split <;> exact h
  | _ => exact h

theorem FadesRun.advance (h : s.FadesRun) : s.advance.FadesRun :=
  Every.advance h fun _ => Sprite.fadeRuns_advance

/-- A counter of which every sprite loses one loses one. -/
theorem most_advance {count : Sprite α → Nat}
    (h : ∀ p ∈ s.sprites.values, count p.advance = count p - 1) :
    s.advance.most count = s.most count - 1 := by
  have hvalues : s.advance.sprites.values = s.sprites.values.map Sprite.advance :=
    OrderedMap.values_mapValues ..
  rw [most, hvalues, List.map_map, most, ← greatest_map_sub_one, List.map_map]
  exact congrArg greatest (List.map_congr_left h)

/-- Motions are counted down battler by battler; who has no sprite plays none. -/
theorem motionFrames_advance (s : Stage α) (b : BattlerId) :
    s.advance.motionFrames b = s.motionFrames b - 1 := by
  have hsprite : s.advance.sprite? b = (s.sprite? b).map Sprite.advance :=
    OrderedMap.find?_mapValues ..
  rw [motionFrames, motionFrames, hsprite]
  cases s.sprite? b with
  | none => rfl
  | some p => exact p.motionFrames_advance

omit [Scalar α] in
/-- A motion plays as long as its counter runs. -/
theorem isMotionPlaying_eq (s : Stage α) (b : BattlerId) :
    s.isMotionPlaying b = decide (0 < s.motionFrames b) := by
  unfold isMotionPlaying motionFrames
  cases s.sprite? b <;> rfl

end Stage

/-! ## Waits -/

namespace Wait

/-- The frames for which a wait still holds. -/
def countdown (b : Battle) : Wait → Nat
  | .frames n => n
  | .animation => b.stage.animation
  | .effect => b.stage.most (·.effectFrames)
  | .movement => b.stage.most (·.moveFrames)
  | .float => b.stage.most (·.floatFrames)
  | .jump => b.stage.most (·.jumpFrames)
  | .opacity => b.stage.most (·.opacityFrames.toNat)
  | .camera => b.camera.panFrames
  | .zoom => b.camera.zoomFrames
  | .newLine => b.stage.logBusy
  | .popups => b.stage.popup
  | .motion ids => greatest (ids.map b.stage.motionFrames)

/-- A wait holds as long as its countdown is positive. -/
theorem holds_eq (b : Battle) (w : Wait) : w.holds b = decide (0 < w.countdown b) := by
  cases w with
  | effect | movement | float | jump => exact any_pos_eq _ _
  | opacity =>
    show b.stage.sprites.values.any (fun p => decide (0 < p.opacityFrames)) = _
    -- the count of a fade may fall below zero, but holds no longer for that
    have hcount : (fun p : Sprite Float => decide (0 < p.opacityFrames)) =
        fun p => decide (0 < p.opacityFrames.toNat) :=
      funext fun p => decide_eq_decide.mpr (by omega)
    rw [hcount]
    exact any_pos_eq _ _
  | motion ids =>
    show ids.any b.stage.isMotionPlaying = _
    rw [show b.stage.isMotionPlaying = _ from funext b.stage.isMotionPlaying_eq]
    exact any_pos_eq _ _
  | _ => rfl

/-- A frame of the battle takes one off every countdown that is not a count of frames. -/
theorem countdown_advance {b : Battle} (hb : b.stage.FadesRun) {w : Wait}
    (hw : ∀ n, w ≠ .frames n) : w.countdown b.advance = w.countdown b - 1 := by
  -- counters of the stage by definition, those of the sprites by the greatest of them
  cases w with
  | frames n => exact absurd rfl (hw n)
  | effect => exact Stage.most_advance fun p _ => p.effectFrames_advance
  | movement => exact Stage.most_advance fun p _ => p.moveFrames_advance
  | float => exact Stage.most_advance fun p _ => p.floatFrames_advance
  | jump => exact Stage.most_advance fun p _ => p.jumpFrames_advance
  | opacity => exact Stage.most_advance fun p hp => Sprite.opacityFrames_advance (hb p hp)
  | motion ids =>
    show greatest (ids.map b.stage.advance.motionFrames) = greatest (ids.map _) - 1
    rw [← greatest_map_sub_one, List.map_map]
    exact congrArg greatest (List.map_congr_left fun id _ => b.stage.motionFrames_advance id)
  | _ => rfl

/-- Of the waits only a count of frames counts by itself. -/
theorem tick_of_ne_frames {w : Wait} (hw : ∀ n, w ≠ .frames n) : w.tick = w := by
  cases w with
  | frames n => exact absurd rfl (hw n)
  | _ => rfl

/-- A wait that still holds after a frame of the battle has come closer to its end. -/
theorem countdown_tick {b : Battle} (hb : b.stage.FadesRun) {w : Wait}
    (hw : w.holds b.advance) : w.tick.countdown b.advance < w.countdown b := by
  rw [holds_eq, decide_eq_true_iff] at hw
  by_cases hn : ∃ n, w = .frames n
  · obtain ⟨n, rfl⟩ := hn
    exact Nat.sub_lt hw Nat.one_pos
  · have hframes : ∀ n, w ≠ .frames n := fun n h => hn ⟨n, h⟩
    rw [countdown_advance hb hframes] at hw
    rw [tick_of_ne_frames hframes, countdown_advance hb hframes]
    omega

end Wait

end BattleScript
