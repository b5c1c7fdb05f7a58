import BattleScript.Proofs.Stage.Countdown
import Mathlib.Logic.Function.Iterate

/-!
# What happens to a stage

Battlers come on a stage, it is asked for things, and frames go by (`StageEvent`). Whatever
happened, every battler has one sprite at most and no fade is left standing: a stage is
`Stage.Regular` from the beginning on (`Stage.regular_afterEvents`).

On a regular stage the sprites are those that are found, so that it can be said of each wait for
sprites whom it waits for: it holds exactly as long as somebody's counter is not used up
(`Stage.any_afterFrames_iff`), since frames count each sprite down by itself.
-/

namespace BattleScript

/-! ## Frames and events -/

/-- The sprite after a number of frames. -/
def Sprite.afterFrames {α : Type} [Scalar α] (p : Sprite α) (k : Nat) : Sprite α := advance^[k] p

theorem Sprite.afterFrames_succ {α : Type} [Scalar α] (p : Sprite α) (k : Nat) :
    p.afterFrames (k + 1) = (p.afterFrames k).advance :=
  Function.iterate_succ_apply' advance k p

/-- What can happen to a stage. -/
inductive StageEvent (α : Type)
  /-- A battler comes on the stage, or comes on it anew. -/
  | enter (b : BattlerId) (spec : SpriteSpec α)
  | request (r : StageRequest α)
  | frame

namespace Stage

variable {α : Type} [Scalar α] {s : Stage α} {b c : BattlerId} {p : Sprite α}

/-- The stage after an event. -/
def occur (s : Stage α) : StageEvent α → Stage α
  | .enter b spec => s.addSprite b spec
  | .request r => s.request r
  | .frame => s.advance

/-- The stage after several events. -/
def afterEvents (s : Stage α) (events : List (StageEvent α)) : Stage α := events.foldl occur s

/-- The stage after a number of frames in which it is asked for nothing. -/
def afterFrames (s : Stage α) (k : Nat) : Stage α := advance^[k] s

theorem afterFrames_succ (s : Stage α) (k : Nat) :
    s.afterFrames (k + 1) = (s.afterFrames k).advance :=
  Function.iterate_succ_apply' advance k s

/-! Each event as it is seen at one sprite. -/

/-- A battler that comes on gets its sprite, and no other sprite changes. -/
theorem sprite?_addSprite (s : Stage α) (c : BattlerId) (spec : SpriteSpec α) (b : BattlerId) :
    (s.addSprite c spec).sprite? b = if b = c then some (.atHome spec) else s.sprite? b :=
  s.sprites.find?_insert c (.atHome spec) b

omit [Scalar α] in
/-- A change of one sprite is seen at that one only. -/
theorem sprite?_onSprite (s : Stage α) (c : BattlerId) (f : Sprite α → Sprite α) (b : BattlerId) :
    (s.onSprite c f).sprite? b = if b = c then (s.sprite? b).map f else s.sprite? b :=
  s.sprites.find?_modify c f b

/-- A frame is seen at every sprite. -/
theorem sprite?_advance (s : Stage α) (b : BattlerId) :
    s.advance.sprite? b = (s.sprite? b).map Sprite.advance :=
  OrderedMap.find?_mapValues ..

/-- Without requests every sprite goes its own way. -/
theorem sprite?_afterFrames (s : Stage α) (b : BattlerId) (k : Nat) :
    (s.afterFrames k).sprite? b = (s.sprite? b).map (·.afterFrames k) := by
  induction k with
  | zero => cases h : s.sprite? b <;> exact h
  | succ k ih =>
    rw [afterFrames_succ, sprite?_advance, ih, Option.map_map]
    refine congrArg (Option.map · (s.sprite? b)) (funext fun p => ?_)
    exact (p.afterFrames_succ k).symm

/-! ## Regular stages -/

/-- Every battler has one sprite at most, and every fade that has frames left is running. -/
structure Regular (s : Stage α) : Prop where
  distinct : s.sprites.keys.Nodup
  fadesRun : s.FadesRun

omit [Scalar α] in
theorem map_fst_specs (s : Stage α) : s.specs.map (·.1) = s.sprites.keys := by
  simp [specs, OrderedMap.keys]

omit [Scalar α] in
/-- A stage is regular before anything happened to it. -/
theorem regular_opened (timings : Timings) : ({ timings := timings } : Stage α).Regular :=
  ⟨List.nodup_nil, fun _ hp => by cases hp⟩

namespace Regular

/-- A battler that comes on has one sprite, whether or not it had one before. -/
theorem addSprite (h : s.Regular) (b : BattlerId) (spec : SpriteSpec α) :
    (s.addSprite b spec).Regular where
  distinct := OrderedMap.nodup_keys_insert h.distinct b _
  fadesRun := Every.addSprite (P := Sprite.FadeRuns) h.fadesRun b (Sprite.fadeRuns_atHome spec)

/-- Requests put no sprites on the stage. -/
theorem request (h : s.Regular) (r : StageRequest α) : (s.request r).Regular where
  distinct := by
    rw [← map_fst_specs, specs_request, map_fst_specs]
    exact h.distinct
  fadesRun := h.fadesRun.request r

theorem advance (h : s.Regular) : s.advance.Regular where
  distinct := by
    rw [← map_fst_specs, specs_advance, map_fst_specs]
    exact h.distinct
  fadesRun := h.fadesRun.advance

theorem occur (h : s.Regular) (e : StageEvent α) : (s.occur e).Regular := by
  cases e with
  | enter b spec => exact h.addSprite b spec
  | request r => exact h.request r
  | frame => exact h.advance

theorem afterFrames (h : s.Regular) (k : Nat) : (s.afterFrames k).Regular := by
  induction k with
  | zero => exact h
  | succ k ih =>
    rw [Stage.afterFrames_succ]
    exact ih.advance

end Regular

/-- So it is after whatever happens to it. -/
theorem regular_afterEvents (h : s.Regular) (events : List (StageEvent α)) :
    (s.afterEvents events).Regular := by
  induction events generalizing s with
  | nil => exact h
  | cons e events ih => exact ih (h.occur e)

/-! ## Whom a wait is for -/

omit [Scalar α] in
/-- What is true of some sprite is true of somebody's. -/
theorem any_iff (hs : s.Regular) {busy : Sprite α → Bool} :
    s.sprites.values.any busy ↔ ∃ c q, s.sprite? c = some q ∧ busy q := by
  rw [List.any_eq_true]
  exact OrderedMap.exists_mem_values_iff hs.distinct

/-- A counter that every frame takes one off holds for as many frames as it counts, for whomever it
counts. -/
theorem any_afterFrames_iff (hs : s.Regular) {count : Sprite α → Nat}
    (hcount : ∀ q, q.FadeRuns → count q.advance = count q - 1) (k : Nat) :
    (s.afterFrames k).sprites.values.any (0 < count ·) ↔
      ∃ c q, s.sprite? c = some q ∧ k < count q := by
  -- the countdown of one sprite by itself
  have hleft (q : Sprite α) (hq : q.FadeRuns) (j : Nat) :
      (q.afterFrames j).FadeRuns ∧ count (q.afterFrames j) = count q - j := by
    induction j with
    | zero => exact ⟨hq, rfl⟩
    | succ j ih =>
      obtain ⟨hruns, ih⟩ := ih
      rw [Sprite.afterFrames_succ, hcount _ hruns, ih]
      exact ⟨Sprite.fadeRuns_advance hruns, by omega⟩
  have hruns {c : BattlerId} {q : Sprite α} (hq : s.sprite? c = some q) : q.FadeRuns :=
    hs.fadesRun q (OrderedMap.mem_values_of_find? hq)
  rw [any_iff (hs.afterFrames k)]
  -- the sprites after the frames are those that were there before
  constructor
  · rintro ⟨c, q', hq', hbusy⟩
    rw [sprite?_afterFrames] at hq'
    obtain ⟨q, hq, rfl⟩ := Option.map_eq_some_iff.mp hq'
    have hpos : 0 < count (q.afterFrames k) := of_decide_eq_true hbusy
    rw [(hleft q (hruns hq) k).2] at hpos
    exact ⟨c, q, hq, by omega⟩
  · rintro ⟨c, q, hq, hk⟩
    refine ⟨c, q.afterFrames k, ?_, decide_eq_true ?_⟩
    · rw [sprite?_afterFrames, hq]
      rfl
    · rw [(hleft q (hruns hq) k).2]
      omega

end Stage

end BattleScript
