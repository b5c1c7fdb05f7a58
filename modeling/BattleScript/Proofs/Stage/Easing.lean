import BattleScript.Camera
import BattleScript.Proofs.Number.Easing
import BattleScript.Proofs.Stage.History

/-!
# What eases

The camera pans and zooms, and sprites move, float and fade, by equal parts of the way, over the
rationals (`everything_eases`). Each does so from where it is: a request sets where to go and how
many frames that takes, and leaves the value alone. So a request that comes in the middle of a way
begins another from there. A jump is the exception. It is a parabola over its whole length, and a
jump that is asked for in the midst of another begins on the ground.

Pan, zoom and move are averages that a countdown weighs; float and fade go at a constant rate, and
are put to their targets with their last frames. What is to be seen for each is that one frame is
the step of `eases_of_glide` or `eases_of_approach`, with `n - k` frames left after `k`.
-/

namespace BattleScript

/-- The point goes from its start to its target in `n` equal parts, in both coordinates. -/
def PointEases (start target : Point ℚ) (n : ℕ) (value : ℕ → Point ℚ) : Prop :=
  Eases start.x target.x n (fun k => (value k).x) ∧ Eases start.y target.y n (fun k => (value k).y)

/-- A point that glides to its target eases. -/
theorem pointEases_of_glide {start target : Point ℚ} {n : ℕ} {value : ℕ → Point ℚ} (hn : 1 ≤ n)
    (hzero : value 0 = start) (hstep : ∀ k < n, value (k + 1) = (value k).glide (n - k) target)
    (hrest : ∀ k, n ≤ k → value (k + 1) = target ∨ value (k + 1) = value k) :
    PointEases start target n value := by
  have coordinate (f : Point ℚ → ℚ)
      (hglide : ∀ m p q, f (Point.glide m p q) = glide m (f p) (f q)) :
      Eases (f start) (f target) n (fun k => f (value k)) := by
    refine eases_of_glide hn (congrArg f hzero) ?_ ?_
    · intro k hk
      rw [hstep k hk, hglide]
    · intro k hk
      exact (hrest k hk).imp (congrArg f) (congrArg f)
  exact ⟨coordinate (·.x) fun _ _ _ => rfl, coordinate (·.y) fun _ _ _ => rfl⟩

/-! ## The camera -/

namespace Camera

section Frames

variable {α : Type} [Scalar α]

/-- The camera after a number of frames, of which each has its target. -/
def afterFrames (c : Camera α) (targets : ℕ → Point α) : ℕ → Camera α
  | 0 => c
  | k + 1 => (c.afterFrames targets k).advance (targets k)

/-- A frame of a pan takes one of the parts that are left; when none are, the camera stays with
what it looks at. -/
theorem position_advance (c : Camera α) (target : Point α) : (c.advance target).position =
    if 0 < c.panFrames then c.position.glide c.panFrames target else target :=
  rfl

/-- A zoom goes on likewise, and then keeps its scale. -/
theorem zoom_advance (c : Camera α) (target : Point α) : (c.advance target).zoom =
    if 0 < c.zoomFrames then glide c.zoomFrames c.zoom c.zoomTarget else c.zoom :=
  rfl

/-- Frames count down, and leave the scale that is zoomed to. -/
theorem frames_afterFrames (c : Camera α) (targets : ℕ → Point α) (k : ℕ) :
    (c.afterFrames targets k).panFrames = c.panFrames - k ∧
      (c.afterFrames targets k).zoomFrames = c.zoomFrames - k ∧
      (c.afterFrames targets k).zoomTarget = c.zoomTarget := by
  induction k with
  | zero => exact ⟨rfl, rfl, rfl⟩
  | succ k ih =>
    obtain ⟨hpan, hzoom, htarget⟩ := ih
    refine ⟨?_, ?_, htarget⟩
    · show (c.afterFrames targets k).panFrames - 1 = _
      omega
    · show (c.afterFrames targets k).zoomFrames - 1 = _
      omega

/-- The camera is sent somewhere for a number of frames: to a goal, back to the centre of the field,
or after a group. -/
inductive Pans (c : Camera α) (n : ℕ) : Camera α → Prop
  | goal (goal : Point α) : Pans c n (c.panTo goal n)
  | centre (bounds : Bounds α) : Pans c n (c.reset bounds n)
  | group {group : List BattlerId} (nonempty : group ≠ []) (anchor : Anchor) :
    Pans c n (c.focusOn group anchor n)

/-- It sets out from where it is. -/
theorem Pans.spec {c c' : Camera α} {n : ℕ} (h : c.Pans n c') :
    c'.position = c.position ∧ c'.panFrames = n := by
  cases h with
  | goal | centre => exact ⟨rfl, rfl⟩
  | group nonempty anchor =>
    rw [focusOn, if_neg (by simpa using nonempty)]
    exact ⟨rfl, rfl⟩

end Frames

variable {c c' : Camera ℚ} {n : ℕ}

/-- A pan eases to a target that does not change. -/
theorem position_eases (h : c.Pans n c') (hn : 1 ≤ n) (target : Point ℚ) :
    PointEases c.position target n (fun k => (c'.afterFrames (fun _ => target) k).position) ∧
      ∀ k, (c'.afterFrames (fun _ => target) k).isPanning ↔ k < n := by
  obtain ⟨hposition, hframes⟩ := h.spec
  have hleft (k : ℕ) : (c'.afterFrames (fun _ => target) k).panFrames = n - k := by
    rw [(c'.frames_afterFrames _ k).1, hframes]
  have hstep (k : ℕ) : (c'.afterFrames (fun _ => target) (k + 1)).position =
      if 0 < n - k then (c'.afterFrames (fun _ => target) k).position.glide (n - k) target
      else target := by
    rw [afterFrames, position_advance, hleft]
  constructor
  · refine pointEases_of_glide hn hposition ?_ ?_
    · intro k hk
      rw [hstep, if_pos (by omega)]
    · intro k hk
      rw [hstep, if_neg (by omega)]
      exact .inl rfl
  · intro k
    rw [isPanning, hleft, decide_eq_true_iff]
    omega

/-- A zoom eases to its scale, whatever the camera looks at meanwhile. -/
theorem zoom_eases (c : Camera ℚ) (scale : ℚ) (hn : 1 ≤ n) (targets : ℕ → Point ℚ) :
    Eases c.zoom scale n (fun k => ((c.startZoom scale n).afterFrames targets k).zoom) ∧
      ∀ k, ((c.startZoom scale n).afterFrames targets k).isZooming ↔ k < n := by
  have hleft (k : ℕ) : ((c.startZoom scale n).afterFrames targets k).zoomFrames = n - k :=
    ((c.startZoom scale n).frames_afterFrames targets k).2.1
  have htarget (k : ℕ) : ((c.startZoom scale n).afterFrames targets k).zoomTarget = scale :=
    ((c.startZoom scale n).frames_afterFrames targets k).2.2
  have hstep (k : ℕ) : ((c.startZoom scale n).afterFrames targets (k + 1)).zoom =
      if 0 < n - k then glide (n - k) ((c.startZoom scale n).afterFrames targets k).zoom scale
      else ((c.startZoom scale n).afterFrames targets k).zoom := by
    rw [afterFrames, zoom_advance, hleft, htarget]
  constructor
  · refine eases_of_glide hn rfl ?_ ?_
    · intro k hk
      rw [hstep, if_pos (by omega)]
    · intro k hk
      rw [hstep, if_neg (by omega)]
      exact .inr rfl
  · intro k
    rw [isZooming, hleft, decide_eq_true_iff]
    omega

end Camera

/-! ## Sprites -/

namespace Sprite

section Frames

variable {α : Type} [Scalar α]

/-! One frame, as it is seen at each of the fields. -/

/-- A move takes one of the parts that are left, and then the sprite stands. -/
theorem position_advance (p : Sprite α) : p.advance.position =
    if 0 < p.moveFrames then p.position.glide p.moveFrames p.destination else p.position := by
  simp only [advance, advanceShow, advanceOpacity, advanceLift, advanceMove]
  repeat' split
  all_goals rfl

/-- A float goes at its rate and is put to its height with the last frame; with none left it is
put there again. -/
theorem floatHeight_advance (p : Sprite α) : p.advance.floatHeight =
    if p.floatFrames - 1 = 0 then p.floatTarget
    else approach p.floatRate p.floatTarget p.floatHeight := by
  simp only [advance, advanceShow, advanceOpacity, advanceLift, advanceMove]
  repeat' split
  all_goals rfl

/-- Of the four parts of a frame only the last but one is about opacity. -/
theorem fade_advance (p : Sprite α) :
    p.advance.opacity = p.advanceOpacity.opacity ∧
      p.advance.opacityFrames = p.advanceOpacity.opacityFrames ∧
      p.advance.fading = p.advanceOpacity.fading := by
  simp only [advance, advanceShow, advanceOpacity, advanceLift, advanceMove]
  repeat' split
  all_goals simp_all

/-- A fade goes at its rate, and ends with the frame that uses it up. -/
theorem opacity_advance (p : Sprite α) : p.advance.opacity =
    if p.fading then
      if p.opacityFrames - 1 ≤ 0 then p.opacityTarget
      else approach p.opacityRate p.opacityTarget p.opacity
    else p.opacity := by
  rw [p.fade_advance.1, advanceOpacity]
  split
  · dsimp only
    split <;> rfl
  · rfl

theorem opacityFrames_advance_eq (p : Sprite α) : p.advance.opacityFrames =
    if p.fading then p.opacityFrames - 1 else p.opacityFrames := by
  rw [p.fade_advance.2.1, advanceOpacity]
  split
  · dsimp only
    split <;> rfl
  · rfl

theorem fading_advance (p : Sprite α) :
    p.advance.fading = (p.fading && decide (1 < p.opacityFrames)) := by
  rw [p.fade_advance.2.2, advanceOpacity]
  -- the last frame of a fade stops it
  split
  · next hfading =>
    dsimp only
    split
    · next hlast => simp [show ¬ 1 < p.opacityFrames by omega]
    · next hmore => simp [hfading, show 1 < p.opacityFrames by omega]
  · next hstill => simp [hstill]

/-- The sprites are on their way to the same places and heights, and as fast. -/
structure SameAims (p q : Sprite α) : Prop where
  destination : p.destination = q.destination
  floatTarget : p.floatTarget = q.floatTarget
  floatRate : p.floatRate = q.floatRate
  jumpPeak : p.jumpPeak = q.jumpPeak
  jumpLength : p.jumpLength = q.jumpLength
  opacityTarget : p.opacityTarget = q.opacityTarget
  opacityRate : p.opacityRate = q.opacityRate

/-- Frames change no aims: where to go, how fast, and how high. -/
theorem sameAims_advance (p : Sprite α) : p.advance.SameAims p := by
  simp only [advance, advanceShow, advanceOpacity, advanceLift, advanceMove]
  repeat' split
  all_goals exact ⟨rfl, rfl, rfl, rfl, rfl, rfl, rfl⟩

/-- What no frame changes is the same after any number of frames. -/
theorem kept_afterFrames {β : Type} {f : Sprite α → β} (h : ∀ p, f p.advance = f p) (p : Sprite α)
    (k : ℕ) : f (p.afterFrames k) = f p := by
  induction k with
  | zero => rfl
  | succ k ih => rw [afterFrames_succ, h, ih]

/-- A counter that every frame takes one off has the rest left after `k` frames. -/
theorem count_afterFrames {count : Sprite α → ℕ} (h : ∀ p, count p.advance = count p - 1)
    (p : Sprite α) (k : ℕ) : count (p.afterFrames k) = count p - k := by
  induction k with
  | zero => rfl
  | succ k ih =>
    rw [afterFrames_succ, h, ih]
    omega

/-- A fade runs until its frames are used up. -/
theorem fade_afterFrames {p : Sprite α} {n : ℕ} (hfading : p.fading = true)
    (hframes : p.opacityFrames = n) (hn : 1 ≤ n) (k : ℕ) :
    (p.afterFrames k).fading = decide (k < n) ∧ (p.afterFrames k).opacityFrames = (n - k : ℕ) := by
  induction k with
  | zero => exact ⟨hfading.trans (decide_eq_true hn).symm, hframes⟩
  | succ k ih =>
    obtain ⟨hruns, hleft⟩ := ih
    rw [afterFrames_succ, fading_advance, opacityFrames_advance_eq, hruns, hleft]
    -- while frames are left the fade runs and loses one; after that it stands
    by_cases hk : k < n
    · rw [if_pos (decide_eq_true hk), decide_eq_true hk, Bool.true_and]
      exact ⟨decide_eq_decide.mpr (by omega), by omega⟩
    · rw [if_neg (by simpa using hk), decide_eq_false hk, Bool.false_and]
      exact ⟨(decide_eq_false (by omega)).symm, by omega⟩

end Frames

variable {n : ℕ}

/-- A move eases from wherever the sprite is. -/
theorem position_eases (p : Sprite ℚ) (q : Point ℚ) (hn : 1 ≤ n) :
    PointEases p.position q n (fun k => ((p.startMove q n).afterFrames k).position) := by
  have hstart : (p.startMove q n).position = p.position := if_neg (by omega)
  have hleft (k : ℕ) : ((p.startMove q n).afterFrames k).moveFrames = n - k :=
    count_afterFrames moveFrames_advance _ k
  have hto (k : ℕ) : ((p.startMove q n).afterFrames k).destination = q :=
    kept_afterFrames (fun p => p.sameAims_advance.destination) _ k
  have hstep (k : ℕ) : ((p.startMove q n).afterFrames (k + 1)).position =
      if 0 < n - k then ((p.startMove q n).afterFrames k).position.glide (n - k) q
      else ((p.startMove q n).afterFrames k).position := by
    rw [afterFrames_succ, position_advance, hleft, hto]
  refine pointEases_of_glide hn hstart ?_ ?_
  · intro k hk
    rw [hstep, if_pos (by omega)]
  · intro k hk
    rw [hstep, if_neg (by omega)]
    exact .inr rfl

/-- A float eases at the rate that brings the sprite to its height in time. -/
theorem floatHeight_eases (p : Sprite ℚ) (height : ℚ) (hn : 1 ≤ n) :
    Eases p.floatHeight height n
      (fun k => ((p.startFloat height n).afterFrames k).floatHeight) := by
  have hmax : max n 1 = n := max_eq_left hn
  have hleft (k : ℕ) : ((p.startFloat height n).afterFrames k).floatFrames = n - k := by
    rw [count_afterFrames floatFrames_advance]
    exact congrArg (· - k) hmax
  have hto (k : ℕ) : ((p.startFloat height n).afterFrames k).floatTarget = height :=
    kept_afterFrames (fun p => p.sameAims_advance.floatTarget) _ k
  have hrate (k : ℕ) : ((p.startFloat height n).afterFrames k).floatRate =
      |p.floatHeight - height| / n := by
    rw [kept_afterFrames fun p => p.sameAims_advance.floatRate]
    show |p.floatHeight - height| / ((max n 1 : ℕ) : ℚ) = _
    rw [hmax]
  have hstep (k : ℕ) : ((p.startFloat height n).afterFrames (k + 1)).floatHeight =
      if n - k - 1 = 0 then height
      else approach (|p.floatHeight - height| / n) height
        ((p.startFloat height n).afterFrames k).floatHeight := by
    rw [afterFrames_succ, floatHeight_advance, hleft, hto, hrate]
  refine eases_of_approach hn rfl ?_ ?_ ?_
  · intro k hk
    rw [hstep, if_neg (by omega)]
  · obtain ⟨m, rfl⟩ := Nat.exists_eq_add_of_le' hn
    rw [hstep, if_pos (by omega)]
  · intro k hk
    rw [hstep, if_pos (by omega)]
    exact .inl rfl

/-- The frames of a fade are counted down as they are asked for, up to the end of their range. -/
theorem startOpacity_spec {α : Type} [Scalar α] (p : Sprite α) (opacity : UInt8) (hn : 1 ≤ n)
    (hmax : n ≤ int32Max) : (p.startOpacity opacity n).fading = true ∧
      (p.startOpacity opacity n).opacityFrames = n := by
  simp only [startOpacity, Nat.max_eq_left hn]
  simp only [int32Max] at hmax
  unfold wrapInt32
  exact ⟨trivial, Int.bmod_eq_of_le (by omega) (by omega)⟩

/-- A fade eases. Its counter is signed, so the number of frames has to fit. -/
theorem opacity_eases (p : Sprite ℚ) (opacity : UInt8) (hn : 1 ≤ n) (hmax : n ≤ int32Max) :
    Eases p.opacity opacity.toNat n
      (fun k => ((p.startOpacity opacity n).afterFrames k).opacity) := by
  obtain ⟨hfading, hframes⟩ := p.startOpacity_spec opacity hn hmax
  have hfade := fade_afterFrames hfading hframes hn
  have hto (k : ℕ) : ((p.startOpacity opacity n).afterFrames k).opacityTarget = opacity.toNat :=
    kept_afterFrames (fun p => p.sameAims_advance.opacityTarget) _ k
  have hrate (k : ℕ) : ((p.startOpacity opacity n).afterFrames k).opacityRate =
      |p.opacity - opacity.toNat| / n := by
    rw [kept_afterFrames fun p => p.sameAims_advance.opacityRate]
    show |p.opacity - opacity.toNat| / ((max n 1 : ℕ) : ℚ) = _
    rw [max_eq_left hn]
  have hstep (k : ℕ) : ((p.startOpacity opacity n).afterFrames (k + 1)).opacity =
      if k < n then
        if n - k - 1 = 0 then (opacity.toNat : ℚ)
        else approach (|p.opacity - opacity.toNat| / n) opacity.toNat
          ((p.startOpacity opacity n).afterFrames k).opacity
      else ((p.startOpacity opacity n).afterFrames k).opacity := by
    obtain ⟨hruns, hleft⟩ := hfade k
    rw [afterFrames_succ, opacity_advance, hruns, hleft, hto, hrate]
    by_cases hk : k < n
    · rw [if_pos (decide_eq_true hk), if_pos hk]
      exact if_congr (by omega) rfl rfl
    · rw [if_neg (by simpa using hk), if_neg hk]
  have hzero : ((p.startOpacity opacity n).afterFrames 0).opacity = p.opacity := rfl
  refine eases_of_approach hn hzero ?_ ?_ ?_
  · intro k hk
    rw [hstep, if_pos (by omega), if_neg (by omega)]
  · obtain ⟨m, rfl⟩ := Nat.exists_eq_add_of_le' hn
    rw [hstep, if_pos (by omega), if_pos (by omega)]
  · intro k hk
    rw [hstep, if_neg (by omega)]
    exact .inr rfl

/-- The height of a jump over the rationals: a parabola with its peak in the middle. -/
theorem jumpHeight_rat (p : Sprite ℚ) : p.jumpHeight =
    if p.jumpFrames = 0 then 0
    else
      -p.jumpPeak / (p.jumpLength / 2 * (p.jumpLength / 2)) *
        (((p.jumpLength - p.jumpFrames : ℕ) - p.jumpLength / 2 : ℚ) *
          ((p.jumpLength - p.jumpFrames : ℕ) - p.jumpLength / 2)) + p.jumpPeak := by
  have hzero : @OfNat.ofNat ℚ 0 (Scalar.instOfNat 0) = 0 := Nat.cast_zero
  have htwo : @OfNat.ofNat ℚ 2 (Scalar.instOfNat 2) = 2 := Nat.cast_ofNat
  rw [jumpHeight, hzero, htwo]
  rfl

/-- After `k` of `n` frames, the parabola through the ground at both ends. -/
theorem jumpHeight_arcs (p : Sprite ℚ) (peak : ℚ) (hn : 1 ≤ n) {k : ℕ} (hk : k ≤ n) :
    ((p.startJump peak n).afterFrames k).jumpHeight = 4 * peak * (k * (n - k)) / n ^ 2 := by
  have hleft : ((p.startJump peak n).afterFrames k).jumpFrames = n - k :=
    count_afterFrames jumpFrames_advance _ k
  have hpeak : ((p.startJump peak n).afterFrames k).jumpPeak = peak :=
    kept_afterFrames (fun p => p.sameAims_advance.jumpPeak) _ k
  have hlength : ((p.startJump peak n).afterFrames k).jumpLength = n :=
    kept_afterFrames (fun p => p.sameAims_advance.jumpLength) _ k
  rw [jumpHeight_rat, hleft, hpeak, hlength, Nat.sub_sub_self hk]
  have hne : (n : ℚ) ≠ 0 := Nat.cast_ne_zero.mpr (by omega)
  split
  · next hlanded =>
    have hk : (k : ℚ) = n := by exact_mod_cast (by omega)
    rw [hk]
    ring
  · field_simp
    ring

/-- A jump that is over leaves the sprite on the ground. -/
theorem jumpHeight_landed (p : Sprite ℚ) (peak : ℚ) {k : ℕ} (hk : n ≤ k) :
    ((p.startJump peak n).afterFrames k).jumpHeight = 0 := by
  have hleft : ((p.startJump peak n).afterFrames k).jumpFrames = n - k :=
    count_afterFrames jumpFrames_advance _ k
  rw [jumpHeight_rat, hleft, if_pos (by omega)]

end Sprite

/-! ## The stage -/

namespace Stage

variable {α : Type} [Scalar α] {s s' : Stage α} {b : BattlerId} {p p' : Sprite α}

/-- The stages differ in one sprite: that of the battler was `p` and is `p'`. -/
structure Changed (s s' : Stage α) (b : BattlerId) (p p' : Sprite α) : Prop where
  regular : s'.Regular
  changed : s'.sprite? b = some p'
  others : ∀ c, c ≠ b → s'.sprite? c = s.sprite? c

/-- As long as the stage is asked for nothing, the sprite of the battler runs through the course. -/
def RunsThrough (s : Stage α) (b : BattlerId) (course : ℕ → Sprite α) : Prop :=
  ∀ k, (s.afterFrames k).sprite? b = some (course k)

/-- Somebody else's sprite has more than `k` frames of a kind left. -/
def OthersLeft (s : Stage α) (b : BattlerId) (count : Sprite α → ℕ) (k : ℕ) : Prop :=
  ∃ c q, c ≠ b ∧ s.sprite? c = some q ∧ k < count q

omit [Scalar α] in
/-- A change of sprites that can be moved is made to one that can. -/
theorem sprite?_onMovable (hp : s.sprite? b = some p) (movable : p.spec.canMove = true)
    (f : Sprite α → Sprite α) : (s.onMovable b f).sprite? b = some (f p) := by
  rw [onMovable, sprite?_onSprite, if_pos rfl, hp]
  exact congrArg some (if_pos movable)

omit [Scalar α] in
/-- A change of one sprite is made to no other. -/
theorem sprite?_onMovable_of_ne {c : BattlerId} (h : c ≠ b) (f : Sprite α → Sprite α) :
    (s.onMovable b f).sprite? c = s.sprite? c := by
  rw [onMovable, sprite?_onSprite, if_neg h]

namespace Changed

/-- The sprite goes its way from there. -/
theorem runsThrough (h : s.Changed s' b p p') : s'.RunsThrough b p'.afterFrames := by
  intro k
  rw [sprite?_afterFrames, h.changed]
  rfl

/-- A wait for a kind of counters holds as long as the counter of the sprite runs, or somebody
else's. -/
theorem any_iff (h : s.Changed s' b p p') (count : Sprite α → ℕ)
    (hcount : ∀ q, q.FadeRuns → count q.advance = count q - 1) (k : ℕ) :
    (s'.afterFrames k).sprites.values.any (0 < count ·) ↔
      k < count p' ∨ s.OthersLeft b count k := by
  rw [any_afterFrames_iff h.regular hcount]
  constructor
  · rintro ⟨c, q, hq, hk⟩
    by_cases hc : c = b
    · obtain rfl := Option.some.inj (h.changed.symm.trans (hc ▸ hq))
      exact .inl hk
    · exact .inr ⟨c, q, hc, (h.others c hc).symm.trans hq, hk⟩
  · rintro (hk | ⟨c, q, hc, hq, hk⟩)
    · exact ⟨b, p', h.changed, hk⟩
    · exact ⟨c, q, (h.others c hc).trans hq, hk⟩

/-- The four requests, each as the change of one sprite. -/
theorem move (hs : s.Regular) (hp : s.sprite? b = some p) (movable : p.spec.canMove = true)
    (d : Destination α) (n : ℕ) :
    s.Changed (s.request (.move b d n)) b p (p.startMove (destinationPoint b p d) n) :=
  ⟨hs.request _, sprite?_onMovable hp movable _, fun _ hc => sprite?_onMovable_of_ne hc _⟩

theorem float (hs : s.Regular) (hp : s.sprite? b = some p) (movable : p.spec.canMove = true)
    (height : α) (n : ℕ) : s.Changed (s.request (.float b height n)) b p (p.startFloat height n) :=
  ⟨hs.request _, sprite?_onMovable hp movable _, fun _ hc => sprite?_onMovable_of_ne hc _⟩

theorem jump (hs : s.Regular) (hp : s.sprite? b = some p) (movable : p.spec.canMove = true)
    (peak : α) (n : ℕ) : s.Changed (s.request (.jump b peak n)) b p (p.startJump peak n) :=
  ⟨hs.request _, sprite?_onMovable hp movable _, fun _ hc => sprite?_onMovable_of_ne hc _⟩

theorem opacity (hs : s.Regular) (hp : s.sprite? b = some p) (opacity : UInt8) (n : ℕ) :
    s.Changed (s.request (.opacity b opacity n)) b p (p.startOpacity opacity n) where
  regular := hs.request _
  changed := by
    show (s.onSprite b _).sprite? b = _
    rw [sprite?_onSprite, if_pos rfl, hp]
    rfl
  others c hc := by
    show (s.onSprite b _).sprite? c = _
    rw [sprite?_onSprite, if_neg hc]

end Changed

section Laws

variable {s : Stage ℚ} {b : BattlerId} {p : Sprite ℚ} {n : ℕ}

/-- What a move does on the stage: the sprite eases to its destination, and the wait for moves
holds until it is there, unless somebody else is moving still. -/
theorem position_eases (hs : s.Regular) (hp : s.sprite? b = some p) (hn : 1 ≤ n)
    (d : Destination ℚ) (movable : p.spec.canMove) :
    ∃ course, (s.request (.move b d n)).RunsThrough b course ∧
      PointEases p.position (destinationPoint b p d) n (fun k => (course k).position) ∧
      ∀ k, ((s.request (.move b d n)).afterFrames k).isAnyMoving ↔
        k < n ∨ s.OthersLeft b (·.moveFrames) k := by
  have hchanged := Changed.move hs hp movable d n
  refine ⟨_, hchanged.runsThrough, p.position_eases _ hn, ?_⟩
  exact hchanged.any_iff (·.moveFrames) fun q _ => q.moveFrames_advance

/-- What a float does on the stage: the sprite eases to its height, and the wait for floats holds
meanwhile. -/
theorem floatHeight_eases (hs : s.Regular) (hp : s.sprite? b = some p) (hn : 1 ≤ n) (height : ℚ)
    (movable : p.spec.canMove) :
    ∃ course, (s.request (.float b height n)).RunsThrough b course ∧
      Eases p.floatHeight height n (fun k => (course k).floatHeight) ∧
      ∀ k, ((s.request (.float b height n)).afterFrames k).isAnyFloating ↔
        k < n ∨ s.OthersLeft b (·.floatFrames) k := by
  have hchanged := Changed.float hs hp movable height n
  have hframes : (p.startFloat height n).floatFrames = n := max_eq_left hn
  refine ⟨_, hchanged.runsThrough, p.floatHeight_eases height hn, fun k => ?_⟩
  have hany := hchanged.any_iff (·.floatFrames) (fun q _ => q.floatFrames_advance) k
  rwa [hframes] at hany

/-- What a fade does on the stage: the sprite eases to its opacity, and the wait for fades holds
meanwhile. -/
theorem opacity_eases (hs : s.Regular) (hp : s.sprite? b = some p) (hn : 1 ≤ n) (opacity : UInt8)
    (hmax : n ≤ int32Max) :
    ∃ course, (s.request (.opacity b opacity n)).RunsThrough b course ∧
      Eases p.opacity opacity.toNat n (fun k => (course k).opacity) ∧
      ∀ k, ((s.request (.opacity b opacity n)).afterFrames k).isOpacityChanging ↔
        k < n ∨ s.OthersLeft b (·.opacityFrames.toNat) k := by
  have hchanged := Changed.opacity hs hp opacity n
  refine ⟨_, hchanged.runsThrough, p.opacity_eases opacity hn hmax, fun k => ?_⟩
  have hframes : (p.startOpacity opacity n).opacityFrames.toNat = n := by
    rw [(p.startOpacity_spec opacity hn hmax).2, Int.toNat_natCast]
  have hany := hchanged.any_iff (·.opacityFrames.toNat)
    (fun q hq => Sprite.opacityFrames_advance hq) k
  rw [hframes] at hany
  rw [← hany, isOpacityChanging]
  -- the counter may be negative, and is used up then as well
  refine Eq.congr (congrArg (List.any _) (funext fun q => decide_eq_decide.mpr ?_)) rfl
  omega

/-- What a jump does on the stage: the sprite goes up and comes down, and the wait for jumps holds
meanwhile. -/
theorem jumpHeight_arcs (hs : s.Regular) (hp : s.sprite? b = some p) (hn : 1 ≤ n) (peak : ℚ)
    (movable : p.spec.canMove) :
    ∃ course, (s.request (.jump b peak n)).RunsThrough b course ∧
      (∀ k ≤ n, (course k).jumpHeight = 4 * peak * (k * (n - k)) / n ^ 2) ∧
      (∀ k, n ≤ k → (course k).jumpHeight = 0) ∧
      ∀ k, ((s.request (.jump b peak n)).afterFrames k).isAnyJumping ↔
        k < n ∨ s.OthersLeft b (·.jumpFrames) k := by
  have hchanged := Changed.jump hs hp movable peak n
  refine ⟨_, hchanged.runsThrough, fun k => p.jumpHeight_arcs peak hn,
    fun k => p.jumpHeight_landed peak, ?_⟩
  exact hchanged.any_iff (·.jumpFrames) fun q _ => q.jumpFrames_advance

end Laws

end Stage

/-! ## All together -/

/-- **Everything eases by equal parts and lands on its target.** From wherever it is, within `n`
frames without another request: the camera pans to a target that stays, and zooms to a scale; a
sprite that can be moved goes to the point that its destination means and floats to a height, and
any sprite fades to an opacity. All of these are under way before the last of the frames and not
after it; a stage, which is asked for all sprites at once, also says so while somebody else's sprite
is on such a way. A jump goes up to its peak and down again. A regular stage stays regular, so that
the laws hold anew at any frame after a request. -/
theorem everything_eases :
    (∀ (c c' : Camera ℚ) (n : ℕ) (target : Point ℚ), c.Pans n c' → 1 ≤ n →
      PointEases c.position target n (fun k => (c'.afterFrames (fun _ => target) k).position) ∧
      ∀ k, (c'.afterFrames (fun _ => target) k).isPanning ↔ k < n) ∧
    (∀ (c : Camera ℚ) (scale : ℚ) (n : ℕ) (targets : ℕ → Point ℚ), 1 ≤ n →
      Eases c.zoom scale n (fun k => ((c.startZoom scale n).afterFrames targets k).zoom) ∧
      ∀ k, ((c.startZoom scale n).afterFrames targets k).isZooming ↔ k < n) ∧
    ∀ (s : Stage ℚ) (b : BattlerId) (p : Sprite ℚ) (n : ℕ),
      s.Regular → s.sprite? b = some p → 1 ≤ n →
      (∀ d, p.spec.canMove →
        ∃ course, (s.request (.move b d n)).RunsThrough b course ∧
          PointEases p.position (Stage.destinationPoint b p d) n (fun k => (course k).position) ∧
          ∀ k, ((s.request (.move b d n)).afterFrames k).isAnyMoving ↔
            k < n ∨ s.OthersLeft b (·.moveFrames) k) ∧
      (∀ height, p.spec.canMove →
        ∃ course, (s.request (.float b height n)).RunsThrough b course ∧
          Eases p.floatHeight height n (fun k => (course k).floatHeight) ∧
          ∀ k, ((s.request (.float b height n)).afterFrames k).isAnyFloating ↔
            k < n ∨ s.OthersLeft b (·.floatFrames) k) ∧
      (∀ opacity : UInt8, n ≤ int32Max →
        ∃ course, (s.request (.opacity b opacity n)).RunsThrough b course ∧
          Eases p.opacity opacity.toNat n (fun k => (course k).opacity) ∧
          ∀ k, ((s.request (.opacity b opacity n)).afterFrames k).isOpacityChanging ↔
            k < n ∨ s.OthersLeft b (·.opacityFrames.toNat) k) ∧
      (∀ peak, p.spec.canMove →
        ∃ course, (s.request (.jump b peak n)).RunsThrough b course ∧
          (∀ k ≤ n, (course k).jumpHeight = 4 * peak * (k * (n - k)) / n ^ 2) ∧
          (∀ k, n ≤ k → (course k).jumpHeight = 0) ∧
          ∀ k, ((s.request (.jump b peak n)).afterFrames k).isAnyJumping ↔
            k < n ∨ s.OthersLeft b (·.jumpFrames) k) ∧
      ∀ r k, ((s.request r).afterFrames k).Regular := by
  refine ⟨?_, ?_, ?_⟩
  · intro c c' n target h hn
    exact Camera.position_eases h hn target
  · intro c scale n targets hn
    exact c.zoom_eases scale hn targets
  · intro s b p n hs hp hn
    refine ⟨?_, ?_, ?_, ?_, ?_⟩
    · exact Stage.position_eases hs hp hn
    · exact Stage.floatHeight_eases hs hp hn
    · exact Stage.opacity_eases hs hp hn
    · exact Stage.jumpHeight_arcs hs hp hn
    · intro r k
      exact (hs.request r).afterFrames k

/-- The camera pans for four frames, of which one is over. Meanwhile an actor goes half of such a
way, and from there home in six frames; and it jumps and fades. -/
theorem everything_eases_meanwhile :
    let camera : Camera ℚ := .ofBounds ⟨816, 624⟩
    let panning := (camera.panTo ⟨100, 200⟩ 4).afterFrames (fun _ => ⟨100, 200⟩) 1
    let ann : SpriteSpec ℚ := ⟨⟨600, 300⟩, 64, 64, true⟩
    let s : Stage ℚ := Stage.afterEvents {} [.enter (.actor 0) ann]
    let turned := (s.request (.move (.actor 0) (.forward 48) 4)).afterFrames 2
    (panning.position.x = 331 ∧ panning.isPanning) ∧
    (s.Regular ∧ turned.Regular) ∧
    (∃ course, (turned.request (.move (.actor 0) .home 6)).RunsThrough (.actor 0) course ∧
      (course 0).position.x = 576 ∧ (course 3).position.x = 588 ∧ (course 6).position.x = 600) ∧
    (∃ course, (s.request (.opacity (.actor 0) 55 10)).RunsThrough (.actor 0) course ∧
      (course 1).opacity = 235) ∧
    ∃ course, (s.request (.jump (.actor 0) 2 20)).RunsThrough (.actor 0) course ∧
      (course 10).jumpHeight = 2 := by
  intro camera panning ann s turned
  have hs : s.Regular := Stage.regular_afterEvents (Stage.regular_opened {}) _
  obtain ⟨hmove, -, -, -, hregular⟩ :=
    everything_eases.2.2 s (.actor 0) (.atHome ann) 4 hs rfl (by decide)
  have hturned : turned.Regular := hregular (.move (.actor 0) (.forward 48) 4) 2
  refine ⟨?_, ⟨hs, hturned⟩, ?_, ?_, ?_⟩
  · obtain ⟨⟨hx, -⟩, hpanning⟩ :=
      everything_eases.1 camera _ 4 ⟨100, 200⟩ (.goal ⟨100, 200⟩) (by decide)
    have hcentre : camera.position.x = 408 := by decide +kernel
    have hone := hx.linear 1 (by decide)
    rw [hcentre] at hone
    exact ⟨hone.trans (by norm_num), (hpanning 1).mpr (by decide)⟩
  · obtain ⟨way, hway, ⟨hx, -⟩, -⟩ := hmove (.forward 48) rfl
    have hhalf : (way 2).position.x = 576 := (hx.linear 2 (by decide)).trans (by decide +kernel)
    have hfound : (turned.sprite? (.actor 0)).map (·.spec) = some ann := rfl
    have hspec : (way 2).spec = ann := by
      rw [hway 2] at hfound
      exact Option.some.inj hfound
    obtain ⟨hmove, -⟩ :=
      everything_eases.2.2 turned (.actor 0) (way 2) 6 hturned (hway 2) (by decide)
    obtain ⟨course, hcourse, ⟨hx, -⟩, -⟩ := hmove .home (by rw [hspec])
    have htarget : (Stage.destinationPoint (.actor 0) (way 2) .home).x = 600 :=
      congrArg (·.home.x) hspec
    rw [hhalf, htarget] at hx
    refine ⟨course, hcourse, (hx.linear 0 (by decide)).trans ?_, (hx.linear 3 (by decide)).trans ?_,
      hx.lands⟩ <;> norm_num
  · obtain ⟨-, -, hfade, -⟩ :=
      everything_eases.2.2 s (.actor 0) (.atHome ann) 10 hs rfl (by decide)
    obtain ⟨course, hcourse, hopacity, -⟩ := hfade 55 (by decide)
    exact ⟨course, hcourse, (hopacity.linear 1 (by decide)).trans (by decide +kernel)⟩
  · obtain ⟨-, -, -, hjump, -⟩ :=
      everything_eases.2.2 s (.actor 0) (.atHome ann) 20 hs rfl (by decide)
    obtain ⟨course, hcourse, harc, -⟩ := hjump 2 rfl
    exact ⟨course, hcourse, (harc 10 (by decide)).trans (by norm_num)⟩

end BattleScript
