import BattleScript.Proofs.Stage.History

/-!
# Fixed sprites

A sprite that cannot be moved never leaves home (`Stage.fixed_sprite_never_leaves_home`). There are
two reasons for a sprite to stay as it is. A request means nothing to sprites other than that of the
battler whom it names alone (`Stage.sprite?_request_of_named_ne`); and of the requests that name the
battler, those that would send, lift or make it jump are not for a sprite that cannot be moved. All
others leave it standing, and so does a frame, for nothing is under way that a frame could move on
(`Sprite.Standing.advance`).
-/

namespace BattleScript

variable {α : Type}

/-! ## Whom a request names -/

/-- The battlers that a request names. -/
def StageRequest.named : StageRequest α → List BattlerId
  | .displayAction b _ | .displayResults b _ | .perform b _ | .castAnimation b _ => [b]
  | .animation bs .. => bs
  | .attackAnimation b bs _ => b :: bs
  | .actionEffect b c _ => [b, c]
  | .damagePopup b | .collapse b | .effect b _ | .motion b _ | .performAttack b => [b]
  | .move b .. | .face b _ | .float b .. | .jump b .. | .opacity b .. => [b]
  | .clearLog | .refreshStatus | .flash .. | .tint .. | .shake .. | .fade .. | .battleHud _ => []

namespace Stage

section Others

variable {s : Stage α} {b c : BattlerId}

/-- A change of one sprite is no change of another. -/
theorem sprite?_onSprite_of_ne (h : [c] ≠ [b]) (f : Sprite α → Sprite α) :
    (s.onSprite c f).sprite? b = s.sprite? b := by
  have hne : b ≠ c := by
    rintro rfl
    exact h rfl
  rw [sprite?_onSprite, if_neg hne]

/-- A request changes no sprite but that of the battler whom it names alone. -/
theorem sprite?_request_of_named_ne [Scalar α] {r : StageRequest α} (h : r.named ≠ [b]) :
    (s.request r).sprite? b = s.sprite? b := by
  show (s.react r).sprite? b = s.sprite? b
  -- requests that name several battlers, or nobody, change no sprite at all
  cases r with
  | collapse c | motion c | performAttack c | face c | opacity c | move c | float c | jump c =>
    exact sprite?_onSprite_of_ne h _
  | effect c e => cases e <;> exact sprite?_onSprite_of_ne h _
  | actionEffect _ c | damagePopup c =>
    simp only [react]
    split <;> rfl
  | _ => rfl

end Others

/-! ## Standing where nobody can move it -/

/-- The battler has a sprite that is described so, and it stands at home. -/
def HasStanding [Scalar α] (s : Stage α) (b : BattlerId) (spec : SpriteSpec α) : Prop :=
  ∃ p, s.sprite? b = some p ∧ p.spec = spec ∧ p.Standing

namespace HasStanding

variable [Scalar α] {s : Stage α} {b : BattlerId} {spec : SpriteSpec α}

/-- Who comes on the stage stands at home. -/
theorem addSprite (s : Stage α) (b : BattlerId) (spec : SpriteSpec α) :
    (s.addSprite b spec).HasStanding b spec := by
  refine ⟨.atHome spec, ?_, rfl, Sprite.standing_atHome spec⟩
  rw [sprite?_addSprite, if_pos rfl]

/-- A change that leaves sprites standing leaves this one standing. -/
theorem onSprite (h : s.HasStanding b spec) (c : BattlerId) {f : Sprite α → Sprite α}
    (hf : ∀ p, p.Standing → (f p).spec = p.spec ∧ (f p).Standing) :
    (s.onSprite c f).HasStanding b spec := by
  obtain ⟨p, hp, hspec, hstanding⟩ := h
  obtain ⟨hsame, hf⟩ := hf p hstanding
  by_cases hc : b = c
  · exact ⟨f p, by rw [sprite?_onSprite, if_pos hc, hp]; rfl, hsame.trans hspec, hf⟩
  · exact ⟨p, by rw [sprite?_onSprite, if_neg hc, hp], hspec, hstanding⟩

/-- A change of sprites that can be moved is none of this one. -/
theorem onMovable (h : s.HasStanding b spec) (fixed : spec.canMove = false) (c : BattlerId)
    (f : Sprite α → Sprite α) : (s.onMovable c f).HasStanding b spec := by
  obtain ⟨p, hp, hspec, hstanding⟩ := h
  -- such a change passes over sprites that cannot be moved
  have hskip : (if p.spec.canMove then f p else p) = p := by
    rw [hspec, fixed]
    rfl
  refine ⟨p, ?_, hspec, hstanding⟩
  rw [Stage.onMovable, sprite?_onSprite, hp]
  split
  · exact congrArg some hskip
  · rfl

/-- No request moves a sprite that cannot be moved. -/
theorem request (h : s.HasStanding b spec) (fixed : spec.canMove = false) (r : StageRequest α) :
    (s.request r).HasStanding b spec := by
  show (s.react r).HasStanding b spec
  -- moves, floats and jumps are for sprites that can be moved; the rest is looks and facing
  cases r with
  | move c | float c | jump c => exact h.onMovable fixed c _
  | collapse c | motion c | performAttack c | face c | opacity c =>
    exact h.onSprite c fun p hp => ⟨rfl, { hp with }⟩
  | effect c e => cases e <;> exact h.onSprite c fun p hp => ⟨rfl, { hp with }⟩
  | actionEffect _ c | damagePopup c =>
    simp only [react]
    split <;> exact h
  | _ => exact h

/-- A frame moves only what is under way. -/
theorem advance (h : s.HasStanding b spec) : s.advance.HasStanding b spec := by
  obtain ⟨p, hp, hspec, hstanding⟩ := h
  refine ⟨p.advance, ?_, p.spec_advance.trans hspec, hstanding.advance⟩
  rw [sprite?_advance, hp]
  rfl

/-- Nothing moves the sprite, unless the battler comes on the stage anew. -/
theorem occur (h : s.HasStanding b spec) (fixed : spec.canMove = false) {e : StageEvent α}
    (he : ∀ spec', e ≠ .enter b spec') : (s.occur e).HasStanding b spec := by
  cases e with
  | request r => exact h.request fixed r
  | frame => exact h.advance
  | enter c spec' =>
    have hne : b ≠ c := by
      rintro rfl
      exact he spec' rfl
    obtain ⟨p, hp, hrest⟩ := h
    refine ⟨p, ?_, hrest⟩
    show (s.addSprite c spec').sprite? b = some p
    rw [sprite?_addSprite, if_neg hne, hp]

/-- The sprite stays where it is, whatever happens, as long as the battler does not come on anew.
-/
theorem afterEvents (h : s.HasStanding b spec) (fixed : spec.canMove = false)
    {events : List (StageEvent α)} (hevents : ∀ e ∈ events, ∀ spec', e ≠ .enter b spec') :
    (s.afterEvents events).HasStanding b spec := by
  induction events generalizing s with
  | nil => exact h
  | cons e events ih =>
    obtain ⟨he, hevents⟩ := List.forall_mem_cons.mp hevents
    exact ih (h.occur fixed he) hevents

end HasStanding

/-! ## The whole history -/

/-- A wait for a counter that a sprite has used up is a wait for somebody else's. -/
theorem any_of_other {s : Stage α} (hs : s.Regular) {b : BattlerId} {p : Sprite α}
    (hp : s.sprite? b = some p) {count : Sprite α → Nat} (hzero : count p = 0)
    (hany : s.sprites.values.any (0 < count ·)) :
    ∃ c q, c ≠ b ∧ s.sprite? c = some q ∧ 0 < count q := by
  obtain ⟨c, q, hq, hbusy⟩ := (any_iff hs).mp hany
  have hpos : 0 < count q := of_decide_eq_true hbusy
  refine ⟨c, q, ?_, hq, hpos⟩
  rintro rfl
  obtain rfl := Option.some.inj (hp.symm.trans hq)
  omega

variable [Scalar α]

/-- **Fixed sprites never leave home.** A battler came on a stage with a sprite that cannot be
moved, whatever had happened there before. From then on, whatever happens in whatever order, as long
as the battler does not come anew: the sprite is described as it was, its home is its position and
its destination, and it neither floats nor jumps; if a wait for movements, floats or jumps holds,
then for the sprite of somebody else; and a request that does not name this battler alone means
nothing to the sprite. -/
theorem fixed_sprite_never_leaves_home (timings : Timings) (before after : List (StageEvent α))
    {b : BattlerId} {spec : SpriteSpec α} (fixed : spec.canMove = false)
    (stays : ∀ e ∈ after, ∀ spec', e ≠ .enter b spec') :
    let s := afterEvents { timings := timings } (before ++ .enter b spec :: after)
    (∃ p, s.sprite? b = some p ∧ p.spec = spec ∧ p.position = spec.home ∧
      p.destination = spec.home ∧ p.floatHeight = 0 ∧ p.jumpHeight = 0) ∧
    (s.isAnyMoving → ∃ c q, c ≠ b ∧ s.sprite? c = some q ∧ 0 < q.moveFrames) ∧
    (s.isAnyFloating → ∃ c q, c ≠ b ∧ s.sprite? c = some q ∧ 0 < q.floatFrames) ∧
    (s.isAnyJumping → ∃ c q, c ≠ b ∧ s.sprite? c = some q ∧ 0 < q.jumpFrames) ∧
    ∀ r : StageRequest α, r.named ≠ [b] → (s.request r).sprite? b = s.sprite? b := by
  intro s
  have hregular : s.Regular := regular_afterEvents (regular_opened timings) _
  have hstanding : s.HasStanding b spec := by
    show HasStanding (afterEvents _ (before ++ .enter b spec :: after)) b spec
    rw [afterEvents, List.foldl_append, List.foldl_cons]
    exact (HasStanding.addSprite _ b spec).afterEvents fixed stays
  obtain ⟨p, hp, rfl, h⟩ := hstanding
  refine ⟨⟨p, hp, rfl, h.position, h.destination, h.floatHeight, h.jumpHeight⟩, ?_, ?_, ?_, ?_⟩
  · exact any_of_other hregular hp h.moveFrames
  · exact any_of_other hregular hp h.floatFrames
  · exact any_of_other hregular hp h.jumpFrames
  · intro r hr
    exact sprite?_request_of_named_ne hr

/-- A statue is sent away, and it and its neighbour are made to jump. -/
theorem fixed_sprite_never_leaves_home_statue :
    let statue : SpriteSpec Float := ⟨⟨200, 300⟩, 96, 96, false⟩
    let acrobat : SpriteSpec Float := ⟨⟨300, 300⟩, 64, 64, true⟩
    let after : List (StageEvent Float) :=
      [.request (.move (.enemy 0) (.forward 48) 4), .frame, .request (.jump (.enemy 0) 2 20),
        .request (.jump (.enemy 1) 2 20), .frame]
    let s := afterEvents {} ([.enter (.enemy 1) acrobat] ++ .enter (.enemy 0) statue :: after)
    statue.canMove = false ∧ (∀ e ∈ after, ∀ spec', e ≠ .enter (.enemy 0) spec') ∧
      (∃ p, s.sprite? (.enemy 0) = some p ∧ p.position = statue.home ∧ p.jumpHeight = 0) ∧
      s.isAnyJumping := by
  intro statue acrobat after s
  have stays : ∀ e ∈ after, ∀ spec', e ≠ .enter (.enemy 0) spec' := by simp [after]
  have fixed : statue.canMove = false := rfl
  obtain ⟨⟨p, hp, -, hposition, -, -, hjump⟩, -⟩ :=
    fixed_sprite_never_leaves_home {} [.enter (.enemy 1) acrobat] after fixed stays
  exact ⟨fixed, stays, ⟨p, hp, hposition, hjump⟩, rfl⟩

end Stage

end BattleScript
