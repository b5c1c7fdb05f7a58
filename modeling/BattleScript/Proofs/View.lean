import BattleScript.Proofs.Standard.Moments

/-!
# A view that stays put

Where scripts may not use the camera it is at rest: it looks at the centre of the field, follows
nobody, and has its natural scale to zoom to (`Camera.AtRest`). It is still reset, by scripts as
well as by the end of an action, and every frame moves it; but that leaves it at rest. Where there
is no side view besides, no sprite is sent, lifted or made to jump, so that all of them stay at home
(`Sprite.AtHome`).

`Battle.Edit` already says of each change what a command has tested before it makes it. So it is
enough to see that edits and frames keep the view (`Battle.Unturned.kept`), and it is kept at every
moment of any number of actions (`Scenario.view_stays_put`).
-/

namespace BattleScript

/-! ## A camera at rest -/

section Rest

variable {α : Type} [Scalar α]

/-- The camera looks at the centre of the field, with no offset and no group to follow; it is kept
on the field, and at its natural scale or on the way there. -/
structure Camera.AtRest (bounds : Bounds α) (c : Camera α) : Prop where
  goal : c.goal = bounds.center
  offset : c.offset = .zero
  focus : c.focus = []
  clamped : c.clamped = true
  zoomTarget : c.zoomTarget = 1

namespace Camera.AtRest

variable {bounds : Bounds α} {c : Camera α}

/-- A camera is at rest to begin with. -/
theorem ofBounds : (Camera.ofBounds bounds).AtRest bounds := ⟨rfl, rfl, rfl, rfl, rfl⟩

/-- A reset brings the camera to where it rests. -/
theorem reset (h : c.AtRest bounds) (frames : Nat) : (c.reset bounds frames).AtRest bounds :=
  { h with goal := rfl, offset := rfl, focus := rfl, clamped := rfl }

/-- A zoom to the natural scale. -/
theorem startZoom (h : c.AtRest bounds) (frames : Nat) : (c.startZoom 1 frames).AtRest bounds :=
  { h with zoomTarget := rfl }

/-- A frame moves the camera, but gives it nothing else to look at. -/
theorem advance (h : c.AtRest bounds) (target : Point α) : (c.advance target).AtRest bounds :=
  { h with }

end Camera.AtRest

/-- The sprite is where it belongs and is sent nowhere else, and it is on the ground. -/
structure Sprite.AtHome (p : Sprite α) : Prop where
  position : p.position = p.spec.home
  destination : p.destination = p.spec.home
  floatHeight : p.floatHeight = 0
  jumpHeight : p.jumpHeight = 0

/-- Who stands is at home. -/
theorem Sprite.Standing.atHome {p : Sprite α} (h : p.Standing) : p.AtHome :=
  ⟨h.position, h.destination, h.floatHeight, h.jumpHeight⟩

end Rest

/-! ## What turns the view -/

namespace Battle

/-- Since the first battle the view was not turned: the camera is at rest, and without side view
every sprite stands at home. Home is where it was. -/
structure Unturned (b₀ b : Battle) : Prop where
  settings : b.settings = b₀.settings
  camera : b.camera.AtRest b₀.settings.bounds
  specs : b.stage.specs = b₀.stage.specs
  standing : b₀.settings.sideView = false → b.stage.Every Sprite.Standing

namespace Unturned

variable {b₀ b b' : Battle}

/-- Where scripts may not use the camera, no edit turns the view. -/
theorem edit {a : Aspect} (disabled : b₀.settings.cameraEnabled = false) (edit : Edit a b b')
    (h : b₀.Unturned b) : b₀.Unturned b' := by
  cases edit with
  | @request b r standing =>
    refine { h with specs := (b.stage.specs_request r).trans h.specs, standing := fun flat => ?_ }
    -- without side view the request is none that sprites follow
    have hflat : ¬ b.settings.sideView := by simp [h.settings, flat]
    exact (h.standing flat).standing_request (standing.resolve_right hflat)
  | camera _ _ enabled =>
    rw [h.settings, disabled] at enabled
    cases enabled
  | resetCamera _ frames => exact { h with camera := h.settings ▸ h.camera.reset frames }
  | resetZoom _ frames => exact { h with camera := h.camera.startZoom frames }
  | _ => exact { h with }

/-- A frame moves what is under way, and nothing is. -/
theorem advance (h : b₀.Unturned b) : b₀.Unturned b.advance where
  settings := h.settings
  camera := h.camera.advance _
  specs := b.stage.specs_advance.trans h.specs
  standing flat := (h.standing flat).advance fun _ => Sprite.Standing.advance

/-- So it is kept by all that happens in an action. -/
theorem kept (disabled : b₀.settings.cameraEnabled = false) : Kept (Unturned b₀) :=
  ⟨Unturned.edit disabled, Unturned.advance⟩

end Unturned

end Battle

namespace Scenario

/-- A battle begins with its view unturned. -/
theorem unturned_of_build {s : Scenario} {b : Battle} {r : Runner} (built : s.build? = .ok (b, r)) :
    s.battle.Unturned b := by
  have hbattle : s.battle.Unturned s.battle :=
    { settings := rfl
      camera := (Camera.AtRest.ofBounds.reset 0).startZoom 1
      specs := rfl
      standing _ := s.every_stage Sprite.standing_atHome }
  obtain ⟨l, hl⟩ := s.battle.exists_payCooldowns_eq s.subject s.item
  have hb : b = { s.battle with cooldowns := l } :=
    (congrArg Prod.snd (build?_eq_ok built)).trans hl
  exact hb ▸ { hbattle with }

/-- **The view stays put.** If scripts may not use the camera in a battle of a scenario, then the
camera is at rest at every moment of the action and of all actions after it. If the battle has no
side view either, then every sprite that the scenario describes is at home all the time. -/
theorem view_stays_put {s : Scenario} {b : Battle} {r : Runner} (built : s.build? = .ok (b, r))
    (disabled : b.settings.cameraEnabled = false) (frames : Nat) (plays : List Play) :
    ∀ m ∈ b :: Runner.momentsOver .standard frames (r, b) ++
        (Runner.afterFrames .standard frames (r, b)).2.moments plays,
      m.camera.AtRest b.settings.bounds ∧
        (b.settings.sideView = false →
          m.stage.specs = s.stage.specs ∧ m.stage.Every Sprite.AtHome) := by
  have hstart : s.battle.Unturned b := unturned_of_build built
  rw [hstart.settings] at disabled ⊢
  have kept : Battle.Kept (Battle.Unturned s.battle) := Battle.Unturned.kept disabled
  have hend := kept.afterFrames frames (s := (r, b)) hstart
  have hall : ∀ m ∈ b :: Runner.momentsOver .standard frames (r, b) ++
      (Runner.afterFrames .standard frames (r, b)).2.moments plays, s.battle.Unturned m := by
    rw [List.forall_mem_append, List.forall_mem_cons]
    refine ⟨⟨hstart, kept.momentsOver frames hstart⟩, ?_⟩
    -- neither turns nor steps have to do with the view
    exact kept.moments (fun _ _ h => { h with }) (fun _ h => { h with }) plays hend
  intro m hm
  have h := hall m hm
  exact ⟨h.camera, fun flat => ⟨h.specs, fun p hp => (h.standing flat p hp).atHome⟩⟩

/-- An action without side view that would move the user, have it jump, and zoom. -/
def frontal : Scenario where
  settings := { sideView := false }
  party := [{ name := "Ann", mhp := 10, sprite := some ⟨⟨600, 300⟩, 64, 64, true⟩ }]
  troop := [{ name := "Bat", mhp := 10, sprite := some ⟨⟨200, 300⟩, 96, 96, true⟩ }]
  skills := [{
    id := 1
    name := "Leap"
    note := "<setup action>\nmove user: targets\njump user: 100%\nzoom: 200%\n</setup action>" }]
  subject := .actor 0
  targets := [.enemy 0]
  item := .skill 1

/-- The action is played for 200 frames, the turn ends, and it is played again. -/
theorem view_stays_put_frontal :
    ∃ b r, frontal.build? = .ok (b, r) ∧ b.settings.cameraEnabled = false ∧
      ∀ m ∈ b :: Runner.momentsOver .standard 200 (r, b) ++
          (Runner.afterFrames .standard 200 (r, b)).2.moments
            [⟨frontal.context, 200, { endTurn := true }⟩],
        m.camera.AtRest b.settings.bounds ∧ m.stage.Every Sprite.AtHome := by
  refine ⟨_, _, rfl, rfl, fun m hm => ?_⟩
  obtain ⟨hcamera, hsprites⟩ := view_stays_put (s := frontal) rfl rfl 200 _ m hm
  exact ⟨hcamera, (hsprites rfl).2⟩

end Scenario

end BattleScript
