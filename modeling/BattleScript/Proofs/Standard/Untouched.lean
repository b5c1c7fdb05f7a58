import BattleScript.Proofs.Standard.Moments

/-!
# What commands and actions leave alone

A script is given the whole battle, but it plays no more than its part in it. What a command changes
are some aspects of the battle, those of its pack; in all others the battle is the same as before
(`Battle.SameBut`). And no command, no frame and no end of an action changes the rules, the
database, the count of steps, who takes part, or what a battler is by nature (`Battle.SameGame`).

The battlers are compared place by place, so a side neither grows nor shrinks
(`Battle.SameGame.length_party`, `Battle.SameGame.length_troop`).
-/

namespace BattleScript

namespace Battle

/-- The battles are of one game: they have the same rules, the same database and the same count of
steps, and at every place the same battler, however it fares. -/
structure SameGame (b b' : Battle) : Prop where
  settings : b'.settings = b.settings
  database : b'.database = b.database
  steps : b'.steps = b.steps
  battlers : ∀ id, (b'.roster.get? id).map Battler.sheet = (b.roster.get? id).map Battler.sheet

/-- The battles are of one game, and they are the same but for some aspects. -/
structure SameBut (aspects : List Aspect) (b b' : Battle) : Prop extends SameGame b b' where
  frame : b'.frame = b.frame
  stage : .stage ∉ aspects → b'.stage = b.stage
  roster : .roster ∉ aspects → b'.roster = b.roster
  camera : .camera ∉ aspects → b'.camera = b.camera
  cooldowns : .cooldowns ∉ aspects → b'.cooldowns = b.cooldowns
  stores : .stores ∉ aspects →
    b'.switches = b.switches ∧ b'.«variables» = b.«variables» ∧ b'.inventory = b.inventory ∧
      b'.commonEvents = b.commonEvents
  music : .music ∉ aspects → b'.memorized = b.memorized ∧ b'.mixer = b.mixer
  breach : .breach ∉ aspects → b'.breach = b.breach

variable {b b' b'' : Battle} {aspects : List Aspect}

/-! ## Battles of one game -/

namespace SameGame

theorem refl (b : Battle) : SameGame b b := ⟨rfl, rfl, rfl, fun _ => rfl⟩

theorem trans (h : b.SameGame b') (h' : b'.SameGame b'') : b.SameGame b'' where
  settings := h'.settings.trans h.settings
  database := h'.database.trans h.database
  steps := h'.steps.trans h.steps
  battlers id := (h'.battlers id).trans (h.battlers id)

/-- What the battlers of a side are by nature, in their order. -/
theorem map_party (h : b.SameGame b') :
    b'.roster.party.map Battler.sheet = b.roster.party.map Battler.sheet :=
  List.ext_getElem? fun i => by
    rw [List.getElem?_map, List.getElem?_map]
    exact h.battlers (.actor i)

theorem map_troop (h : b.SameGame b') :
    b'.roster.troop.map Battler.sheet = b.roster.troop.map Battler.sheet :=
  List.ext_getElem? fun i => by
    rw [List.getElem?_map, List.getElem?_map]
    exact h.battlers (.enemy i)

/-- The party neither grows nor shrinks. -/
theorem length_party (h : b.SameGame b') : b'.roster.party.length = b.roster.party.length := by
  simpa using congrArg List.length h.map_party

theorem length_troop (h : b.SameGame b') : b'.roster.troop.length = b.roster.troop.length := by
  simpa using congrArg List.length h.map_troop

/-- A battler is found again, with the same sheet. -/
theorem exists_battler (h : b.SameGame b') {id : BattlerId} {x : Battler}
    (hx : b.roster.get? id = some x) : ∃ y, b'.roster.get? id = some y ∧ y.sheet = x.sheet := by
  have hbattler := h.battlers id
  rw [hx] at hbattler
  exact Option.map_eq_some_iff.mp hbattler

end SameGame

/-! ## Battles that are the same but for some aspects -/

namespace SameBut

theorem refl (b : Battle) : SameBut aspects b b where
  toSameGame := .refl b
  frame := rfl
  stage _ := rfl
  roster _ := rfl
  camera _ := rfl
  cooldowns _ := rfl
  stores _ := ⟨rfl, rfl, rfl, rfl⟩
  music _ := ⟨rfl, rfl⟩
  breach _ := rfl

/-- What two changes in a row leave alone both left alone. -/
theorem trans (h : SameBut aspects b b') (h' : SameBut aspects b' b'') :
    SameBut aspects b b'' where
  toSameGame := h.toSameGame.trans h'.toSameGame
  frame := h'.frame.trans h.frame
  stage hn := (h'.stage hn).trans (h.stage hn)
  roster hn := (h'.roster hn).trans (h.roster hn)
  camera hn := (h'.camera hn).trans (h.camera hn)
  cooldowns hn := (h'.cooldowns hn).trans (h.cooldowns hn)
  stores hn := by
    obtain ⟨hs, hv, hi, he⟩ := h.stores hn
    obtain ⟨hs', hv', hi', he'⟩ := h'.stores hn
    exact ⟨hs'.trans hs, hv'.trans hv, hi'.trans hi, he'.trans he⟩
  music hn := ⟨(h'.music hn).1.trans (h.music hn).1, (h'.music hn).2.trans (h.music hn).2⟩
  breach hn := (h'.breach hn).trans (h.breach hn)

/-- If the stage, the camera and the cooldowns are all that may differ, nothing else does. -/
theorem eq_of_show (h : SameBut aspects b b')
    (looks : ∀ a ∈ aspects, a ∈ [Aspect.stage, .camera, .cooldowns]) :
    b' = { b with stage := b'.stage, camera := b'.camera, cooldowns := b'.cooldowns } := by
  have hroster := h.roster fun ha => absurd (looks _ ha) (by decide)
  have hbreach := h.breach fun ha => absurd (looks _ ha) (by decide)
  obtain ⟨hswitches, hvariables, hinventory, hevents⟩ :=
    h.stores fun ha => absurd (looks _ ha) (by decide)
  obtain ⟨hmemorized, hmixer⟩ := h.music fun ha => absurd (looks _ ha) (by decide)
  -- field by field, all but three of them are known to be equal
  cases b'
  simp only [Battle.mk.injEq]
  exact ⟨h.settings, hroster, h.database, hswitches, hvariables, hinventory, trivial, trivial,
    hevents, hmemorized, trivial, hmixer, h.frame, h.steps, hbreach⟩

end SameBut

/-- An edit leaves the battle the same but for the aspect that it is made to. -/
theorem Edit.sameBut {a : Aspect} (edit : Edit a b b') (ha : a ∈ aspects) :
    SameBut aspects b b' := by
  have hrefl : SameBut aspects b b := .refl b
  cases edit with
  | request => exact { hrefl with stage := fun hn => absurd ha hn }
  | @battler _ id x y hx steps =>
    refine { hrefl with roster := fun hn => absurd ha hn, battlers := fun j => ?_ }
    rw [withBattler, Roster.get?_modify]
    split
    · next hj =>
      -- operations on a battler leave its sheet as it is
      subst hj
      rw [hx]
      exact congrArg some steps.sheet_eq
    · rfl
  | camera | resetCamera | resetZoom => exact { hrefl with camera := fun hn => absurd ha hn }
  | cooldowns => exact { hrefl with cooldowns := fun hn => absurd ha hn }
  | stores => exact { hrefl with stores := fun hn => absurd ha hn }
  | music => exact { hrefl with music := fun hn => absurd ha hn }
  | breach => exact { hrefl with breach := fun hn => absurd ha hn }

/-- A number of edits changes no aspect but those of the edits. -/
theorem Edits.sameBut (h : Edits aspects b b') : SameBut aspects b b' := by
  induction h with
  | refl => exact .refl b
  | tail _ edit ih =>
    obtain ⟨a, ha, edit⟩ := edit
    exact ih.trans (edit.sameBut ha)

/-- Edits and frames leave the battle in its game. -/
theorem SameGame.kept (b₀ : Battle) : Kept b₀.SameGame where
  edit {a _ _} edit h := h.trans (edit.sameBut (List.mem_singleton_self a)).toSameGame
  advance h := { h with }

end Battle

/-- A command that a pack claims leaves the battle the same but for the aspects of the pack. -/
theorem Command.Family.sameBut_run? {f : Family} {command : Command} {scene : Scene}
    {out : Signal × Scene} (h : f.pack.run? command scene = some out) :
    Battle.SameBut f.aspects scene.battle out.2.battle ∧
      out.2 = { scene with battle := out.2.battle } := by
  obtain ⟨hedits, hscene⟩ := edits_run? h
  exact ⟨hedits.sameBut, hscene⟩

/-- **A script owns no battler and no rule.** Whatever a runner plays in a battle, and for however
long: at every moment both sides have as many battlers as before, every battler has the sheet that
it had, and the database, the rules and the count of steps are the same; to start an action changes
none of these either. Of what a command changes, a motion command changes the stage alone, a camera
command the camera and a cooldown command the cooldowns, while no effect command changes the camera
or the cooldowns. -/
theorem Runner.scripts_own_no_rule :
    (∀ (b : Battle) (c : ActionContext), b.SameGame (start b c).2) ∧
    (∀ (r : Runner) (b : Battle) (n : Nat),
      ∀ m ∈ (afterFrames .standard n (r, b)).2 :: momentsOver .standard n (r, b),
        m.roster.party.length = b.roster.party.length ∧
        m.roster.troop.length = b.roster.troop.length ∧
        (∀ id x, b.roster.get? id = some x →
          ∃ y, m.roster.get? id = some y ∧ y.sheet = x.sheet) ∧
        m.database = b.database ∧ m.settings = b.settings ∧ m.steps = b.steps) ∧
    (∀ command scene out, MotionOp.pack.run? command scene = some out →
      out.2 = { scene with battle := { scene.battle with stage := out.2.battle.stage } }) ∧
    (∀ command scene out, CameraOp.pack.run? command scene = some out →
      out.2 = { scene with battle := { scene.battle with camera := out.2.battle.camera } }) ∧
    (∀ command scene out, CooldownOp.pack.run? command scene = some out →
      out.2 = { scene with battle := { scene.battle with cooldowns := out.2.battle.cooldowns } }) ∧
    ∀ command scene out, EffectOp.pack.run? command scene = some out →
      out.2.battle.camera = scene.battle.camera ∧
        out.2.battle.cooldowns = scene.battle.cooldowns := by
  refine ⟨fun b c => (Battle.SameGame.kept b).start c (.refl b), fun r b n m hm => ?_,
    ?_, ?_, ?_, ?_⟩
  · -- what is kept at every moment, taken at the end or in the midst of it
    have kept := Battle.SameGame.kept b
    have hgame : b.SameGame m := by
      rcases List.mem_cons.mp hm with rfl | hm
      · exact kept.afterFrames n (s := (r, b)) (.refl b)
      · exact kept.momentsOver n (s := (r, b)) (.refl b) m hm
    exact ⟨hgame.length_party, hgame.length_troop, fun _ _ => hgame.exists_battler,
      hgame.database, hgame.settings, hgame.steps⟩
  · intro command scene out h
    obtain ⟨hsame, hscene⟩ := Command.Family.sameBut_run? (f := .motion) h
    have hbattle := hsame.eq_of_show (by decide)
    rw [hsame.camera (by decide), hsame.cooldowns (by decide)] at hbattle
    exact hscene.trans (congrArg (Scene.mk · scene.context) hbattle)
  · intro command scene out h
    obtain ⟨hsame, hscene⟩ := Command.Family.sameBut_run? (f := .camera) h
    have hbattle := hsame.eq_of_show (by decide)
    rw [hsame.stage (by decide), hsame.cooldowns (by decide)] at hbattle
    exact hscene.trans (congrArg (Scene.mk · scene.context) hbattle)
  · intro command scene out h
    obtain ⟨hsame, hscene⟩ := Command.Family.sameBut_run? (f := .cooldown) h
    have hbattle := hsame.eq_of_show (by decide)
    rw [hsame.stage (by decide), hsame.camera (by decide)] at hbattle
    exact hscene.trans (congrArg (Scene.mk · scene.context) hbattle)
  · intro command scene out h
    obtain ⟨hsame, -⟩ := Command.Family.sameBut_run? (f := .effect) h
    exact ⟨hsame.camera (by decide), hsame.cooldowns (by decide)⟩

/-- A battler after 60 frames of its action, and four commands in its battle, each of another pack.
-/
theorem Runner.scripts_own_no_rule_solo :
    let scene : Scene := ⟨Scenario.solo.battle, Scenario.solo.context⟩
    let s := start scene.battle scene.context
    (∃ x y, s.2.roster.get? (.actor 0) = some x ∧
      (afterFrames .standard 60 (s.1, s.2)).2.roster.get? (.actor 0) = some y ∧
      y.sheet = x.sheet) ∧
    (∃ out, MotionOp.pack.run? (.ofLine "hide battle hud") scene = some out ∧
      out.2 = { scene with battle := { scene.battle with stage := out.2.battle.stage } }) ∧
    (∃ out, CameraOp.pack.run? (.ofLine "reset camera") scene = some out ∧
      out.2 = { scene with battle := { scene.battle with camera := out.2.battle.camera } }) ∧
    (∃ out, CooldownOp.pack.run? (.ofLine "skill 1 cooldown: user, 3") scene = some out ∧
      out.2 = { scene with
        battle := { scene.battle with cooldowns := out.2.battle.cooldowns } }) ∧
    ∃ out, EffectOp.pack.run? (.ofLine "collapse: user, force") scene = some out ∧
      out.2.battle.camera = scene.battle.camera ∧
        out.2.battle.cooldowns = scene.battle.cooldowns := by
  obtain ⟨-, play, motion, camera, cooldown, effect⟩ := Runner.scripts_own_no_rule
  intro scene s
  obtain ⟨-, -, battlers, -⟩ := play s.1 s.2 60 _ List.mem_cons_self
  obtain ⟨y, hy, hsheet⟩ := battlers (.actor 0) _ rfl
  exact ⟨⟨_, y, rfl, hy, hsheet⟩,
    ⟨_, rfl, motion (.ofLine "hide battle hud") _ _ rfl⟩,
    ⟨_, rfl, camera (.ofLine "reset camera") _ _ rfl⟩,
    ⟨_, rfl, cooldown (.ofLine "skill 1 cooldown: user, 3") _ _ rfl⟩,
    ⟨_, rfl, effect (.ofLine "collapse: user, force") _ _ rfl⟩⟩

end BattleScript
