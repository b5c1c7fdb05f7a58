import BattleScript.Proofs.Scenario
import BattleScript.Proofs.Standard.Dispatch

/-!
# Empty selections

A command says whom it is about in one of four ways (`Command.Selects`): by its first argument; by
its first argument or else by the targets of the action; by the movers in its name; or by the group
that movers or the camera are turned to. Whatever the way, a command that is about nobody leaves the
battle and the context as they are (`Chain.inert_of_nobody`).

Each pack sees to this on its own: some commands look at the group first, some run through it, and
deeds without movers are declined.
-/

namespace BattleScript

/-! ## Whom a command is about -/

/-- The groups that a way to look is taken from: none for the ways that need no group, and a missing
one where nothing is said. -/
def FaceTo.groups : FaceTo → List (Option String)
  | .group target _ => [some target]
  | .nothing => [none]
  | .known _ => []

/-- The groups that a goal is taken from. -/
def MoveTo.groups : MoveTo → List (Option String)
  | .anchor target _ _ => [some target]
  | .nowhere => [none]
  | .home _ | .return _ | .step _ _ _ | .point _ _ => []

/-- The groups that a view is taken from. -/
def ScreenView.groups : ScreenView → List (Option String)
  | .group target _ _ => [some target]
  | .nowhere => [none]
  | .share _ _ | .point _ _ => []

/-- The battlers that a text means in a scene. -/
def Scene.targets (scene : Scene) (text : Option String) : List BattlerId :=
  scene.battle.targets scene.context text

namespace Command

/-- The first words of commands whose first argument is their target however their name goes on. -/
def targetOpenings : List String :=
  ["ADD", "REMOVE", "ADD_STATE", "ADD_STATES", "REMOVE_STATE", "REMOVE_STATES", "ANIMATION",
    "COLLAPSE", "HP", "MP", "TP", "IMMORTAL", "MOTION", "GLOBAL", "SKILL", "STYPE"]

/-- Whether the first argument of the commands of a name is their target. -/
def takesTarget : List String → Bool
  | ["ATTACK", "ANIMATION"] | ["ENEMY", "EFFECT"] | ["CAMERA", "FOCUS"]
  | ["FOCUS", "CAMERA"] => true
  | first :: _ => first ∈ targetOpenings
  | [] => false

/-- Whether the commands of a name are about the targets of the action if they have no argument. -/
def takesTargetsOfAction : List String → Bool
  | ["ACTION", "ANIMATION"] | ["ACTION", "EFFECT"] => true
  | _ => false

/-- The movers in a name. -/
def movers? : List String → Option String
  | verb :: second :: rest =>
    if verb ∈ ["FACE", "FLOAT", "JUMP", "MOVE", "OPACITY"] then
      some (" ".intercalate (second :: rest))
    else none
  | _ => none

/-- The groups that movers or the camera are turned to. -/
def groups (c : Command) : List (Option String) :=
  match c.words with
  | ["CAMERA", "SCREEN"] => (ScreenView.ofCommand c).groups
  | "FACE" :: _ :: _ => (FaceTo.ofCommand c).groups
  | "MOVE" :: _ :: _ => (MoveTo.ofCommand c).groups
  | _ => []

/-- A command is about these battlers. A command that moves someone to a group is about both. -/
inductive Selects (c : Command) (scene : Scene) : List BattlerId → Prop
  /-- The target, which is nobody if the argument is missing. -/
  | target (h : takesTarget c.words) : Selects c scene (scene.targets (c.arg 0))
  /-- The target, or else the targets of the action. -/
  | targetOrAction (h : takesTargetsOfAction c.words) :
    Selects c scene
      (if (c.arg 0).isSome then scene.targets (c.arg 0) else scene.context.targets)
  | movers {text : String} (h : movers? c.words = some text) :
    Selects c scene (scene.targets (some text))
  | group {text : Option String} (h : text ∈ c.groups) : Selects c scene (scene.targets text)

end Command

open Command

variable {c : Command} {scene : Scene}

/-! ## Targets -/

/-- Control commands run through their targets, or wait for their motions: nothing for nobody. -/
theorem ControlOp.run_of_nobody {op : ControlOp} (hop : ofCommand? c = some op)
    (htarget : takesTarget c.words) (hnobody : scene.targets (c.arg 0) = []) :
    (op.run scene.context scene.battle).2 = scene.battle := by
  unfold Scene.targets at hnobody
  unfold ofCommand? at hop
  split at hop
  all_goals first
    | cases hop; simp [run, hnobody]; done
    | next hw => rw [hw] at htarget; exact absurd htarget (by decide)
    | cases hop

namespace EffectOp

/-- The target of an effect command that has one. -/
def target? : EffectOp → Option (Option String)
  | .buff _ _ target _ _ | .state _ _ target _ | .animation _ target _ | .collapse target _
  | .pool _ _ target _ => some target
  | .audio .. | .commonEvent _ | .switches .. | .assign .. | .gainItem .. | .gold _
  | .refreshStatus => none

/-- Effect commands look whether there is anybody. -/
theorem run_of_target? {op : EffectOp} {target : Option String} (htarget : op.target? = some target)
    (hnobody : scene.targets target = []) :
    (op.run scene.context scene.battle).2 = scene.battle := by
  unfold Scene.targets at hnobody
  cases op with
  | buff | state | collapse | pool =>
    cases htarget
    simp [run, hnobody]
  | animation =>
    cases htarget
    simp only [run, hnobody]
    split <;> rfl
  | _ => cases htarget

/-! Four of the forms take a target whatever else they say. -/

/-- A buff, as the others, reads its target from the first argument. -/
theorem target?_of_buff? {op : EffectOp} (h : buff? c = some op) : op.target? = some (c.arg 0) := by
  unfold buff? at h
  split at h
  · simp only [Option.bind_eq_bind, Option.bind_eq_some_iff, pure, Option.some.injEq] at h
    obtain ⟨add, -, last, -, change, -, rfl⟩ := h
    rfl
  · cases h

theorem target?_of_state? {op : EffectOp} (h : state? c = some op) :
    op.target? = some (c.arg 0) := by
  obtain ⟨⟨add, ids⟩, -, hread⟩ := Option.bind_eq_some_iff.mp h
  obtain ⟨-, -, hop⟩ := Option.bind_eq_some_iff.mp hread
  cases hop
  rfl

theorem target?_of_animation? {op : EffectOp} (h : animation? c = some op) :
    op.target? = some (c.arg 0) := by
  unfold animation? at h
  split at h
  · simp only [Option.bind_eq_bind, Option.bind_eq_some_iff, pure, Option.some.injEq] at h
    obtain ⟨ds, -, rfl⟩ := h
    rfl
  · cases h

theorem target?_of_pool? {op : EffectOp} (h : pool? c = some op) :
    op.target? = some (c.arg 0) := by
  unfold pool? at h
  split at h
  · simp only [Option.bind_eq_bind, Option.bind_eq_some_iff, pure, Option.some.injEq] at h
    obtain ⟨pool, -, rfl⟩ := h
    rfl
  · cases h

/-! The names of the other forms are none of a command with a target, but for one of the phrases. -/

theorem takesTarget_of_switches? {op : EffectOp} (h : switches? c = some op) :
    takesTarget c.words = false := by
  unfold switches? at h
  split at h
  · next hw => rw [hw]; rfl
  · cases h

theorem takesTarget_of_assign? {op : EffectOp} (h : assign? c = some op) :
    takesTarget c.words = false := by
  unfold assign? at h
  split at h
  · next hw => rw [hw]; rfl
  · cases h

theorem takesTarget_of_gainItem? {op : EffectOp} (h : gainItem? c = some op) :
    takesTarget c.words = false := by
  unfold gainItem? at h
  split at h
  · next verb kind n hw =>
    obtain ⟨sign, hsign, -⟩ := Option.bind_eq_some_iff.mp h
    unfold gainSign? at hsign
    split at hsign
    all_goals first
      | rw [hw]; rfl
      | cases hsign
  · cases h

theorem takesTarget_of_gold? {op : EffectOp} (h : gold? c = some op) :
    takesTarget c.words = false := by
  unfold gold? at h
  split at h
  · next hw => rw [hw]; rfl
  · cases h

/-- The first words of commands with a target. -/
theorem opening_of_takesTarget {word : String} {rest : List String}
    (h : takesTarget (word :: rest)) :
    word ∈ ["ATTACK", "ENEMY", "CAMERA", "FOCUS"] ++ targetOpenings := by
  unfold takesTarget at h
  split at h
  all_goals simp_all

/-- No word for a channel begins like a command with a target. -/
theorem targetOpenings_plain :
    (["ATTACK", "ENEMY", "CAMERA", "FOCUS"] ++ targetOpenings).all opensNoChannel := by
  decide +kernel

/-- No audio command takes a target. -/
theorem takesTarget_of_audio? {op : EffectOp} (h : audio? c = some op) :
    takesTarget c.words = false := by
  refine Bool.eq_false_iff.mpr fun htarget => ?_
  cases hw : c.words with
  | nil => rw [hw] at htarget; cases htarget
  | cons word rest =>
    have hplain : opensNoChannel word :=
      List.all_eq_true.mp targetOpenings_plain word (opening_of_takesTarget (hw ▸ htarget))
    rw [audio?_eq_none hplain hw] at h
    cases h

theorem target?_of_phrase? {op : EffectOp} (h : phrase? c = some op)
    (htarget : takesTarget c.words) : op.target? = some (c.arg 0) := by
  unfold phrase? at h
  split at h
  · cases h; rfl
  all_goals first
    | next hw => rw [hw] at htarget; cases htarget
    | cases h

/-- An effect command whose name takes a target is about its first argument. -/
theorem target?_of_takesTarget {op : EffectOp} (hop : ofCommand? c = some op)
    (htarget : takesTarget c.words) : op.target? = some (c.arg 0) := by
  have h := ofCommand?_eq_some_iff.mp hop
  -- by what was read: each form either takes its target there, or has no such name
  cases op with
  | buff => exact target?_of_buff? h
  | state => exact target?_of_state? h
  | animation => exact target?_of_animation? h
  | switches => simp [takesTarget_of_switches? h] at htarget
  | assign => simp [takesTarget_of_assign? h] at htarget
  | gainItem => simp [takesTarget_of_gainItem? h] at htarget
  | gold => simp [takesTarget_of_gold? h] at htarget
  | pool => exact target?_of_pool? h
  | audio => simp [takesTarget_of_audio? h] at htarget
  | collapse | commonEvent | refreshStatus => exact target?_of_phrase? h htarget

end EffectOp

namespace MotionOp

/-- The target of a motion command that has one. -/
def target? : MotionOp → Option (Option String)
  | .attackAnimation target _ | .enemyEffect target _ | .motion _ target => some target
  | .fade .. | .flash .. | .battleHud _ | .shake .. | .tint .. | .waitFor _ | .deed .. => none

/-- Motion commands make a request for each target, or one for all of them if there are any. -/
theorem run?_of_target? {op : MotionOp} {target : Option String}
    (htarget : op.target? = some target) (hnobody : scene.targets target = []) :
    ∃ signal, op.run? scene.context scene.battle = some (signal, scene.battle) := by
  unfold Scene.targets at hnobody
  cases op with
  | attackAnimation | motion =>
    cases htarget
    simp [run?, makeMotion, hnobody, distinct]
  | enemyEffect _ effect =>
    cases htarget
    cases effect <;> simp [run?, hnobody, Battle.requests]
  | _ => cases htarget

theorem target?_of_phrase? {op : MotionOp} (h : phrase? c = some op)
    (htarget : takesTarget c.words) : op.target? = some (c.arg 0) := by
  unfold phrase? at h
  dsimp only at h
  split at h
  · cases h; rfl
  · cases h; rfl
  all_goals first
    | next hw => rw [hw] at htarget; cases htarget
    | cases h

theorem target?_of_named? {op : MotionOp} (h : named? c = some op)
    (htarget : takesTarget c.words) : op.target? = some (c.arg 0) := by
  unfold named? at h
  split at h
  · cases h
  · next first second rest hwait hw =>
    dsimp only at h
    split at h
    · cases h; rfl
    · -- the name of a deed is none of a command with a target
      obtain ⟨d, hd, -⟩ := Option.map_eq_some_iff.mp h
      unfold deed? at hd
      split at hd
      all_goals first
        | rw [hw] at htarget; cases htarget
        | cases hd
  · cases h

/-- A motion command whose name takes a target is about its first argument. -/
theorem target?_of_takesTarget {op : MotionOp} (hop : ofCommand? c = some op)
    (htarget : takesTarget c.words) : op.target? = some (c.arg 0) := by
  simp only [ofCommand?, Option.orElse_eq_orElse, Option.orElse_eq_or, Option.or_eq_some_iff]
    at hop
  rcases hop with h | ⟨-, h⟩
  · exact target?_of_phrase? h htarget
  · exact target?_of_named? h htarget

end MotionOp

/-- The camera is not turned to nobody. -/
theorem CameraOp.run_of_nobody {op : CameraOp} (hop : ofCommand? c = some op)
    (htarget : takesTarget c.words) (hnobody : scene.targets (c.arg 0) = []) :
    (op.run scene.context scene.battle).2 = scene.battle := by
  unfold Scene.targets at hnobody
  unfold ofCommand? at hop
  dsimp only at hop
  split at hop
  all_goals first
    | next hw => rw [hw] at htarget; exact absurd htarget (by decide)
    | cases hop; simp only [run, runEnabled, hnobody]; split <;> rfl
    | cases hop

/-- A cooldown command runs through its targets. -/
theorem CooldownOp.run_of_nobody {op : CooldownOp} (hop : ofCommand? c = some op)
    (hnobody : scene.targets (c.arg 0) = []) :
    (op.run scene.context scene.battle).2 = scene.battle := by
  obtain ⟨scope, -, rfl⟩ := Option.map_eq_some_iff.mp hop
  unfold Scene.targets at hnobody
  simp only [run, hnobody]
  split <;> rfl

namespace Chain

/-- A command about its first argument does nothing for nobody, whichever pack it is of. -/
theorem inert_of_target (htarget : takesTarget c.words)
    (hnobody : scene.targets (c.arg 0) = []) : (standard.dispatch c scene).2 = scene := by
  refine standard_cases (motive := fun out => out.2 = scene) c scene rfl ?_ ?_ ?_ ?_ ?_
  · intro op hop
    rw [ControlOp.run_of_nobody hop htarget hnobody]
  · intro op hop
    rw [EffectOp.run_of_target? (EffectOp.target?_of_takesTarget hop htarget) hnobody]
  · intro op signal b hop hrun
    obtain ⟨signal', h⟩ :=
      MotionOp.run?_of_target? (MotionOp.target?_of_takesTarget hop htarget) hnobody
    rw [h] at hrun
    cases hrun
    rfl
  · intro op hop
    rw [CameraOp.run_of_nobody hop htarget hnobody]
  · intro op hop
    rw [CooldownOp.run_of_nobody hop hnobody]

/-! ## The targets of the action -/

/-- A command that falls back on the targets of the action does nothing if there are none. -/
theorem inert_of_targetOrAction (haction : takesTargetsOfAction c.words)
    (hnobody : (if (c.arg 0).isSome then scene.targets (c.arg 0) else scene.context.targets) = []) :
    (standard.dispatch c scene).2 = scene := by
  have hgroup : ControlOp.targetsOr scene.context scene.battle (c.arg 0) = [] := by
    unfold Scene.targets at hnobody
    cases harg : c.arg 0 <;> simpa [harg, ControlOp.targetsOr] using hnobody
  unfold takesTargetsOfAction at haction
  split at haction
  · next hw =>
    have hop : ControlOp.ofCommand? c =
        some (.actionAnimation (c.arg 0) (c.argIs 1 "MIRROR")) := by simp [ControlOp.ofCommand?, hw]
    rw [dispatch_control hop]
    simp [ControlOp.run, hgroup]
  · next hw =>
    have hop : ControlOp.ofCommand? c = some (.actionEffect (c.arg 0)) := by
      simp [ControlOp.ofCommand?, hw]
    rw [dispatch_control hop]
    simp [ControlOp.run, hgroup]
  · cases haction

/-! ## Movers -/

/-- A deed whose name goes on is done by those whom the rest of the name means. -/
theorem ofCommand?_of_deed? {verb second : String} {rest : List String} {d : Deed}
    (hw : c.words = verb :: second :: rest) (hd : MotionOp.deed? c verb = some d) :
    MotionOp.ofCommand? c = some (.deed (" ".intercalate (second :: rest)) d) := by
  unfold MotionOp.deed? at hd
  split at hd
  case h_6 => cases hd
  all_goals
    cases hd
    simp [MotionOp.ofCommand?, MotionOp.phrase?, MotionOp.named?, MotionOp.deed?, hw]

/-- A deed without movers is declined. -/
theorem inert_of_movers {text : String} (h : movers? c.words = some text)
    (hnobody : scene.targets (some text) = []) : (standard.dispatch c scene).2 = scene := by
  unfold movers? at h
  split at h
  · next verb second rest hw =>
    split at h
    · next hverb =>
      obtain ⟨d, hd⟩ : ∃ d, MotionOp.deed? c verb = some d := by
        simp only [List.mem_cons, List.not_mem_nil, or_false] at hverb
        rcases hverb with rfl | rfl | rfl | rfl | rfl <;> exact ⟨_, rfl⟩
      cases h
      unfold Scene.targets at hnobody
      rw [dispatch_motion (ofCommand?_of_deed? hw hd)]
      simp [MotionOp.run?, hnobody]
    · cases h
  · cases h

end Chain

/-! ## Groups that someone is turned to -/

/-- The camera is not turned to a group of nobody, which has no footprints. -/
theorem CameraOp.turn_of_nobody {view : ScreenView} {text : Option String}
    (htext : text ∈ view.groups) (hnobody : scene.targets text = []) :
    (turn view scene.context scene.battle).2 = scene.battle := by
  unfold Scene.targets at hnobody
  cases view with
  | share | point => cases htext
  | nowhere => rfl
  | group target anchor frames =>
    obtain rfl := List.mem_singleton.mp htext
    simp [turn, hnobody, Battle.cameraFootprints, Battle.footprints]

/-- Nobody is turned to a group of nobody, which has no middle. -/
theorem MotionOp.face_of_nobody {goal : FaceTo} {text : Option String}
    (htext : text ∈ goal.groups) (hnobody : scene.targets text = []) (movers : List BattlerId) :
    (face movers goal scene.context scene.battle).2 = scene.battle := by
  unfold Scene.targets at hnobody
  cases goal with
  | known => cases htext
  | nothing => rfl
  | group target away =>
    obtain rfl := List.mem_singleton.mp htext
    simp [face, averagePosition, hnobody, Battle.groundFootprints, Battle.footprints]

/-- Nobody is moved to a group of nobody, which has no anchor. -/
theorem MotionOp.move_of_nobody {goal : MoveTo} {text : Option String}
    (htext : text ∈ goal.groups) (hnobody : scene.targets text = []) (movers : List BattlerId) :
    (move movers goal scene.context scene.battle).2 = scene.battle := by
  unfold Scene.targets at hnobody
  cases goal with
  | home | «return» | step | point => cases htext
  | nowhere => rfl
  | anchor target anchor frames =>
    obtain rfl := List.mem_singleton.mp htext
    -- every anchor is calculated from footprints, and there are none
    have hjourney : journeyToAnchor movers target anchor frames scene.context scene.battle =
        none := by
      cases anchor <;>
        simp [journeyToAnchor, hnobody, Battle.groundFootprints, Battle.footprints, anchorPoint,
          anchorX]
    simp [move, hjourney]

namespace Chain

/-- A command that turns somebody to a group of nobody does nothing, whether or not it has movers.
-/
theorem inert_of_group {text : Option String} (h : text ∈ c.groups)
    (hnobody : scene.targets text = []) : (standard.dispatch c scene).2 = scene := by
  -- the camera, faces and moves are the commands with such groups
  unfold Command.groups at h
  split at h
  · next hw =>
    have hop : CameraOp.ofCommand? c = some (.screen (.ofCommand c)) := by
      simp [CameraOp.ofCommand?, hw]
    have hturn := CameraOp.turn_of_nobody h hnobody
    rw [dispatch_camera hop]
    simp only [CameraOp.run, CameraOp.runEnabled]
    split
    · rw [hturn]
    · rfl
  · next second rest hw =>
    have hface := MotionOp.face_of_nobody h hnobody
    rw [dispatch_motion (ofCommand?_of_deed? hw rfl)]
    simp only [MotionOp.run?, MotionOp.runDeed]
    split
    · rfl
    · simp [hface]
  · next second rest hw =>
    have hmove := MotionOp.move_of_nobody h hnobody
    rw [dispatch_motion (ofCommand?_of_deed? hw rfl)]
    simp only [MotionOp.run?, MotionOp.runDeed]
    split
    · rfl
    · cases scene.battle.settings.sideView <;> simp [hmove]
  · cases h

/-- **An empty selection is inert.** A command that is about nobody, because what it says of them is
missing, unknown or means an empty group, leaves the battle and the context as they are. -/
theorem inert_of_nobody (command : Command) (scene : Scene) (h : command.Selects scene []) :
    (standard.dispatch command scene).2 = scene := by
  generalize hnobody : ([] : List BattlerId) = group at h
  cases h with
  | target htarget => exact inert_of_target htarget hnobody.symm
  | targetOrAction haction => exact inert_of_targetOrAction haction hnobody.symm
  | movers hmovers => exact inert_of_movers hmovers hnobody.symm
  | group hgroup => exact inert_of_group hgroup hnobody.symm

/-- Nobody is dead in the troop of the battle. -/
theorem inert_of_nobody_solo :
    (Command.ofLine "move user: dead enemies").Selects
        ⟨Scenario.solo.battle, Scenario.solo.context⟩ [] ∧
      (standard.dispatch (.ofLine "move user: dead enemies")
        ⟨Scenario.solo.battle, Scenario.solo.context⟩).2 =
        ⟨Scenario.solo.battle, Scenario.solo.context⟩ := by
  have hgroup : some "DEAD ENEMIES" ∈ (Command.ofLine "move user: dead enemies").groups := by
    decide
  have hselects : (Command.ofLine "move user: dead enemies").Selects
      ⟨Scenario.solo.battle, Scenario.solo.context⟩ [] := .group hgroup
  exact ⟨hselects, inert_of_nobody _ _ hselects⟩

end Chain

end BattleScript
