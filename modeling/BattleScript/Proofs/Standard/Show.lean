import BattleScript.Opcode.Standard
import BattleScript.Proofs.Stage.Sprites

/-!
# Commands for one thing only

Two of the standard packs only show things. A motion command makes requests to the stage, none of
which writes to the log, clears it or has anyone collapse, and which leave sprites standing unless
there is a side view (`MotionOp.shown_run?`). A camera command gives the battle another camera
(`CameraOp.battle_run`). Likewise a cooldown command gives it other cooldowns
(`CooldownOp.battle_run`), and among the effect commands there are those that give it other stores
(`EffectOp.battle_run_of_stores`) or other music (`EffectOp.battle_playCue`).
-/

namespace BattleScript

/-- The request leaves the lines of the log as they are, and has nobody collapse. -/
def StageRequest.IsSilent {α : Type} : StageRequest α → Prop
  | .displayAction .. | .displayResults .. | .clearLog | .collapse _ => False
  | _ => True

/-- What a motion command may ask of the stage. -/
def StageRequest.IsShow {α : Type} (sideView : Bool) (r : StageRequest α) : Prop :=
  r.IsSilent ∧ (r.IsStanding ∨ sideView)

/-- What became of a battle by requests for show. -/
def Battle.Shown (b b' : Battle) : Prop :=
  ∃ rs, (∀ r ∈ rs, r.IsShow b.settings.sideView) ∧ b' = b.requests rs

namespace Battle.Shown

theorem refl (b : Battle) : b.Shown b := ⟨[], nofun, rfl⟩

theorem request (b : Battle) {r : StageRequest Float} (h : r.IsShow b.settings.sideView) :
    b.Shown (b.request r) :=
  ⟨[r], by simpa using h, rfl⟩

/-- The same request for each of a group. -/
theorem requests_map {α : Type} (b : Battle) (xs : List α) {f : α → StageRequest Float}
    (h : ∀ x, (f x).IsShow b.settings.sideView) : b.Shown (b.requests (xs.map f)) := by
  refine ⟨xs.map f, ?_, rfl⟩
  intro r hr
  obtain ⟨x, -, rfl⟩ := List.mem_map.mp hr
  exact h x

end Battle.Shown

/-! ## Motion commands -/

namespace MotionOp

theorem shown_begin (j : Journey) (movers : List BattlerId) {b : Battle}
    (sideView : b.settings.sideView) : b.Shown (j.begin movers b) := by
  refine ⟨_, ?_, rfl⟩
  intro r hr
  obtain ⟨id, -, hr⟩ := List.mem_flatMap.mp hr
  simp only [List.mem_append, List.mem_singleton, Option.mem_toList, Option.map_eq_some_iff] at hr
  rcases hr with (rfl | ⟨m, -, rfl⟩) | rfl <;> exact ⟨trivial, .inr sideView⟩

/-- Floats and jumps are for the side view. -/
theorem shown_lift (movers : List BattlerId) (l : Lift) (b : Battle)
    {ask : BattlerId → Float → StageRequest Float} (h : ∀ id x, (ask id x).IsSilent) :
    b.Shown (lift movers l ask b) := by
  unfold lift
  split
  · next sideView =>
    refine ⟨_, ?_, rfl⟩
    intro r hr
    obtain ⟨id, -, hr⟩ := List.mem_filterMap.mp hr
    obtain ⟨s, -, rfl⟩ := Option.map_eq_some_iff.mp hr
    exact ⟨h id _, .inr sideView⟩
  · exact .refl b

/-- Turning somebody shows nothing but the turn. -/
theorem shown_face (movers : List BattlerId) (goal : FaceTo) (c : ActionContext) (b : Battle) :
    b.Shown (face movers goal c b).2 := by
  cases goal with
  | known facing => exact .requests_map b movers fun _ => ⟨trivial, .inl trivial⟩
  | group target away =>
    simp only [face]
    split
    · exact .requests_map b movers fun _ => ⟨trivial, .inl trivial⟩
    · exact .refl b
  | nothing => exact .refl b

/-- A move needs the side view, as its journey does. -/
theorem shown_move (movers : List BattlerId) (goal : MoveTo) (c : ActionContext) {b : Battle}
    (sideView : b.settings.sideView) : b.Shown (move movers goal c b).2 := by
  cases goal with
  | anchor target anchor frames =>
    simp only [move]
    split
    · exact shown_begin _ movers sideView
    · exact .refl b
  | nowhere => exact .refl b
  | _ => exact shown_begin _ movers sideView

/-- Each deed is a number of requests for show. -/
theorem shown_runDeed (movers : List BattlerId) (d : Deed) (c : ActionContext) (b : Battle) :
    b.Shown (runDeed movers d c b).2 := by
  cases d with
  | face goal => exact shown_face movers goal c b
  | float l frames =>
    show b.Shown (lift movers l (.float · · frames) b)
    exact shown_lift movers l b fun _ _ => trivial
  | jump l frames =>
    show b.Shown (lift movers l (.jump · · frames) b)
    exact shown_lift movers l b fun _ _ => trivial
  | move goal =>
    simp only [runDeed]
    split
    · next sideView => exact shown_move movers goal c sideView
    · exact .refl b
  | opacity x frames =>
    cases x with
    | none => exact .refl b
    | some x => exact .requests_map b movers fun _ => ⟨trivial, .inl trivial⟩

/-- A motion is requested for the whole group. -/
theorem shown_makeMotion (keyword : String) (group : List BattlerId) (b : Battle) :
    b.Shown (makeMotion keyword group b).2 := by
  unfold makeMotion
  split
  · exact .refl b
  · split <;> exact .requests_map b group fun _ => ⟨trivial, .inl trivial⟩

/-- A motion command only makes requests, and only such for show. -/
theorem shown_run? {op : MotionOp} {c : ActionContext} {b b' : Battle} {signal : Signal}
    (h : op.run? c b = some (signal, b')) : b.Shown b' := by
  -- a command that is declined shows nothing, and most others make a single request
  cases op with
  | attackAnimation target mirror =>
    cases h
    split
    · exact .refl b
    · exact .request b ⟨trivial, .inl trivial⟩
  | enemyEffect target effect =>
    cases h
    cases effect with
    | none => exact .refl b
    | some e => exact .requests_map b _ fun _ => ⟨trivial, .inl trivial⟩
  | motion keyword target =>
    have hb : (makeMotion keyword (b.targets c target) b).2 = b' :=
      congrArg Prod.snd (Option.some.inj h)
    exact hb ▸ shown_makeMotion keyword _ b
  | waitFor w =>
    cases h
    exact .refl b
  | deed movers d =>
    simp only [run?] at h
    split at h
    · cases h
    · have hb : (runDeed (b.targets c (some movers)) d c b).2 = b' :=
        congrArg Prod.snd (Option.some.inj h)
      exact hb ▸ shown_runDeed _ d c b
  | _ =>
    cases h
    exact .request b ⟨trivial, .inl trivial⟩

end MotionOp

/-! ## Camera and cooldown commands -/

namespace CameraOp

theorem battle_turn (view : ScreenView) (c : ActionContext) (b : Battle) :
    ∃ camera, (turn view c b).2 = { b with camera := camera } := by
  cases view with
  | group target anchor frames =>
    simp only [turn]
    repeat' split
    all_goals exact ⟨_, rfl⟩
  | _ => exact ⟨_, rfl⟩

/-- Where scripts may use the camera, that is all they change. -/
theorem battle_runEnabled (op : CameraOp) (c : ActionContext) (b : Battle) :
    ∃ camera, (op.runEnabled c b).2 = { b with camera := camera } := by
  cases op with
  | focus target anchor frames =>
    simp only [runEnabled]
    split <;> exact ⟨_, rfl⟩
  | screen view => exact battle_turn view c b
  | _ => exact ⟨_, rfl⟩

/-- A camera command only changes the camera. -/
theorem battle_run (op : CameraOp) (c : ActionContext) (b : Battle) :
    ∃ camera, (op.run c b).2 = { b with camera := camera } := by
  unfold run
  split
  · split <;> exact ⟨_, rfl⟩
  · split <;> exact ⟨_, rfl⟩
  · split <;> exact ⟨_, rfl⟩
  · split
    · exact battle_runEnabled _ c b
    · exact ⟨_, rfl⟩

end CameraOp

/-- A cooldown command only changes the cooldowns. -/
theorem CooldownOp.battle_run (op : CooldownOp) (c : ActionContext) (b : Battle) :
    ∃ cooldowns, (op.run c b).2 = { b with cooldowns := cooldowns } := by
  unfold run
  split <;> exact ⟨_, rfl⟩

/-! ## Effect commands for stores and music -/

namespace EffectOp

/-- Whether an instruction is about what the game remembers outside of the battlers. -/
def isForStores : EffectOp → Bool
  | commonEvent _ | switches .. | assign .. | gainItem .. | gold _ => true
  | _ => false

/-- These effect commands write to the stores only. -/
theorem battle_run_of_stores {op : EffectOp} (h : op.isForStores) (c : ActionContext) (b : Battle) :
    ∃ switches vars inventory events, (op.run c b).2 =
      { b with
        switches := switches
        «variables» := vars
        inventory := inventory
        commonEvents := events } := by
  cases op with
  | commonEvent id =>
    simp only [run]
    repeat' split
    all_goals exact ⟨_, _, _, _, rfl⟩
  | switches first last change => cases change <;> exact ⟨_, _, _, _, rfl⟩
  | assign id operator operand =>
    simp only [run]
    split <;> exact ⟨_, _, _, _, rfl⟩
  | gainItem | gold => exact ⟨_, _, _, _, rfl⟩
  | _ => cases h

/-- A cue changes what plays, or what is kept. -/
theorem battle_playCue (channel : Channel) (cue : Cue) (b : Battle) :
    ∃ memorized mixer,
      playCue channel cue b = { b with memorized := memorized, mixer := mixer } := by
  cases cue with
  | replay =>
    simp only [playCue]
    split <;> exact ⟨_, _, rfl⟩
  | _ => exact ⟨_, _, rfl⟩

end EffectOp

end BattleScript
