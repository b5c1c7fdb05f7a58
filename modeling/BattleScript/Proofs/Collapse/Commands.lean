import BattleScript.Proofs.Collapse.Path
import BattleScript.Proofs.Standard.Show
import BattleScript.Proofs.Standard.Dispatch

/-!
# Ways of commands

Every command of the standard chain leads along its way (`Chain.path_standard`): the operations on
battlers one after the other, and the two places where a collapse is asked for, the loss of
immortality and the collapse itself.
-/

namespace BattleScript

open Battle (Calm Passes Path)
open Battler (KeepsMark)

variable {id : BattlerId}

/-! ## Changes that leave the battlers alone -/

namespace Battle.Calm

/-- Calm work on one thing after another. -/
theorem foldl {α : Type} {work : Battle → α → Battle} (step : ∀ b x, Calm id b (work b x))
    (b : Battle) (xs : List α) : Calm id b (xs.foldl work b) := by
  induction xs generalizing b with
  | nil => exact .refl b
  | cons x xs ih => exact (step b x).trans (ih (work b x))

/-- What an item changes about cooldowns is of no account here, and neither is what it costs. -/
theorem applyCooldownChanges (b : Battle) (j : BattlerId) (item : ItemRef) :
    Calm id b (b.applyCooldownChanges j item) := by
  unfold Battle.applyCooldownChanges
  split <;> exact ⟨rfl, rfl⟩

theorem payCooldowns (b : Battle) (j : BattlerId) (item : ItemRef) :
    Calm id b (b.payCooldowns j item) := by
  obtain ⟨l, hl⟩ := b.exists_payCooldowns_eq j item
  exact hl ▸ ⟨rfl, rfl⟩

end Battle.Calm

/-! ## Control commands -/

namespace ControlOp

/-- To take immortality away may kill, and then the collapse is asked for at once. -/
theorem path_setImmortal (on : Bool) (b : Battle) (j : BattlerId) :
    Path id b (immortalWay on b j) (setImmortal on b j) := by
  unfold immortalWay setImmortal
  cases hx : b.roster.get? j with
  | none => exact .arrived (.refl b)
  | some x =>
    refine .pass (.of_battler hx (x.keepsMark_setImmortal on)) (.single ?_)
    dsimp only
    split
    · next h =>
      have dead : (x.setImmortal on).isDead := by simp_all
      have hy : (b.withBattler j (x.setImmortal on)).roster.get? j = some (x.setImmortal on) := by
        rw [Battle.get?_withBattler hx, if_pos rfl]
      -- to write the battler and then note its death is to note its death
      have hpass : Passes id _ _ := Battle.passes_noteDeath hy
      rw [Battle.noteDeath_withBattler, Battle.noteDeath, if_pos dead] at hpass
      exact hpass
    · exact .of_calm (.refl _)

/-- Control commands lead along their ways; only one of them works on battlers. -/
theorem path_run (op : ControlOp) (c : ActionContext) (b : Battle) :
    Path id b (op.way c b) (op.run c b).2 := by
  cases op with
  | immortal target on => exact .along (path_setImmortal on) b _
  | wait | waitFor => exact .arrived (.refl b)
  | motionWait target =>
    refine .arrived ?_
    simp only [run]
    split <;> exact .refl b
  | deathBreak =>
    refine .arrived ?_
    simp only [run]
    split <;> exact .refl b
  | displayAction | clearBattleLog => exact .arrived (.request b rfl)
  | perform p =>
    refine .arrived ?_
    cases p with
    | start | action => exact .request b rfl
    | finish =>
      have hrequest : Calm id b (b.request (.perform c.subject .finish)) := .request b rfl
      simp only [run]
      split
      · exact hrequest.trans ⟨rfl, rfl⟩
      · exact hrequest
  | castAnimation =>
    refine .arrived ?_
    simp only [run]
    split
    · exact .request b rfl
    · exact .refl b
  | actionAnimation target mirror =>
    refine .arrived ?_
    simp only [run]
    split
    · exact .refl b
    · exact .request b rfl
  | actionEffect target =>
    have hstrike (b : Battle) (j : BattlerId) : Calm id b (strike c b j) :=
      (Calm.request b rfl).trans (.applyCooldownChanges _ j c.item)
    exact .arrived (.foldl hstrike b _)

end ControlOp

/-! ## Effect commands -/

namespace EffectOp

/-- What a buff command does to a battler is one operation. -/
theorem keepsMark_applyBuff {change : BuffChange} {p : Param} {turns : Nat} {x y : Battler}
    {told : String} (h : applyBuff change p turns x = some (told, y)) : KeepsMark x y := by
  cases change <;> simp only [applyBuff] at h <;> split at h <;> cases h
  · exact x.keepsMark_addBuff p turns
  · exact x.keepsMark_addDebuff p turns
  · exact x.keepsMark_removeBuff p
  · exact x.keepsMark_removeBuff p

/-- So is what a state command does to it, for each state. -/
theorem keepsMark_applyState {add : Bool} {s : Nat} {x y : Battler} {told : String}
    (h : applyState add s x = some (told, y)) : KeepsMark x y := by
  simp only [applyState] at h
  split at h
  · cases h
    exact x.keepsMark_addState s
  · split at h <;> cases h
    exact x.keepsMark_removeState s

/-- An operation on a battler, told of or not. -/
theorem passes_told {b : Battle} {j : BattlerId} {x y : Battler} (hx : b.roster.get? j = some x)
    (keeps : KeepsMark x y) (report : Bool) (told : String) :
    Passes id b (if report then (b.withBattler j y).showResult j told else b.withBattler j y) := by
  have hbattler : Passes id b (b.withBattler j y) := .of_battler hx keeps
  split
  · exact hbattler.calm_right (.showResult _ j told)
  · exact hbattler

theorem passes_buffOne (change : BuffChange) (p : Param) (turns : Nat) (report : Bool)
    (acc : Progress) (j : BattlerId) :
    Passes id acc.1 (buffOne change p turns report acc j).1 := by
  unfold buffOne
  split
  · exact .of_calm (.refl _)
  · next told y h =>
    obtain ⟨x, hx, hy⟩ := Option.bind_eq_some_iff.mp h
    exact passes_told hx (keepsMark_applyBuff hy) report _

theorem passes_stateOne (add report : Bool) (j : BattlerId) (acc : Progress) (s : Nat) :
    Passes id acc.1 (stateOne add report j acc s).1 := by
  unfold stateOne
  split
  · exact .of_calm (.refl _)
  · next told y h =>
    obtain ⟨x, hx, hy⟩ := Option.bind_eq_some_iff.mp h
    exact passes_told hx (keepsMark_applyState hy) report _

/-- To change a pool may breach a rule, tells of the change, and is one operation on the battler.
-/
theorem passes_poolOne (p : Pool) (amount : Amount) (report : Bool) (acc : Progress)
    (j : BattlerId) : Passes id acc.1 (poolOne p amount report acc j).1 := by
  unfold poolOne
  split
  · exact .of_calm (.refl _)
  · next x hx =>
    have hnote : Calm id acc.1 (noteBreach acc.1 j p x) := by
      unfold noteBreach
      split <;> exact ⟨rfl, rfl⟩
    have hgain (n : Int) : Passes id acc.1 ((noteBreach acc.1 j p x).withBattler j (x.gain p n)) :=
      (Passes.of_battler (hnote.roster ▸ hx) (x.keepsMark_gain p n)).calm_left hnote
    dsimp only
    split
    · exact (hgain _).calm_right ((Calm.request _ rfl).trans (.showResult _ j _))
    · exact hgain _

/-- A collapse notes the death of the dead; by force, it first makes the battler mortal and dead.
-/
theorem path_collapseOne (force : Bool) (b : Battle) (j : BattlerId) :
    Path id b (collapseWay force b j) (collapseOne force b j) := by
  unfold collapseWay
  cases hx : b.roster.get? j with
  | none =>
    have hsame : collapseOne force b j = b := by simp [collapseOne, hx]
    rw [hsame]
    exact .arrived (.refl b)
  | some x =>
    cases force with
    | false =>
      have hnote : collapseOne false b j = b.noteDeath j x := by simp [collapseOne, hx]; rfl
      rw [hnote]
      exact .single (Battle.passes_noteDeath hx)
    | true =>
      let mortal := x.setImmortal false
      let fallen := (mortal.addState x.deathState).2
      have hnote : collapseOne true b j = (b.withBattler j fallen).noteDeath j fallen := by
        rw [Battle.noteDeath_withBattler]
        simp [collapseOne, hx]
        rfl
      -- the battlers in between are those of the way, whichever was written last
      have hmortal : (b.withBattler j mortal).roster.get? j = some mortal := by
        rw [Battle.get?_withBattler hx, if_pos rfl]
      have hfallen : (b.withBattler j fallen).roster.get? j = some fallen := by
        rw [Battle.get?_withBattler hx, if_pos rfl]
      have hdies : Passes id (b.withBattler j mortal) (b.withBattler j fallen) := by
        rw [← b.withBattler_withBattler j mortal fallen]
        exact .of_battler hmortal (mortal.keepsMark_addState x.deathState)
      have hmark : Passes id _ _ := Battle.passes_noteDeath hfallen
      rw [← hnote] at hmark
      exact .pass (.of_battler hx (x.keepsMark_setImmortal false)) (.pass hdies (.single hmark))

/-- A cue changes the music and nothing else. -/
theorem calm_playCue (channel : Channel) (cue : Cue) (b : Battle) :
    Calm id b (playCue channel cue b) := by
  obtain ⟨memorized, mixer, hb⟩ := battle_playCue channel cue b
  exact hb ▸ ⟨rfl, rfl⟩

/-- Commands for the stores change no battler. -/
theorem calm_stores {op : EffectOp} (h : op.isForStores) (c : ActionContext) (b : Battle) :
    Calm id b (op.run c b).2 := by
  obtain ⟨switches, vars, inventory, events, hb⟩ := battle_run_of_stores h c b
  exact hb ▸ ⟨rfl, rfl⟩

/-- Work on the targets of a command, if there are any. At the end it at most has the status shown
anew. -/
theorem path_group {way : Progress → BattlerId → List Battle}
    {work : Progress → BattlerId → Progress}
    (step : ∀ acc j, Path id acc.1 (way acc j) (work acc j).1) (b : Battle)
    (group : List BattlerId) (idle busy : Signal) :
    Path id b (along way work (b, false) group)
      (if group.isEmpty then (idle, b)
        else (busy, settleProgress (group.foldl work (b, false)))).2 := by
  -- without targets there is nothing to show either
  cases group with
  | nil => exact .arrived (.refl b)
  | cons j js =>
    have hwork : Path id b (along way work (b, false) (j :: js))
        ((j :: js).foldl work (b, false)).1 := Path.along step (b, false) (j :: js)
    exact hwork.calm_right (.refreshStatus _ _)

/-- Effect commands lead along their ways, target after target. -/
theorem path_run (op : EffectOp) (c : ActionContext) (b : Battle) :
    Path id b (op.way c b) (op.run c b).2 := by
  cases op with
  | buff change param target turns report =>
    cases param with
    | none =>
      simp only [run]
      split <;> exact .arrived (.refl b)
    | some p =>
      exact path_group (fun acc j => .single (passes_buffOne change p turns report acc j)) b _ _ _
  | state add states target report =>
    have hstates (acc : Progress) (j : BattlerId) :
        Path id acc.1 (afterEach Prod.fst (stateOne add report j) acc states)
          (states.foldl (stateOne add report j) acc).1 :=
      .afterEach (passes_stateOne add report j) acc states
    exact path_group hstates b _ _ _
  | pool p amount target report =>
    cases amount with
    | none =>
      simp only [run]
      split <;> exact .arrived (.refl b)
    | some a => exact path_group (fun acc j => .single (passes_poolOne p a report acc j)) b _ _ _
  | collapse target force => exact .along (path_collapseOne force) b _
  | animation animationId target mirror =>
    refine .arrived ?_
    simp only [run]
    split
    · exact .refl b
    · split
      · exact .refl b
      · exact .request b rfl
  | audio channel cue =>
    refine .arrived ?_
    cases cue with
    | none => exact .refl b
    | some cue => exact calm_playCue channel cue b
  | commonEvent | switches | assign | gainItem | gold => exact .arrived (calm_stores rfl c b)
  | refreshStatus => exact .arrived (.request b rfl)

end EffectOp

/-! ## All commands -/

/-- No silent request asks for a collapse. -/
theorem StageRequest.isCollapseOf_of_isSilent {r : StageRequest Float} (h : r.IsSilent) :
    r.isCollapseOf id = false := by
  cases r <;> first | rfl | cases h

/-- **Every standard command leads along its way.** -/
theorem Chain.path_standard (command : Command) (scene : Scene) :
    Path id scene.battle (command.way scene) (standard.dispatch command scene).2.battle := by
  unfold Command.way
  cases hcontrol : ControlOp.ofCommand? command with
  | some op =>
    rw [dispatch_control hcontrol]
    exact ControlOp.path_run op _ _
  | none =>
    cases heffect : EffectOp.ofCommand? command with
    | some op =>
      rw [dispatch_effect heffect]
      exact EffectOp.path_run op _ _
    | none =>
      -- the other packs do nothing to battlers
      refine .arrived (standard_cases (motive := fun out => Calm id scene.battle out.2.battle)
        command scene (.refl _) ?_ ?_ ?_ ?_ ?_)
      · intro op hop
        rw [hcontrol] at hop
        cases hop
      · intro op hop
        rw [heffect] at hop
        cases hop
      · intro op signal b _ hrun
        obtain ⟨rs, hshow, rfl⟩ := MotionOp.shown_run? hrun
        exact .requests _ fun r hr => StageRequest.isCollapseOf_of_isSilent (hshow r hr).1
      · intro op _
        obtain ⟨camera, hb⟩ := CameraOp.battle_run op scene.context scene.battle
        exact hb ▸ ⟨rfl, rfl⟩
      · intro op _
        obtain ⟨cooldowns, hb⟩ := CooldownOp.battle_run op scene.context scene.battle
        exact hb ▸ ⟨rfl, rfl⟩

end BattleScript
