import BattleScript.Proofs.Battler.Step
import BattleScript.Proofs.Standard.Family
import BattleScript.Proofs.Standard.Show
import Mathlib.Logic.Relation

/-!
# What standard commands do to a battle

`Battle.Edit` lists the changes that a command makes at once, each under the aspect of the battle
that it is made to: a request to the stage, an operation on a battler, another camera, other
cooldowns, other stores, other music, or a breach. A request moves sprites only in side view, and
where scripts may not use the camera it is at most reset.

Every command that a pack claims is a number of edits, of aspects that the pack has to do with
(`Command.Family.edits_run?`), and so is every command of the standard chain
(`Chain.edits_standard`). So what edits and frames of the battle keep (`Battle.Kept`), all that
happens in an action keeps, and what is no aspect of a pack, its commands leave alone.
-/

namespace BattleScript

namespace Battle

/-- What of a battle a command can change. -/
inductive Aspect
  | stage
  | roster
  | camera
  | cooldowns
  | stores
  | music
  | breach
  deriving DecidableEq, Repr

/-- What a command does to a battle at once. -/
inductive Edit : Aspect → Battle → Battle → Prop
  | request (b : Battle) {r : StageRequest Float} (standing : r.IsStanding ∨ b.settings.sideView) :
      Edit .stage b (b.request r)
  | battler (b : Battle) {id : BattlerId} {x y : Battler} (hx : b.roster.get? id = some x)
      (steps : Battler.Steps x y) : Edit .roster b (b.withBattler id y)
  | camera (b : Battle) (c : Camera Float) (enabled : b.settings.cameraEnabled) :
      Edit .camera b { b with camera := c }
  | resetCamera (b : Battle) (frames : Nat) :
      Edit .camera b { b with camera := b.camera.reset b.settings.bounds frames }
  | resetZoom (b : Battle) (frames : Nat) :
      Edit .camera b { b with camera := b.camera.startZoom 1 frames }
  | cooldowns (b : Battle) (l : Ledger) : Edit .cooldowns b { b with cooldowns := l }
  | stores (b : Battle) (s : Switches) (v : Variables) (i : Inventory) (events : Array Nat) :
      Edit .stores b
        { b with switches := s, «variables» := v, inventory := i, commonEvents := events }
  | music (b : Battle) (memorized : OrderedMap Channel Track) (m : Mixer) :
      Edit .music b { b with memorized := memorized, mixer := m }
  | breach (b : Battle) {id : BattlerId} {x : Battler} (p : Pool) (hx : b.roster.get? id = some x)
      (negative : x.maxPool p < 0) :
      Edit .breach b { b with breach := some (.negativeMaximum id p) }

/-- A number of edits, of these aspects alone. -/
abbrev Edits (aspects : List Aspect) : Battle → Battle → Prop :=
  Relation.ReflTransGen fun b b' => ∃ a ∈ aspects, Edit a b b'

variable {aspects : List Aspect}

namespace Edits

/-- One edit is a number of edits. -/
theorem of_edit {a : Aspect} {b b' : Battle} (edit : Edit a b b') (ha : a ∈ aspects) :
    Edits aspects b b' :=
  .single ⟨a, ha, edit⟩

/-- Edits of some aspects are edits of more. -/
theorem mono {more : List Aspect} {b b' : Battle} (h : Edits aspects b b')
    (hmore : aspects ⊆ more) : Edits more b b' := by
  induction h with
  | refl => exact .refl
  | tail _ edit ih =>
    obtain ⟨a, ha, edit⟩ := edit
    exact ih.tail ⟨a, hmore ha, edit⟩

/-- What is done for one thing after another is edits, if it is for every single one. -/
theorem foldl {α β : Type} (battle : β → Battle) {f : β → α → β}
    (step : ∀ acc x, Edits aspects (battle acc) (battle (f acc x))) (acc : β) (xs : List α) :
    Edits aspects (battle acc) (battle (xs.foldl f acc)) := by
  induction xs generalizing acc with
  | nil => exact .refl
  | cons x xs ih => exact (step acc x).trans (ih (f acc x))

/-- Requests for show are edits of the stage, one after the other. -/
theorem requests {b : Battle} {rs : List (StageRequest Float)}
    (h : ∀ r ∈ rs, r.IsShow b.settings.sideView) (ha : .stage ∈ aspects) :
    Edits aspects b (b.requests rs) := by
  induction rs generalizing b with
  | nil => exact .refl
  | cons r rs ih =>
    have hrequest : Edits aspects b (b.request r) :=
      of_edit (.request b (h r List.mem_cons_self).2) ha
    exact hrequest.trans (ih fun r' hr' => h r' (List.mem_cons_of_mem r hr'))

/-- What every edit keeps, edits keep. -/
theorem keeps {I : Battle → Prop} (step : ∀ {a b b'}, a ∈ aspects → Edit a b b' → I b → I b')
    {b b' : Battle} (h : Edits aspects b b') (hb : I b) : I b' := by
  induction h with
  | refl => exact hb
  | tail _ edit ih =>
    obtain ⟨a, ha, edit⟩ := edit
    exact step ha edit ih

end Edits

/-- A request that leaves sprites standing. -/
theorem edits_request (b : Battle) {r : StageRequest Float} (h : r.IsStanding)
    (ha : .stage ∈ aspects) : Edits aspects b (b.request r) :=
  .of_edit (.request b (.inl h)) ha

/-- A battler that was changed and noted to collapse, and the request for it if it is due. -/
theorem edits_collapse (b : Battle) {id : BattlerId} {x y : Battler}
    (hx : b.roster.get? id = some x) (steps : Battler.Steps x y) (dead : y.isDead)
    (hroster : .roster ∈ aspects) (hstage : .stage ∈ aspects) :
    Edits aspects b
      (if y.markCollapsed.1 then (b.withBattler id y.markCollapsed.2).request (.collapse id)
        else b.withBattler id y.markCollapsed.2) := by
  have hmark : Edits aspects b (b.withBattler id y.markCollapsed.2) :=
    .of_edit (.battler b hx (steps.tail (.markCollapsed y dead))) hroster
  -- the request is made for the first mark only
  split
  · exact hmark.trans (edits_request _ trivial hstage)
  · exact hmark

/-- At the end of an action the camera is put back where it may be. -/
theorem edits_restoreCamera (b : Battle) (panFrames zoomFrames : Nat) (ha : .camera ∈ aspects) :
    Edits aspects b (b.restoreCamera panFrames zoomFrames) :=
  (Edits.of_edit (.resetCamera b panFrames) ha).trans (Edits.of_edit (.resetZoom _ zoomFrames) ha)

/-- A change of cooldowns gives other cooldowns, if there is anything to change. -/
theorem edits_applyCooldownChanges (b : Battle) (id : BattlerId) (item : ItemRef)
    (ha : .cooldowns ∈ aspects) : Edits aspects b (b.applyCooldownChanges id item) := by
  unfold applyCooldownChanges
  split
  · exact .of_edit (.cooldowns b _) ha
  · exact .refl

theorem edits_refreshStatus (b : Battle) (refresh : Bool) (ha : .stage ∈ aspects) :
    Edits aspects b (b.refreshStatus refresh) := by
  unfold refreshStatus
  split
  · exact b.edits_request trivial ha
  · exact .refl

end Battle

open Battle (Aspect Edit Edits)

/-! ## Control commands -/

namespace ControlOp

/-- What control commands can change. -/
def aspects : List Aspect := [.stage, .roster, .camera, .cooldowns]

/-- Immortality is an operation on the battler; if that lets it fall, it collapses. -/
theorem edits_setImmortal (on : Bool) (b : Battle) (id : BattlerId) :
    Edits aspects b (setImmortal on b id) := by
  unfold setImmortal
  split
  · exact .refl
  · next x hx =>
    have hstep : Battler.Steps x (x.setImmortal on) := .single (.setImmortal x on)
    dsimp only
    split
    · next h => exact b.edits_collapse hx hstep (by simp_all) (by decide) (by decide)
    · exact .of_edit (.battler b hx hstep) (by decide)

/-- A strike is shown, and changes cooldowns. -/
theorem edits_strike (c : ActionContext) (b : Battle) (id : BattlerId) :
    Edits aspects b (strike c b id) :=
  have hshown : Edits aspects b (b.request (.actionEffect c.subject id c.item)) :=
    b.edits_request trivial (by decide)
  hshown.trans (Battle.edits_applyCooldownChanges _ _ _ (by decide))

/-- A control command is a number of edits. -/
theorem edits_run (op : ControlOp) (c : ActionContext) (b : Battle) :
    Edits aspects b (op.run c b).2 := by
  -- waits and breaks do nothing, the shows are requests, and the rest goes through its targets
  cases op with
  | wait | waitFor => exact .refl
  | motionWait target =>
    simp only [run]
    split <;> exact .refl
  | deathBreak =>
    simp only [run]
    split <;> exact .refl
  | displayAction | clearBattleLog => exact b.edits_request trivial (by decide)
  | perform p =>
    cases p with
    | start | action => exact b.edits_request trivial (by decide)
    | finish =>
      refine (b.edits_request (r := .perform c.subject .finish) trivial (by decide)).trans ?_
      simp only [run]
      split
      · exact Battle.edits_restoreCamera _ 30 30 (by decide)
      · exact .refl
  | castAnimation =>
    simp only [run]
    split
    · exact b.edits_request trivial (by decide)
    · exact .refl
  | actionAnimation target mirror =>
    simp only [run]
    split
    · exact .refl
    · exact b.edits_request trivial (by decide)
  | actionEffect target => exact .foldl id (edits_strike c) b _
  | immortal target on => exact .foldl id (edits_setImmortal on) b _

end ControlOp

/-! ## Effect commands -/

namespace EffectOp

/-- What effect commands can change. -/
def aspects : List Aspect := [.stage, .roster, .stores, .music, .breach]

/-- What commands about battlers can change. -/
def battlerAspects : List Aspect := [.stage, .roster, .breach]

/-- What an effect command can change. -/
def touched : EffectOp → List Aspect
  | buff .. | state .. | animation .. | collapse .. | pool .. | refreshStatus => battlerAspects
  | audio .. => [.music]
  | commonEvent _ | switches .. | assign .. | gainItem .. | gold _ => [.stores]

/-- Whatever form an effect command has, it stays with the aspects of its pack. -/
theorem touched_subset (op : EffectOp) : op.touched ⊆ aspects := by
  cases op <;> simp [touched, battlerAspects, aspects]

/-- A change of buffs is one operation of the battler. -/
theorem steps_applyBuff {change : BuffChange} {p : Param} {turns : Nat} {x y : Battler}
    {told : String} (h : applyBuff change p turns x = some (told, y)) : Battler.Steps x y := by
  cases change <;> simp only [applyBuff] at h <;> split at h <;> cases h
  · exact .single (.addBuff x p turns)
  · exact .single (.addDebuff x p turns)
  · exact .single (.removeBuff x p)
  · exact .single (.removeBuff x p)

/-- A change of states is one operation of the battler. -/
theorem steps_applyState {add : Bool} {s : Nat} {x y : Battler} {told : String}
    (h : applyState add s x = some (told, y)) : Battler.Steps x y := by
  simp only [applyState] at h
  split at h
  · cases h
    exact .single (.addState x s)
  · split at h <;> cases h
    exact .single (.removeState x s)

/-- A change of one battler, told of or not. -/
theorem edits_told (b : Battle) {id : BattlerId} {x y : Battler} (hx : b.roster.get? id = some x)
    (steps : Battler.Steps x y) (report : Bool) (told : String) :
    Edits battlerAspects b
      (if report then (b.withBattler id y).showResult id told else b.withBattler id y) := by
  have hbattler : Edits battlerAspects b (b.withBattler id y) :=
    .of_edit (.battler b hx steps) (by decide)
  split
  · exact hbattler.trans (Battle.edits_request _ trivial (by decide))
  · exact hbattler

/-- A buff is given to one target at a time, and told of if it is to be. -/
theorem edits_buffOne (change : BuffChange) (p : Param) (turns : Nat) (report : Bool)
    (acc : Progress) (id : BattlerId) :
    Edits battlerAspects acc.1 (buffOne change p turns report acc id).1 := by
  unfold buffOne
  split
  · exact .refl
  · next told y h =>
    obtain ⟨x, hx, hy⟩ := Option.bind_eq_some_iff.mp h
    exact edits_told acc.1 hx (steps_applyBuff hy) report _

theorem edits_stateOne (add report : Bool) (id : BattlerId) (acc : Progress) (s : Nat) :
    Edits battlerAspects acc.1 (stateOne add report id acc s).1 := by
  unfold stateOne
  split
  · exact .refl
  · next told y h =>
    obtain ⟨x, hx, hy⟩ := Option.bind_eq_some_iff.mp h
    exact edits_told acc.1 hx (steps_applyState hy) report _

theorem edits_poolOne (p : Pool) (amount : Amount) (report : Bool) (acc : Progress)
    (id : BattlerId) : Edits battlerAspects acc.1 (poolOne p amount report acc id).1 := by
  unfold poolOne
  split
  · exact .refl
  · next x hx =>
    -- a breach is noted before the pool changes, and leaves the roster alone
    have hnote : Edits battlerAspects acc.1 (noteBreach acc.1 id p x) ∧
        (noteBreach acc.1 id p x).roster = acc.1.roster := by
      unfold noteBreach
      split
      · next h => exact ⟨.of_edit (.breach acc.1 p hx h.1) (by decide), rfl⟩
      · exact ⟨.refl, rfl⟩
    obtain ⟨hedits, hroster⟩ := hnote
    have hgain (n : Int) :
        Edits battlerAspects acc.1 ((noteBreach acc.1 id p x).withBattler id (x.gain p n)) :=
      hedits.trans (Edits.of_edit (.battler _ (hroster ▸ hx) (.single (.gain x p n))) (by decide))
    have hshown (b : Battle) (message : String) :
        Edits battlerAspects b ((b.request (.damagePopup id)).showResult id message) :=
      (b.edits_request (r := .damagePopup id) trivial (by decide)).trans
        (Battle.edits_request _ (r := .displayResults id message) trivial (by decide))
    dsimp only
    split
    · exact (hgain _).trans (hshown _ _)
    · exact hgain _

/-- A collapse by force is three operations, mortality, death and the mark, and one request. -/
theorem edits_collapseOne (force : Bool) (b : Battle) (id : BattlerId) :
    Edits battlerAspects b (collapseOne force b id) := by
  unfold collapseOne
  split
  · exact .refl
  · next x hx =>
    have hsteps : Battler.Steps x
        (if force then ((x.setImmortal false).addState x.deathState).2 else x) := by
      split
      · exact (Relation.ReflTransGen.single (.setImmortal x false)).tail (.addState _ _)
      · exact .refl
    dsimp only
    generalize (if force then _ else x) = y at hsteps ⊢
    split
    · next dead => exact b.edits_collapse hx hsteps dead (by decide) (by decide)
    · exact .of_edit (.battler b hx hsteps) (by decide)

theorem edits_playCue (channel : Channel) (cue : Cue) (b : Battle) :
    Edits [.music] b (playCue channel cue b) := by
  obtain ⟨memorized, mixer, hb⟩ := battle_playCue channel cue b
  exact hb ▸ .of_edit (.music b memorized mixer) (by decide)

/-- Switches, variables, things and common events are the stores. -/
theorem edits_stores {op : EffectOp} (h : op.isForStores) (c : ActionContext) (b : Battle) :
    Edits [.stores] b (op.run c b).2 := by
  obtain ⟨switches, vars, inventory, events, hb⟩ := battle_run_of_stores h c b
  exact hb ▸ .of_edit (.stores b switches vars inventory events) (by decide)

/-- An effect command is a number of edits, of the aspects that its form has to do with. -/
theorem edits_run (op : EffectOp) (c : ActionContext) (b : Battle) :
    Edits op.touched b (op.run c b).2 := by
  cases op with
  | buff change param target turns report =>
    simp only [run]
    split
    · exact .refl
    · cases param with
      | none => exact .refl
      | some p =>
        exact (Edits.foldl Prod.fst (edits_buffOne change p turns report) (b, false) _).trans
          (Battle.edits_refreshStatus _ _ (by decide))
  | state add states target report =>
    show Edits battlerAspects b _
    simp only [run]
    split
    · exact .refl
    · refine .trans ?_ (Battle.edits_refreshStatus _ _ (by decide))
      exact Edits.foldl Prod.fst
        (fun acc id => Edits.foldl Prod.fst (edits_stateOne add report id) acc states) (b, false) _
  | animation animationId target mirror =>
    show Edits battlerAspects b _
    simp only [run]
    split
    · exact .refl
    · split
      · exact .refl
      · exact b.edits_request trivial (by decide)
  | audio channel cue =>
    cases cue with
    | none => exact .refl
    | some cue => exact edits_playCue channel cue b
  | collapse target force => exact .foldl id (edits_collapseOne force) b _
  | commonEvent | switches | assign | gainItem | gold => exact edits_stores rfl c b
  | pool p amount target report =>
    simp only [run]
    split
    · exact .refl
    · cases amount with
      | none => exact .refl
      | some a =>
        exact (Edits.foldl Prod.fst (edits_poolOne p a report) (b, false) _).trans
          (Battle.edits_refreshStatus _ _ (by decide))
  | refreshStatus => exact b.edits_request trivial (by decide)

end EffectOp

/-! ## Commands for show -/

/-- What motion commands can change. -/
def MotionOp.aspects : List Aspect := [.stage]

/-- A motion command is a number of requests. -/
theorem MotionOp.edits_run? {op : MotionOp} {c : ActionContext} {b b' : Battle} {signal : Signal}
    (h : op.run? c b = some (signal, b')) : Edits aspects b b' := by
  obtain ⟨rs, hshow, rfl⟩ := shown_run? h
  exact .requests hshow (by decide)

/-- What camera commands can change. -/
def CameraOp.aspects : List Aspect := [.camera]

/-- A camera command resets the camera, or changes it where scripts may. -/
theorem CameraOp.edits_run (op : CameraOp) (c : ActionContext) (b : Battle) :
    Edits aspects b (op.run c b).2 := by
  unfold run
  split
  · dsimp only
    split
    · exact .of_edit (.resetCamera b _) (by decide)
    · exact .refl
  · dsimp only
    split
    · exact .of_edit (.resetZoom b _) (by decide)
    · exact .refl
  · split <;> exact .refl
  · split
    · next enabled =>
      obtain ⟨camera, hb⟩ := battle_runEnabled _ c b
      exact hb ▸ .of_edit (.camera b camera enabled) (by decide)
    · exact .refl

/-- What cooldown commands can change. -/
def CooldownOp.aspects : List Aspect := [.cooldowns]

/-- A cooldown command is one edit. -/
theorem CooldownOp.edits_run (op : CooldownOp) (c : ActionContext) (b : Battle) :
    Edits aspects b (op.run c b).2 := by
  obtain ⟨cooldowns, hb⟩ := op.battle_run c b
  exact hb ▸ .of_edit (.cooldowns b cooldowns) (by decide)

/-! ## All commands -/

/-- What the commands of a family can change. -/
def Command.Family.aspects : Command.Family → List Aspect
  | .control => ControlOp.aspects
  | .effect => EffectOp.aspects
  | .motion => MotionOp.aspects
  | .camera => CameraOp.aspects
  | .cooldown => CooldownOp.aspects

/-- **What a pack claims is a number of edits**, of aspects that the pack has to do with, and it
leaves the context alone. -/
theorem Command.Family.edits_run? {f : Family} {command : Command} {scene : Scene}
    {out : Signal × Scene} (h : f.pack.run? command scene = some out) :
    Edits f.aspects scene.battle out.2.battle ∧
      out.2 = { scene with battle := out.2.battle } := by
  cases f with
  | control =>
    obtain ⟨op, -, rfl⟩ := Pack.run?_ofInstructions_some h
    exact ⟨op.edits_run _ _, rfl⟩
  | effect =>
    obtain ⟨op, -, rfl⟩ := Pack.run?_ofInstructions_some h
    exact ⟨(op.edits_run _ _).mono op.touched_subset, rfl⟩
  | motion =>
    obtain ⟨op, signal, b, -, hrun, rfl⟩ := Pack.run?_ofInstructions_eq_some h
    exact ⟨MotionOp.edits_run? hrun, rfl⟩
  | camera =>
    obtain ⟨op, -, rfl⟩ := Pack.run?_ofInstructions_some h
    exact ⟨op.edits_run _ _, rfl⟩
  | cooldown =>
    obtain ⟨op, -, rfl⟩ := Pack.run?_ofInstructions_some h
    exact ⟨op.edits_run _ _, rfl⟩

/-- So is every command of the standard chain. -/
theorem Chain.edits_standard (command : Command) (scene : Scene) :
    Edits command.family.aspects scene.battle (standard.dispatch command scene).2.battle := by
  rw [dispatch_eq]
  cases hrun : command.family.pack.run? command scene with
  | none => exact .refl
  | some out => exact (Command.Family.edits_run? hrun).1

/-! ## What edits and frames keep -/

namespace Battle

/-- What every edit and every frame keeps. -/
structure Kept (I : Battle → Prop) : Prop where
  edit : ∀ {a b b'}, Edit a b b' → I b → I b'
  advance : ∀ {b}, I b → I b.advance

namespace Kept

variable {I : Battle → Prop} {b : Battle}

/-- What every edit keeps, a number of edits keep. -/
theorem edits (kept : Kept I) {aspects : List Aspect} {b' : Battle} (h : Edits aspects b b')
    (hb : I b) : I b' :=
  h.keeps (fun _ => kept.edit) hb

/-- So does every standard command. -/
theorem command (kept : Kept I) (command : Command) (scene : Scene) (h : I scene.battle) :
    I (Chain.standard.dispatch command scene).2.battle :=
  kept.edits (Chain.edits_standard command scene) h

theorem restoreCamera (kept : Kept I) (panFrames zoomFrames : Nat) (h : I b) :
    I (b.restoreCamera panFrames zoomFrames) := by
  have hedits : Edits [.camera] b (b.restoreCamera panFrames zoomFrames) :=
    b.edits_restoreCamera panFrames zoomFrames (by decide)
  exact kept.edits hedits h

/-- Paying is an edit of the cooldowns. -/
theorem payCooldowns (kept : Kept I) (id : BattlerId) (item : ItemRef) (h : I b) :
    I (b.payCooldowns id item) := by
  obtain ⟨l, hl⟩ := b.exists_payCooldowns_eq id item
  exact hl ▸ kept.edit (.cooldowns b l) h

end Kept

end Battle

end BattleScript
