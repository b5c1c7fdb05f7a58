import BattleScript.Proofs.Looks.Alike
import BattleScript.Proofs.Standard.Dispatch

/-!
# Commands on battles that differ in their looks

The standard commands make alike battles of alike battles (`Chain.alike_standard`), and abort on
both or on neither (`Chain.abort_standard`). They may well tell the interpreter to wait on one and
to go on on the other, since the looks decide whether there is anything to wait for.

Motion and camera commands leave each battle like it was, so nothing has to be compared. The other
packs are taken through both battles side by side: at each of their steps the two read the same, and
make the same change.
-/

namespace BattleScript

/-- Scenes whose battles are alike, in the same context. -/
structure Scene.Alike (s s' : Scene) : Prop where
  battle : s.battle.Alike s'.battle
  context : s.context = s'.context

open Battle (Alike)

variable {b b' : Battle}

/-! ## Control commands -/

namespace ControlOp

/-- To set or take immortality reads the battler, and both battles have the same one. -/
theorem alike_setImmortal (on : Bool) (h : b.Alike b') (id : BattlerId) :
    (setImmortal on b id).Alike (setImmortal on b' id) := by
  simp only [setImmortal, h.roster]
  split
  · exact h
  · split
    · have hmark := fun z => h.withBattler id z
      split
      · exact (hmark _).request _
      · exact hmark _
    · exact h.withBattler id _

/-- A strike asks for an effect and makes the changes of the item. -/
theorem alike_strike (c : ActionContext) (h : b.Alike b') (id : BattlerId) :
    (strike c b id).Alike (strike c b' id) :=
  (h.request _).applyCooldownChanges id c.item

/-- The targets of a command are the same, also where they are those of the context. -/
theorem targetsOr_eq (h : b.Alike b') (c : ActionContext) (target : Option String) :
    targetsOr c b target = targetsOr c b' target := by
  cases target with
  | none => rfl
  | some target => exact h.targets c (some target)

/-- The end of the performance moves the camera, in side view. -/
theorem alike_performFinish (c : ActionContext) (b : Battle) :
    ((perform .finish).run c b).2.Alike b := by
  have hrequest : (b.request (.perform c.subject .finish)).Alike b := .of_request b trivial
  simp only [run]
  split
  · exact (Alike.of_restoreCamera _ 30 30).trans hrequest
  · exact hrequest

/-- An animation is shown and changes nothing else. -/
theorem alike_actionAnimation (target : Option String) (mirror : Bool) (c : ActionContext)
    (b : Battle) : ((actionAnimation target mirror).run c b).2.Alike b := by
  simp only [run]
  split
  · exact .refl b
  · exact .of_request b trivial

/-- Control commands make alike battles of alike battles. -/
theorem alike_run (op : ControlOp) (c : ActionContext) (h : b.Alike b') :
    (op.run c b).2.Alike (op.run c b').2 := by
  cases op with
  | wait | waitFor => exact h
  | motionWait | deathBreak =>
    simp only [run]
    repeat' split
    all_goals exact h
  | displayAction | clearBattleLog => exact h.request _
  | perform p =>
    cases p with
    | start | action => exact h.request _
    | finish => exact ((alike_performFinish c b).trans h).trans (alike_performFinish c b').symm
  | castAnimation =>
    simp only [run]
    split
    · exact h.request _
    · exact h
  | actionAnimation target mirror =>
    -- whether there is an animation need not be compared: it leaves each battle like it was
    exact ((alike_actionAnimation target mirror c b).trans h).trans
      (alike_actionAnimation target mirror c b').symm
  | actionEffect target =>
    simp only [run, targetsOr_eq h]
    exact List.foldl_rel h fun id _ _ _ h => alike_strike c h id
  | immortal target on =>
    simp only [run, h.targets]
    exact List.foldl_rel h fun id _ _ _ h => alike_setImmortal on h id

end ControlOp

/-! ## Effect commands -/

namespace EffectOp

/-- Progress in battles that are alike, and with the status due in both or in neither. -/
structure Progress.Alike (p p' : Progress) : Prop where
  battle : p.1.Alike p'.1
  refresh : p.2 = p'.2

variable {acc acc' : Progress}

/-- At the end of the work on targets both show the status anew, or neither does. -/
theorem Progress.Alike.settle (h : Progress.Alike acc acc') :
    (settleProgress acc).Alike (settleProgress acc') := by
  unfold settleProgress
  rw [h.refresh]
  exact h.battle.refreshStatus _

/-- A change of one battler that is told of or not. -/
theorem alike_told (h : b.Alike b') (id : BattlerId) (x : Battler) (report : Bool) (told : String) :
    (if report then (b.withBattler id x).showResult id told else b.withBattler id x).Alike
      (if report then (b'.withBattler id x).showResult id told else b'.withBattler id x) := by
  split
  · exact (h.withBattler id x).request _
  · exact h.withBattler id x

/-- A buff command works on the same battler in both, and comes to the same. -/
theorem alike_buffOne (change : BuffChange) (p : Param) (turns : Nat) (report : Bool)
    (h : Progress.Alike acc acc') (id : BattlerId) :
    Progress.Alike (buffOne change p turns report acc id)
      (buffOne change p turns report acc' id) := by
  simp only [buffOne, h.battle.roster]
  cases (acc'.1.roster.get? id).bind (applyBuff change p turns) with
  | none => exact h
  | some y => exact ⟨alike_told h.battle id y.2 report _, congrArg (· || id.isActor) h.refresh⟩

/-- So does a state command. -/
theorem alike_stateOne (add report : Bool) (id : BattlerId) (h : Progress.Alike acc acc')
    (s : Nat) :
    Progress.Alike (stateOne add report id acc s) (stateOne add report id acc' s) := by
  simp only [stateOne, h.battle.roster]
  cases (acc'.1.roster.get? id).bind (applyState add s) with
  | none => exact h
  | some y => exact ⟨alike_told h.battle id y.2 report y.1, congrArg (· || id.isActor) h.refresh⟩

/-- A breach is noted in both or in neither. -/
theorem alike_noteBreach (h : b.Alike b') (id : BattlerId) (p : Pool) (x : Battler) :
    (noteBreach b id p x).Alike (noteBreach b' id p x) := by
  unfold noteBreach
  rw [h.breach]
  split
  · exact { h with breach := rfl }
  · exact h

/-- A pool command reads a variable at most, on which both agree. -/
theorem alike_poolOne (p : Pool) (amount : Amount) (report : Bool) (h : Progress.Alike acc acc')
    (id : BattlerId) :
    Progress.Alike (poolOne p amount report acc id) (poolOne p amount report acc' id) := by
  simp only [poolOne, h.battle.roster]
  split
  · exact h
  · next x _ =>
    have hnote := alike_noteBreach h.battle id p x
    rw [hnote.variables]
    split
    · exact ⟨((hnote.withBattler id _).request _).request _,
        congrArg (· || id.isActor) h.refresh⟩
    · exact ⟨hnote.withBattler id _, h.refresh⟩

/-- A collapse marks the same battler and asks for the same request. -/
theorem alike_collapseOne (force : Bool) (h : b.Alike b') (id : BattlerId) :
    (collapseOne force b id).Alike (collapseOne force b' id) := by
  simp only [collapseOne, h.roster]
  split
  · exact h
  · next x _ =>
    generalize (if force then _ else x) = y
    split
    · split
      · exact (h.withBattler id _).request _
      · exact h.withBattler id _
    · exact h.withBattler id _

/-- A cue makes the same change to the music of both. -/
theorem alike_playCue (channel : Channel) (cue : Cue) (h : b.Alike b') :
    (playCue channel cue b).Alike (playCue channel cue b') := by
  cases cue with
  | stop => exact { h with mixer := congrArg (·.stop channel) h.mixer }
  | memorize =>
    refine { h with memorized := ?_ }
    simp only [playCue, h.mixer, h.memorized]
  | replay =>
    have hfind : b.memorized.find? channel = b'.memorized.find? channel := by rw [h.memorized]
    simp only [playCue, hfind]
    split
    · next track _ => exact { h with mixer := congrArg (·.replay channel track) h.mixer }
    · exact h
  | system sound => exact { h with mixer := congrArg (·.system sound) h.mixer }
  | play name volume pitch pan =>
    -- where the cue has no volume, pitch or pan, those of the settings are taken, which agree
    have hvolume : b.settings.defaultVolume = b'.settings.defaultVolume := by
      show b.settings.plain.defaultVolume = b'.settings.plain.defaultVolume
      rw [h.settings]
    have hpitch : b.settings.defaultPitch = b'.settings.defaultPitch := by
      show b.settings.plain.defaultPitch = b'.settings.plain.defaultPitch
      rw [h.settings]
    have hpan : b.settings.defaultPan = b'.settings.defaultPan := by
      show b.settings.plain.defaultPan = b'.settings.plain.defaultPan
      rw [h.settings]
    refine { h with mixer := ?_ }
    simp only [playCue, h.mixer, hvolume, hpitch, hpan]

/-- Effect commands make alike battles of alike battles. -/
theorem alike_run (op : EffectOp) (c : ActionContext) (h : b.Alike b') :
    (op.run c b).2.Alike (op.run c b').2 := by
  have hstart : Progress.Alike (b, false) (b', false) := ⟨h, rfl⟩
  cases op with
  | buff change param target turns report =>
    simp only [run, h.targets]
    split
    · exact h
    · split
      · exact h
      · exact (List.foldl_rel hstart fun id _ _ _ h =>
          alike_buffOne change _ turns report h id).settle
  | state add states target report =>
    simp only [run, h.targets]
    split
    · exact h
    · exact (List.foldl_rel hstart fun id _ _ _ h =>
        List.foldl_rel h fun s _ _ _ h => alike_stateOne add report id h s).settle
  | animation animationId target mirror =>
    simp only [run, h.targets]
    split
    · exact h
    · split
      · exact h
      · exact h.request _
  | audio channel cue =>
    cases cue with
    | none => exact h
    | some cue => exact alike_playCue channel cue h
  | collapse target force =>
    simp only [run, h.targets]
    exact List.foldl_rel h fun id _ _ _ h => alike_collapseOne force h id
  | commonEvent id =>
    simp only [run]
    split
    · split
      · exact { h with commonEvents := congrArg (Array.push · _) h.commonEvents }
      · exact h
    · exact h
  | switches first last change =>
    simp only [run]
    split
    · exact h
    · refine { h with switches := ?_ }
      dsimp only
      rw [h.switches]
  | assign id operator operand =>
    have hvariables : b.variables = b'.variables := h.variables
    simp only [run, hvariables]
    split
    · exact { h with «variables» := rfl }
    · exact h
  | gainItem kind id amount =>
    exact { h with inventory := congrArg (Inventory.gainItem · kind id amount) h.inventory }
  | gold amount => exact { h with inventory := congrArg (Inventory.gainGold · amount) h.inventory }
  | pool p amount target report =>
    simp only [run, h.targets]
    split
    · exact h
    · split
      · exact h
      · exact (List.foldl_rel hstart fun id _ _ _ h => alike_poolOne p _ report h id).settle
  | refreshStatus => exact h.request _

end EffectOp

/-! ## Motion, camera and cooldown commands -/

/-- Whether a motion command is declined, its movers decide. -/
theorem MotionOp.isSome_run? (op : MotionOp) (c : ActionContext) (h : b.Alike b') :
    (op.run? c b).isSome = (op.run? c b').isSome := by
  cases op with
  | deed movers d =>
    simp only [run?, h.targets]
    split <;> rfl
  | _ => rfl

/-- Camera commands move each camera in its own way, which is a matter of looks. -/
theorem CameraOp.alike_run (op : CameraOp) (c : ActionContext) (h : b.Alike b') :
    (op.run c b).2.Alike (op.run c b').2 := by
  obtain ⟨camera, hb⟩ := op.battle_run c b
  obtain ⟨camera', hb'⟩ := op.battle_run c b'
  rw [hb, hb']
  exact ((Alike.of_camera b camera).trans h).trans (Alike.of_camera b' camera').symm

namespace CooldownOp

/-- The same skills are in scope. -/
theorem skills_eq (h : b.Alike b') (id : BattlerId) (scope : CooldownScope) :
    skills b id scope = skills b' id scope := by
  have hids : skillIds b id scope = skillIds b' id scope := by
    cases scope with
    | known => rw [skillIds, h.knownSkills, skillIds]
    | skill n => rfl
    | skillType stype => rw [skillIds, h.knownSkills, skillIds]
  rw [skills, hids, h.database, skills]

/-- A write to a cooldown reads no setting of the looks. -/
theorem changeOne_plain (settings : Settings) (change : CooldownChange) :
    changeOne settings.plain change = changeOne settings change := by
  cases change <;> rfl

/-- So a change to the skills in scope is the same function of the ledger. -/
theorem changeAll_eq (h : b.Alike b') (scope : CooldownScope) (change : CooldownChange) :
    changeAll scope change b = changeAll scope change b' := by
  funext l id
  rw [changeAll, ← changeOne_plain, h.settings, changeOne_plain, skills_eq h, changeAll]

/-- Cooldown commands make alike battles of alike battles. -/
theorem alike_run (op : CooldownOp) (c : ActionContext) (h : b.Alike b') :
    (op.run c b).2.Alike (op.run c b').2 := by
  unfold run
  split
  · exact h
  · refine { h with cooldowns := ?_ }
    dsimp only
    rw [h.targets, changeAll_eq h, h.cooldowns]

end CooldownOp

/-! ## All commands -/

/-- The pack claims a command on both of two alike scenes or on neither, and makes alike scenes of
them. -/
def Pack.IsBlind (p : Pack) : Prop :=
  ∀ (command : Command) {s s' : Scene}, s.Alike s' →
    Option.Rel (fun o o' => o.2.Alike o'.2) (p.run? command s) (p.run? command s')

/-- A pack whose instructions never decline is blind to the looks if its instructions are. -/
theorem Pack.isBlind_ofInstructions {ι : Type} {name : String} {read? : Command → Option ι}
    {run : ι → ActionContext → Battle → Signal × Battle}
    (h : ∀ op c {b b' : Battle}, b.Alike b' → (run op c b).2.Alike (run op c b').2) :
    (Pack.ofInstructions name read? fun op c b => some (run op c b)).IsBlind := by
  rintro command ⟨b, c⟩ ⟨b', c'⟩ ⟨hb, rfl⟩
  simp only [Pack.ofInstructions]
  cases read? command with
  | none => exact .none
  | some op => exact .some ⟨h op c hb, rfl⟩

/-- Motion commands may decline, but then they do so on both battles. -/
theorem MotionOp.isBlind_pack : MotionOp.pack.IsBlind := by
  rintro command ⟨b, c⟩ ⟨b', c'⟩ ⟨hb, rfl⟩
  simp only [MotionOp.pack, Pack.ofInstructions]
  cases MotionOp.ofCommand? command with
  | none => exact .none
  | some op =>
    -- both run the command or both decline it, and none of them shows it in the log
    have hsome := op.isSome_run? c hb
    cases ho : op.run? c b with
    | none =>
      have ho' : op.run? c b' = none := by simpa [ho] using hsome
      simp only [Option.bind_eq_bind, Option.bind_some, ho, ho', Option.bind_none]
      exact .none
    | some o =>
      obtain ⟨o', ho'⟩ := Option.isSome_iff_exists.mp (hsome ▸ Option.isSome_iff_exists.mpr ⟨o, ho⟩)
      simp only [Option.bind_eq_bind, Option.bind_some, ho, ho']
      exact .some ⟨((Alike.of_shown (shown_run? ho)).trans hb).trans
        (Alike.of_shown (shown_run? ho')).symm, rfl⟩

namespace Chain

/-- All five packs are blind to the looks. -/
theorem isBlind_pack (f : Command.Family) : f.pack.IsBlind := by
  cases f with
  | control => exact Pack.isBlind_ofInstructions fun op c _ _ hb => ControlOp.alike_run op c hb
  | effect => exact Pack.isBlind_ofInstructions fun op c _ _ hb => EffectOp.alike_run op c hb
  | motion => exact MotionOp.isBlind_pack
  | camera => exact Pack.isBlind_ofInstructions fun op c _ _ hb => CameraOp.alike_run op c hb
  | cooldown => exact Pack.isBlind_ofInstructions fun op c _ _ hb => CooldownOp.alike_run op c hb

/-- A standard command makes alike scenes of alike scenes. -/
theorem alike_standard (command : Command) {s s' : Scene} (hs : s.Alike s') :
    (standard.dispatch command s).2.Alike (standard.dispatch command s').2 := by
  have hrel := isBlind_pack command.family command hs
  rw [dispatch_eq, dispatch_eq]
  generalize command.family.pack.run? command s = o at hrel
  generalize command.family.pack.run? command s' = o' at hrel
  cases hrel with
  | none => exact hs
  | some ho => exact ho

/-- A standard command aborts on both of two alike scenes or on neither. -/
theorem abort_standard (command : Command) {s s' : Scene} (hs : s.Alike s') :
    (standard.dispatch command s).1 = .abort ↔ (standard.dispatch command s').1 = .abort := by
  rw [standard_abort_iff, standard_abort_iff, hs.battle.roster, hs.context]

end Chain

end BattleScript
