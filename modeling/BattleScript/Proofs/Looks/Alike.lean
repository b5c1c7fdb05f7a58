import BattleScript.Proofs.Standard.Show

/-!
# Battles that differ only in their looks

Two battles are alike if they agree on all that a player of the game has to reckon with: the rules,
the battlers, the database, the stores, the cooldowns, the music and the lines of the log. They may
differ in how it looks: in the sprites and everything else that the stage shows, in the camera, in
the number of frames, and in the settings that say how the field is shown.

The looks are changed by silent requests (`Alike.of_shown`), by the camera (`Alike.of_camera`) and
by frames (`Alike.of_advance`), each of which gives a battle like the one before. All other changes
are made alike to both battles, and read the settings only where they agree (`Settings.plain`).
-/

namespace BattleScript

/-- Settings with one and the same field for all. -/
def Settings.plain (s : Settings) : Settings :=
  { s with stepDistance := 48, bounds := .standard, sideView := true, battleCamera := true }

/-- Two battles agree on all but their looks. -/
structure Battle.Alike (b b' : Battle) : Prop where
  settings : b.settings.plain = b'.settings.plain
  roster : b.roster = b'.roster
  database : b.database = b'.database
  switches : b.switches = b'.switches
  «variables» : b.variables = b'.variables
  inventory : b.inventory = b'.inventory
  cooldowns : b.cooldowns = b'.cooldowns
  commonEvents : b.commonEvents = b'.commonEvents
  memorized : b.memorized = b'.memorized
  log : b.stage.log = b'.stage.log
  mixer : b.mixer = b'.mixer
  steps : b.steps = b'.steps
  breach : b.breach = b'.breach

/-! ## The log of the stage -/

namespace Stage

variable {α : Type} [Scalar α]

/-- What a request makes of the lines of the log depends on them alone. -/
theorem log_request {s t : Stage α} (h : s.log = t.log) (r : StageRequest α) :
    (s.request r).log = (t.request r).log := by
  show (s.react r).log = (t.react r).log
  cases r with
  -- three requests write lines or clear them; the others leave the log as it is
  | displayAction | displayResults => exact congrArg (Array.push · _) h
  | effect _ e => cases e <;> exact h
  | actionEffect | damagePopup =>
    simp only [react]
    repeat' split
    all_goals exact h
  | clearLog => rfl
  | _ => exact h

/-- A silent request leaves the lines of the log as they are. -/
theorem log_request_of_isSilent (s : Stage α) {r : StageRequest α} (h : r.IsSilent) :
    (s.request r).log = s.log := by
  show (s.react r).log = s.log
  cases r with
  | displayAction | displayResults | clearLog => exact h.elim
  | effect _ e => cases e <;> rfl
  | actionEffect | damagePopup =>
    simp only [react]
    split <;> rfl
  | _ => rfl

end Stage

namespace Battle

variable {b b' b'' : Battle}

namespace Alike

theorem refl (b : Battle) : b.Alike b :=
  ⟨rfl, rfl, rfl, rfl, rfl, rfl, rfl, rfl, rfl, rfl, rfl, rfl, rfl⟩

theorem symm (h : b.Alike b') : b'.Alike b where
  settings := h.settings.symm
  roster := h.roster.symm
  database := h.database.symm
  switches := h.switches.symm
  «variables» := h.variables.symm
  inventory := h.inventory.symm
  cooldowns := h.cooldowns.symm
  commonEvents := h.commonEvents.symm
  memorized := h.memorized.symm
  log := h.log.symm
  mixer := h.mixer.symm
  steps := h.steps.symm
  breach := h.breach.symm

theorem trans (h : b.Alike b') (h' : b'.Alike b'') : b.Alike b'' where
  settings := h.settings.trans h'.settings
  roster := h.roster.trans h'.roster
  database := h.database.trans h'.database
  switches := h.switches.trans h'.switches
  «variables» := h.variables.trans h'.variables
  inventory := h.inventory.trans h'.inventory
  cooldowns := h.cooldowns.trans h'.cooldowns
  commonEvents := h.commonEvents.trans h'.commonEvents
  memorized := h.memorized.trans h'.memorized
  log := h.log.trans h'.log
  mixer := h.mixer.trans h'.mixer
  steps := h.steps.trans h'.steps
  breach := h.breach.trans h'.breach

/-! ## Changes of the looks alone -/

/-- Another stage with the same lines of the log gives an alike battle. -/
theorem of_log {s : Stage Float} (h : s.log = b.stage.log) : Alike { b with stage := s } b :=
  { refl b with log := h }

theorem of_camera (b : Battle) (c : Camera Float) : Alike { b with camera := c } b :=
  { refl b with }

theorem of_request (b : Battle) {r : StageRequest Float} (h : r.IsSilent) :
    Alike (b.request r) b :=
  of_log (b.stage.log_request_of_isSilent h)

/-- What is shown by silent requests gives an alike battle. -/
theorem of_shown (h : b.Shown b') : b'.Alike b := by
  obtain ⟨rs, hrs, rfl⟩ := h
  induction rs generalizing b with
  | nil => exact refl b
  | cons r rs ih =>
    have hr : Alike (b.request r) b := of_request b (hrs r List.mem_cons_self).1
    have hrest : Alike ((b.request r).requests rs) (b.request r) :=
      ih (b := b.request r) fun r' hr' => hrs r' (List.mem_cons_of_mem r hr')
    exact hrest.trans hr

/-- A frame moves the camera and the stage only. -/
theorem of_advance (b : Battle) : b.advance.Alike b := { refl b with }

theorem of_restoreCamera (b : Battle) (panFrames zoomFrames : Nat) :
    Alike (b.restoreCamera panFrames zoomFrames) b := of_camera b _

/-! ## Changes made to both -/

/-- The same request to both keeps them alike. -/
theorem request (h : b.Alike b') (r : StageRequest Float) : (b.request r).Alike (b'.request r) :=
  { h with log := Stage.log_request h.log r }

/-- So does the same battler written to both. -/
theorem withBattler (h : b.Alike b') (id : BattlerId) (x : Battler) :
    (b.withBattler id x).Alike (b'.withBattler id x) :=
  { h with roster := congrArg (Roster.modify · id fun _ => x) h.roster }

theorem refreshStatus (h : b.Alike b') (refresh : Bool) :
    (b.refreshStatus refresh).Alike (b'.refreshStatus refresh) := by
  unfold Battle.refreshStatus
  split
  · exact h.request _
  · exact h

/-! ## What both agree on -/

/-- Alike battles have the same targets for the same specifier. -/
theorem targets (h : b.Alike b') (c : ActionContext) (text : Option String) :
    b.targets c text = b'.targets c text := by
  rw [Battle.targets, h.roster, Battle.targets]

/-- They know the same skills. -/
theorem knownSkills (h : b.Alike b') (id : BattlerId) : b.knownSkills id = b'.knownSkills id := by
  rw [Battle.knownSkills, h.roster, h.database, Battle.knownSkills]

end Alike

end Battle

/-! ## Cooldowns -/

namespace Ledger

/-! The ledger reads no setting but the skills that are free of cooldowns. -/

variable (settings : Settings) (l : Ledger) (id : BattlerId)

/-- No warmup depends on the looks. -/
theorem startWarmups_plain (known : List Usable) :
    startWarmups settings.plain l id known = startWarmups settings l id known := rfl

theorem pay_plain (database : Database) (used : Usable) (known : List Usable) :
    pay settings.plain database l id used known = pay settings database l id used known := rfl

theorem applyChanges_plain (database : Database) (source : Usable) (known : List Usable) :
    applyChanges settings.plain database l id source known =
      applyChanges settings database l id source known := rfl

end Ledger

namespace Battle.Alike

variable {b b' : Battle}

/-- A payment reads the skills, the database and the settings that count, and both battles agree
on them. -/
theorem payCooldowns (h : b.Alike b') (id : BattlerId) (item : ItemRef) :
    (b.payCooldowns id item).Alike (b'.payCooldowns id item) := by
  cases item with
  | item n => exact h
  | skill n =>
    have hused : b.database.skill? n = b'.database.skill? n := by rw [h.database]
    simp only [Battle.payCooldowns, hused]
    split
    · refine { h with cooldowns := ?_ }
      dsimp only
      rw [← Ledger.pay_plain, h.settings, Ledger.pay_plain, h.database, h.knownSkills, h.cooldowns]
    · exact h

/-- So do the changes of an effect. -/
theorem applyCooldownChanges (h : b.Alike b') (id : BattlerId) (item : ItemRef) :
    (b.applyCooldownChanges id item).Alike (b'.applyCooldownChanges id item) := by
  have hsource : b.database.find? item = b'.database.find? item := by rw [h.database]
  simp only [Battle.applyCooldownChanges, hsource]
  split
  · refine { h with cooldowns := ?_ }
    dsimp only
    rw [← Ledger.applyChanges_plain, h.settings, Ledger.applyChanges_plain, h.database,
      h.knownSkills, h.cooldowns]
  · exact h

/-- Alike battles start alike, with the same warmups. -/
theorem start (h : b.Alike b') : b.start.Alike b'.start := by
  have hwarmups : (fun (l : Ledger) id => l.startWarmups b.settings id (b.knownSkills id)) =
      fun l id => l.startWarmups b'.settings id (b'.knownSkills id) := by
    funext l id
    rw [← Ledger.startWarmups_plain, h.settings, Ledger.startWarmups_plain, h.knownSkills]
  refine { h with cooldowns := ?_ }
  show b.roster.all.foldl (fun l id => l.startWarmups b.settings id (b.knownSkills id))
    b.cooldowns = _
  rw [hwarmups, h.roster, h.cooldowns]
  rfl

end Battle.Alike

end BattleScript
