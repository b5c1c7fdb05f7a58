import BattleScript.Proofs.Standard.Family

/-!
# Dispatching through the standard packs

What is known of every command that the standard chain dispatches, before any of its instructions is
looked at:

- `Chain.dispatchAll_keeps`: what every line keeps, lines one after the other keep;
- `Chain.standard_cases`: a command is ignored, or it is an instruction of one of the five packs,
  which then changes the battle alone;
- `Chain.standard_context`: no command changes the context;
- `Chain.standard_abort_iff`: a command aborts if and only if it is a death break and the user is
  missing, dead or without HP.
-/

namespace BattleScript

namespace Chain

/-! ## Lines one after the other -/

/-- The scene after lines, in their order. -/
def dispatchAll (chain : Chain) (lines : List String) (scene : Scene) : Scene :=
  lines.foldl (fun scene line => (chain.dispatch (.ofLine line) scene).2) scene

/-- What every line keeps, lines keep. -/
theorem dispatchAll_keeps {chain : Chain} {I : Scene → Prop}
    (h : ∀ line scene, I scene → I (chain.dispatch (.ofLine line) scene).2) (lines : List String)
    {scene : Scene} (hscene : I scene) : I (chain.dispatchAll lines scene) := by
  induction lines generalizing scene with
  | nil => exact hscene
  | cons line lines ih => exact ih (h line scene hscene)

/-! ## Every line -/

/-- To show something of what the standard chain makes of a command, show it of a command that is
ignored and of the instructions of each pack. -/
theorem standard_cases {motive : Signal × Scene → Prop} (command : Command) (scene : Scene)
    (ignored : motive (.proceed, scene))
    (control : ∀ op, ControlOp.ofCommand? command = some op →
      motive ((op.run scene.context scene.battle).1,
        { scene with battle := (op.run scene.context scene.battle).2 }))
    (effect : ∀ op, EffectOp.ofCommand? command = some op →
      motive ((op.run scene.context scene.battle).1,
        { scene with battle := (op.run scene.context scene.battle).2 }))
    (motion : ∀ op signal b, MotionOp.ofCommand? command = some op →
      op.run? scene.context scene.battle = some (signal, b) →
      motive (signal, { scene with battle := b }))
    (camera : ∀ op, CameraOp.ofCommand? command = some op →
      motive ((op.run scene.context scene.battle).1,
        { scene with battle := (op.run scene.context scene.battle).2 }))
    (cooldown : ∀ op, CooldownOp.ofCommand? command = some op →
      motive ((op.run scene.context scene.battle).1,
        { scene with battle := (op.run scene.context scene.battle).2 })) :
    motive (standard.dispatch command scene) := by
  rw [dispatch_eq]
  cases hrun : command.family.pack.run? command scene with
  | none => exact ignored
  | some out =>
    -- the pack of the family is the only one that may claim the command
    generalize command.family = f at hrun
    cases f with
    | control =>
      obtain ⟨op, hop, hout⟩ := Pack.run?_ofInstructions_some hrun
      exact hout ▸ control op hop
    | effect =>
      obtain ⟨op, hop, hout⟩ := Pack.run?_ofInstructions_some hrun
      exact hout ▸ effect op hop
    | motion =>
      obtain ⟨op, signal, b, hop, hb, hout⟩ := Pack.run?_ofInstructions_eq_some hrun
      exact hout ▸ motion op signal b hop hb
    | camera =>
      obtain ⟨op, hop, hout⟩ := Pack.run?_ofInstructions_some hrun
      exact hout ▸ camera op hop
    | cooldown =>
      obtain ⟨op, hop, hout⟩ := Pack.run?_ofInstructions_some hrun
      exact hout ▸ cooldown op hop

/-- No standard command changes the context of the action. -/
theorem standard_context (command : Command) (scene : Scene) :
    (standard.dispatch command scene).2.context = scene.context := by
  refine standard_cases (motive := fun out => out.2.context = scene.context) command scene rfl
    ?_ ?_ ?_ ?_ ?_
  all_goals intros; rfl

end Chain

/-! ## Aborts -/

/-- Of the control commands only a death break aborts, and only when the user has fallen. -/
theorem ControlOp.signal_eq_abort_iff (op : ControlOp) (c : ActionContext) (b : Battle) :
    (op.run c b).1 = .abort ↔ op = .deathBreak ∧ hasFallen c b := by
  cases op with
  | deathBreak =>
    simp only [run]
    split <;> simp_all
  | perform p => cases p <;> simp [run]
  | motionWait target =>
    simp only [run]
    split <;> simp
  | castAnimation =>
    simp only [run]
    split <;> simp
  | actionAnimation target mirror =>
    simp only [run]
    split <;> simp
  | _ => simp [run]

/-- No command of another pack does. -/
theorem EffectOp.signal_ne_abort (op : EffectOp) (c : ActionContext) (b : Battle) :
    (op.run c b).1 ≠ .abort := by
  cases op with
  | collapse | gainItem | gold | refreshStatus | audio => simp [run]
  | buff | state | animation | commonEvent | switches | assign | pool =>
    simp only [run]
    repeat' split
    all_goals simp

theorem CameraOp.turn_ne_abort (view : ScreenView) (c : ActionContext) (b : Battle) :
    (turn view c b).1 ≠ .abort := by
  cases view with
  | group target anchor frames =>
    simp only [turn]
    repeat' split
    all_goals simp
  | _ => simp [turn]

theorem CameraOp.signal_ne_abort (op : CameraOp) (c : ActionContext) (b : Battle) :
    (op.run c b).1 ≠ .abort := by
  unfold run
  split
  · simp
  · simp
  · split <;> simp
  · split
    · cases op with
      | screen view => exact turn_ne_abort view c b
      | focus target anchor frames =>
        simp only [runEnabled]
        split <;> simp
      | _ => simp [runEnabled]
    · simp

theorem CooldownOp.signal_ne_abort (op : CooldownOp) (c : ActionContext) (b : Battle) :
    (op.run c b).1 ≠ .abort := by
  unfold run
  split <;> simp

theorem MotionOp.signal_ne_abort {op : MotionOp} {c : ActionContext} {b b' : Battle}
    {signal : Signal} (h : op.run? c b = some (signal, b')) : signal ≠ .abort := by
  cases op with
  | motion keyword target =>
    simp only [run?, makeMotion] at h
    split at h
    · cases h; simp
    · split at h <;> cases h <;> simp
  | deed movers d =>
    simp only [run?] at h
    split at h
    · cases h
    · cases d <;> simp only [runDeed, face, move] at h <;> repeat' split at h
      all_goals cases h; simp
  | _ => cases h; simp

/-- The words of a death break. -/
theorem ControlOp.ofCommand?_eq_deathBreak_iff (c : Command) :
    ofCommand? c = some .deathBreak ↔ c.words = ["DEATH", "BREAK"] := by
  constructor
  · intro h
    unfold ofCommand? at h
    split at h <;> first | assumption | cases h
  · intro h
    simp [ofCommand?, h]

/-- A death break changes nothing. -/
theorem Chain.dispatch_deathBreak {command : Command} (h : command.words = ["DEATH", "BREAK"])
    (scene : Scene) :
    standard.dispatch command scene =
      (((ControlOp.deathBreak).run scene.context scene.battle).1, scene) := by
  have hcontrol : ControlOp.ofCommand? command = some .deathBreak :=
    (ControlOp.ofCommand?_eq_deathBreak_iff command).mpr h
  have hrun : (ControlOp.deathBreak.run scene.context scene.battle).2 = scene.battle := by
    simp only [ControlOp.run]
    split <;> rfl
  rw [dispatch_control hcontrol, hrun]

/-- A command aborts if and only if it is a death break and the user is missing, dead or without
HP. -/
theorem Chain.standard_abort_iff (command : Command) (scene : Scene) :
    (standard.dispatch command scene).1 = .abort ↔
      command.words = ["DEATH", "BREAK"] ∧
        ∀ x, scene.battle.roster.get? scene.context.subject = some x → x.isDead ∨ x.hp ≤ 0 := by
  have hfallen : ControlOp.hasFallen scene.context scene.battle ↔
      ∀ x, scene.battle.roster.get? scene.context.subject = some x → x.isDead ∨ x.hp ≤ 0 := by
    unfold ControlOp.hasFallen
    cases scene.battle.roster.get? scene.context.subject <;> simp
  rw [← hfallen]
  constructor
  · intro h
    revert h
    -- whichever pack it is, the signal is that of one of its instructions
    refine standard_cases (motive := fun out => out.1 = .abort → _) command scene ?_ ?_ ?_ ?_ ?_ ?_
    · intro h
      cases h
    · intro op hop h
      obtain ⟨rfl, hb⟩ := (ControlOp.signal_eq_abort_iff op _ _).mp h
      exact ⟨(ControlOp.ofCommand?_eq_deathBreak_iff command).mp hop, hb⟩
    · intro op _ h
      exact absurd h (EffectOp.signal_ne_abort op _ _)
    · intro op signal b _ hrun h
      exact absurd h (MotionOp.signal_ne_abort hrun)
    · intro op _ h
      exact absurd h (CameraOp.signal_ne_abort op _ _)
    · intro op _ h
      exact absurd h (CooldownOp.signal_ne_abort op _ _)
  · rintro ⟨hwords, hb⟩
    rw [dispatch_deathBreak hwords]
    exact (ControlOp.signal_eq_abort_iff _ _ _).mpr ⟨rfl, hb⟩

end BattleScript
