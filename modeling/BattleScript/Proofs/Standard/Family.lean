import BattleScript.Opcode.Standard
import BattleScript.Proofs.Standard.Forms

/-!
# The standard packs never compete

Each standard pack has phrases and patterns of its own, and some of the patterns take in much:
`MOTION` before anything, `HP` before anything, `ADD … BUFF` around anything. But the first word of
a name all but decides which pack the name can belong to, and where it does not, the words after it
do: `MOTION WAIT` and the waits are shared out among three packs. `Command.family` makes this
decision, and a pack only claims commands of its family (`Command.family_eq_of_claims`).

So every command has one pack that may claim it, and asking that pack alone is as good as asking all
of them in any order (`Chain.findSome?_eq_of_mem`).
-/

namespace BattleScript

/-- The standard packs. -/
inductive Command.Family
  | control
  | effect
  | motion
  | camera
  | cooldown
  deriving DecidableEq, Repr

namespace Command

/-- The pack of a family. -/
def Family.pack : Family → Pack
  | .control => ControlOp.pack
  | .effect => EffectOp.pack
  | .motion => MotionOp.pack
  | .camera => CameraOp.pack
  | .cooldown => CooldownOp.pack

/-- The first words of commands that are no effect commands, and the family of most names that begin
with them. -/
def openings : List (String × Family) :=
  ["WAIT", "DEATH", "DISPLAY", "CLEAR", "PERFORM", "CAST", "ACTION",
    "IMMORTAL"].map (·, .control) ++
  ["ATTACK", "ENEMY", "FADE", "FLASH", "HIDE", "SHOW", "SHAKE", "TINT", "FACE", "FLOAT", "JUMP",
    "MOTION", "MOVE", "OPACITY"].map (·, .motion) ++
  ["CAMERA", "FOCUS", "OFFSET", "PAN", "RESET", "ZOOM"].map (·, .camera) ++
  ["GLOBAL", "SKILL", "STYPE"].map (·, .cooldown)

/-- The family that a first word speaks for. -/
def familyOfOpening (word : String) : Family :=
  ((openings.find? (·.1 = word)).map (·.2)).getD .effect

/-- The family of the names that go by these words. -/
def familyOfWords : List String → Family
  | ["MOTION", "WAIT"] => .control
  | ["WAIT", "FOR", "FLOAT"] | ["WAIT", "FOR", "JUMP"] | ["WAIT", "FOR", "OPACITY"] => .motion
  | ["WAIT", "FOR", "CAMERA"] | ["WAIT", "FOR", "ZOOM"] => .camera
  | word :: _ => familyOfOpening word
  | [] => .effect

/-- The only family whose pack may claim a command. -/
def family (c : Command) : Family := familyOfWords c.words

end Command

open Command

variable {c : Command}

/-! ## Control, motion, camera and cooldown commands -/

/-- What a pack can read is of its family: each phrase is decided by its words. -/
theorem ControlOp.family_eq {op : ControlOp} (h : ofCommand? c = some op) :
    c.family = .control := by
  unfold ofCommand? at h
  split at h
  all_goals first
    | next hw => rw [family, hw]; rfl
    | cases h

theorem CameraOp.family_eq {op : CameraOp} (h : ofCommand? c = some op) : c.family = .camera := by
  unfold ofCommand? at h
  dsimp only at h
  split at h
  all_goals first
    | next hw => rw [family, hw]; rfl
    | cases h

theorem CooldownOp.family_eq {op : CooldownOp} (h : ofCommand? c = some op) :
    c.family = .cooldown := by
  obtain ⟨scope, hscope, -⟩ := Option.map_eq_some_iff.mp h
  unfold scope? at hscope
  split at hscope
  all_goals first
    | next hw => rw [family, hw]; rfl
    | cases hscope

namespace MotionOp

/-- The phrases of the motion pack are of its family. -/
theorem family_of_phrase? {op : MotionOp} (h : phrase? c = some op) : c.family = .motion := by
  unfold phrase? at h
  dsimp only at h
  split at h
  all_goals first
    | next hw => rw [family, hw]; rfl
    | cases h

/-- All that follows the word for a motion names one, but for the word for a wait. -/
theorem familyOfWords_motion {rest : List String} (h : rest ≠ ["WAIT"]) :
    familyOfWords ("MOTION" :: rest) = .motion := by
  rw [familyOfWords]
  · rfl
  all_goals simp [h]

/-- The words for deeds are of the motion family, whatever the movers. -/
theorem familyOfWords_of_deed? {word : String} {d : Deed} (h : deed? c word = some d)
    (rest : List String) : familyOfWords (word :: rest) = .motion := by
  unfold deed? at h
  split at h
  all_goals first
    | rfl
    | cases h

/-- The names with movers or a motion in them are of the motion family. -/
theorem family_of_named? {op : MotionOp} (h : named? c = some op) : c.family = .motion := by
  unfold named? at h
  split at h
  · cases h
  · next first second rest hwait hw =>
    rw [family, hw]
    dsimp only at h
    split at h
    · next hfirst =>
      subst hfirst
      exact familyOfWords_motion fun hrest => by simp_all
    · obtain ⟨d, hd, -⟩ := Option.map_eq_some_iff.mp h
      exact familyOfWords_of_deed? hd _
  · cases h

/-- All that the motion pack reads is of its family. -/
theorem family_eq {op : MotionOp} (h : ofCommand? c = some op) : c.family = .motion := by
  simp only [ofCommand?, Option.orElse_eq_orElse, Option.orElse_eq_or, Option.or_eq_some_iff] at h
  rcases h with h | ⟨-, h⟩
  · exact family_of_phrase? h
  · exact family_of_named? h

end MotionOp

/-! ## Effect commands -/

namespace EffectOp

/-- The words with which the effect commands begin that are read before the audio commands. -/
def earlierOpenings : List String :=
  ["ADD", "REMOVE", "ADD_STATE", "ADD_STATES", "REMOVE_STATE", "REMOVE_STATES", "ANIMATION",
    "CHANGE", "GAIN", "LOSE", "GOLD", "HP", "MP", "TP"]

/-- Whether the command begins with one of these words. -/
def OpensEarlier (c : Command) : Prop :=
  ∃ word ∈ earlierOpenings, ∃ rest, c.words = word :: rest

/-- Only commands for channels and fixed phrases begin otherwise. -/
theorem opensEarlier_of_form (h : formOfWords c.words ∉ [Form.audio, Form.phrase]) :
    OpensEarlier c := by
  have hearlier : ∀ e ∈ formOpenings, e.2 ∉ [Form.audio, Form.phrase] → e.1 ∈ earlierOpenings := by
    decide
  unfold formOfWords at h
  split at h
  · next rest hw => exact ⟨"ADD", by decide, rest, hw⟩
  · next rest hw => exact ⟨"REMOVE", by decide, rest, hw⟩
  · next rest hw => exact ⟨"CHANGE", by decide, _, hw⟩
  · next word rest _ _ _ hw =>
    -- the form of any other first word is looked up
    cases hfind : formOpenings.find? (·.1 = word) with
    | none => simp [hfind] at h
    | some e =>
      rw [hfind, Option.map_some, Option.getD_some] at h
      have hword : e.1 = word := by simpa using List.find?_some hfind
      exact ⟨word, hword ▸ hearlier e (List.mem_of_find?_eq_some hfind) h, rest, hw⟩
  · exact absurd (by decide) h

/-- The phrases of the effect pack begin with none of the openings. -/
theorem family_of_phrase? {op : EffectOp} (h : phrase? c = some op) : c.family = .effect := by
  unfold phrase? at h
  split at h
  all_goals first
    | next hw => rw [family, hw]; rfl
    | cases h

/-- None of the openings is the start of the name of a channel. -/
theorem openings_plain : openings.all fun e => opensNoChannel e.1 := by
  decide +kernel

/-- A command that opens with none of the known words is at most an effect command. -/
theorem family_of_not_opening {word : String} {rest : List String} (hw : c.words = word :: rest)
    (h : ∀ e ∈ openings, e.1 ≠ word) : c.family = .effect := by
  have hopening : familyOfOpening word = .effect := by
    rw [familyOfOpening, List.find?_eq_none.mpr fun e he => by simpa using h e he]
    rfl
  have hmotion : word ≠ "MOTION" := fun hword => h ("MOTION", .motion) (by decide) hword.symm
  have hwait : word ≠ "WAIT" := fun hword => h ("WAIT", .control) (by decide) hword.symm
  rw [family, hw, familyOfWords]
  · exact hopening
  all_goals simp [hmotion, hwait]

/-- The openings of the effect pack are none of another. -/
theorem family_of_opensEarlier (h : OpensEarlier c) : c.family = .effect := by
  obtain ⟨word, hword, rest, hwords⟩ := h
  have hapart : ∀ e ∈ openings, e.1 ∉ earlierOpenings := by decide
  exact family_of_not_opening hwords fun e he heq => hapart e he (heq ▸ hword)

/-- The names of channels begin with no opening, so that they are left to the effect pack. -/
theorem family_of_audio? {op : EffectOp} (h : audio? c = some op) : c.family = .effect := by
  cases hw : c.words with
  | nil => rw [family, hw]; rfl
  | cons word rest =>
    refine family_of_not_opening hw fun e he hword => ?_
    rw [audio?_eq_none (List.all_eq_true.mp openings_plain e he) (hword.symm ▸ hw)] at h
    cases h

/-- All that the effect pack reads is of its family. -/
theorem family_eq {op : EffectOp} (h : ofCommand? c = some op) : c.family = .effect := by
  obtain ⟨f, hf⟩ := exists_of_ofCommand? h
  by_cases haudio : f = .audio
  · subst haudio
    exact family_of_audio? hf
  by_cases hphrase : f = .phrase
  · subst hphrase
    exact family_of_phrase? hf
  have hearlier : formOfWords c.words ∉ [Form.audio, Form.phrase] := by
    simp [(fits_of_read? hf).words, haudio, hphrase]
  exact family_of_opensEarlier (opensEarlier_of_form hearlier)

end EffectOp

/-! ## One pack at most -/

/-- A pack of instructions runs a command by reading it, and leaves the context alone. -/
theorem Pack.run?_ofInstructions_eq_some {ι : Type} {name : String}
    {read? : Command → Option ι} {run? : ι → ActionContext → Battle → Option (Signal × Battle)}
    {command : Command} {scene : Scene} {out : Signal × Scene}
    (h : (Pack.ofInstructions name read? run?).run? command scene = some out) :
    ∃ op signal b, read? command = some op ∧
      run? op scene.context scene.battle = some (signal, b) ∧
      out = (signal, { scene with battle := b }) := by
  simp only [Pack.ofInstructions, Option.bind_eq_bind, Option.bind_eq_some_iff, pure,
    Option.some.injEq] at h
  obtain ⟨op, hop, ⟨signal, b⟩, hrun, hout⟩ := h
  exact ⟨op, signal, b, hop, hrun, hout.symm⟩

/-- The same of a pack none of whose instructions is ever declined. -/
theorem Pack.run?_ofInstructions_some {ι : Type} {name : String} {read? : Command → Option ι}
    {run : ι → ActionContext → Battle → Signal × Battle} {command : Command} {scene : Scene}
    {out : Signal × Scene}
    (h : (Pack.ofInstructions name read? fun op c b => some (run op c b)).run? command scene =
      some out) :
    ∃ op, read? command = some op ∧
      out = ((run op scene.context scene.battle).1,
        { scene with battle := (run op scene.context scene.battle).2 }) := by
  obtain ⟨op, signal, b, hop, hrun, hout⟩ := run?_ofInstructions_eq_some h
  refine ⟨op, hop, ?_⟩
  rw [hout, Option.some.inj hrun]

/-- A pack of instructions runs the one that it reads. -/
theorem Pack.run?_of_read? {ι : Type} {name : String} {read? : Command → Option ι}
    {run? : ι → ActionContext → Battle → Option (Signal × Battle)} {op : ι}
    (h : read? c = some op) (scene : Scene) :
    (Pack.ofInstructions name read? run?).run? c scene =
      (run? op scene.context scene.battle).map fun out =>
        (out.1, { scene with battle := out.2 }) := by
  simp only [Pack.ofInstructions, h, Option.bind_eq_bind, Option.bind_some]
  exact Option.map_eq_bind.symm

/-- A pack only claims commands of its family. -/
theorem Command.family_eq_of_claims {f : Family} {scene : Scene}
    (h : (f.pack.run? c scene).isSome) : c.family = f := by
  obtain ⟨out, hout⟩ := Option.isSome_iff_exists.mp h
  -- what is claimed was read first
  cases f with
  | control =>
    obtain ⟨op, hop, -⟩ := Pack.run?_ofInstructions_some hout
    exact ControlOp.family_eq hop
  | effect =>
    obtain ⟨op, hop, -⟩ := Pack.run?_ofInstructions_some hout
    exact EffectOp.family_eq hop
  | motion =>
    obtain ⟨op, -, -, hop, -⟩ := Pack.run?_ofInstructions_eq_some hout
    exact MotionOp.family_eq hop
  | camera =>
    obtain ⟨op, hop, -⟩ := Pack.run?_ofInstructions_some hout
    exact CameraOp.family_eq hop
  | cooldown =>
    obtain ⟨op, hop, -⟩ := Pack.run?_ofInstructions_some hout
    exact CooldownOp.family_eq hop

namespace Chain

/-- The standard packs are those of the families, each once. -/
theorem packs_eq_map :
    standard.packs = [Family.cooldown, .camera, .motion, .effect, .control].map Family.pack := rfl

/-- Each of the five packs is installed. -/
theorem pack_mem_standard (f : Family) : f.pack ∈ standard.packs := by
  rw [packs_eq_map]
  exact List.mem_map_of_mem (by cases f <;> decide)

/-- Among standard packs, only that of the family has an answer. -/
theorem findSome?_eq_of_mem {packs : List Pack} (hstandard : ∀ p ∈ packs, p ∈ standard.packs)
    (hfamily : c.family.pack ∈ packs) (scene : Scene) :
    packs.findSome? (fun p => p.run? c scene) = c.family.pack.run? c scene := by
  cases hfound : packs.findSome? fun p => p.run? c scene with
  | none => exact (List.findSome?_eq_none_iff.mp hfound _ hfamily).symm
  | some out =>
    obtain ⟨p, hp, hrun⟩ := List.exists_of_findSome?_eq_some hfound
    obtain ⟨f, -, rfl⟩ := List.mem_map.mp (packs_eq_map ▸ hstandard p hp)
    have hf : c.family = f := family_eq_of_claims (Option.isSome_of_eq_some hrun)
    rw [hf, hrun]

/-- Asking the pack of the family alone is as good as asking all standard packs. -/
theorem dispatch_eq (c : Command) (scene : Scene) :
    standard.dispatch c scene = (c.family.pack.run? c scene).getD (.proceed, scene) := by
  rw [dispatch, findSome?_eq_of_mem (fun _ hp => hp) (pack_mem_standard c.family)]

/-! A command is run by the pack that can read it. -/

theorem dispatch_control {op : ControlOp} (h : ControlOp.ofCommand? c = some op) (scene : Scene) :
    standard.dispatch c scene =
      ((op.run scene.context scene.battle).1,
        { scene with battle := (op.run scene.context scene.battle).2 }) := by
  rw [dispatch_eq, ControlOp.family_eq h, Family.pack, ControlOp.pack, Pack.run?_of_read? h]
  rfl

theorem dispatch_effect {op : EffectOp} (h : EffectOp.ofCommand? c = some op) (scene : Scene) :
    standard.dispatch c scene =
      ((op.run scene.context scene.battle).1,
        { scene with battle := (op.run scene.context scene.battle).2 }) := by
  rw [dispatch_eq, EffectOp.family_eq h, Family.pack, EffectOp.pack, Pack.run?_of_read? h]
  rfl

theorem dispatch_motion {op : MotionOp} (h : MotionOp.ofCommand? c = some op) (scene : Scene) :
    standard.dispatch c scene =
      ((op.run? scene.context scene.battle).map fun out =>
        (out.1, { scene with battle := out.2 })).getD (.proceed, scene) := by
  rw [dispatch_eq, MotionOp.family_eq h, Family.pack, MotionOp.pack, Pack.run?_of_read? h]

theorem dispatch_camera {op : CameraOp} (h : CameraOp.ofCommand? c = some op) (scene : Scene) :
    standard.dispatch c scene =
      ((op.run scene.context scene.battle).1,
        { scene with battle := (op.run scene.context scene.battle).2 }) := by
  rw [dispatch_eq, CameraOp.family_eq h, Family.pack, CameraOp.pack, Pack.run?_of_read? h]
  rfl

theorem dispatch_cooldown {op : CooldownOp} (h : CooldownOp.ofCommand? c = some op)
    (scene : Scene) :
    standard.dispatch c scene =
      ((op.run scene.context scene.battle).1,
        { scene with battle := (op.run scene.context scene.battle).2 }) := by
  rw [dispatch_eq, CooldownOp.family_eq h, Family.pack, CooldownOp.pack, Pack.run?_of_read? h]
  rfl

/-! The order of the packs does not matter. -/

/-- Packs are asked in the order opposite to that of their installation. -/
theorem packs_foldl_install (order : List Pack) (chain : Chain) :
    (order.foldl install chain).packs = order.reverse ++ chain.packs := by
  induction order generalizing chain with
  | nil => rfl
  | cons p order ih =>
    rw [List.foldl_cons, ih, List.reverse_cons, List.append_assoc]
    rfl

/-- **The standard packs never compete.** Of no command do two of them claim that it is theirs, and
one that does not claim a command leaves the battle and the context as they are. So the order in
which the packs are installed makes no difference to any command. -/
theorem packs_never_compete (command : Command) (scene : Scene) :
    (standard.packs.Pairwise fun p q =>
      ¬ ((p.run? command scene).isSome ∧ (q.run? command scene).isSome)) ∧
    (∀ p ∈ standard.packs, p.run? command scene = none →
      (install {} p).dispatch command scene = (.proceed, scene)) ∧
    ∀ order : List Pack, order.Perm standard.packs →
      (order.foldl install {}).dispatch command scene = standard.dispatch command scene := by
  refine ⟨?_, ?_, ?_⟩
  · -- two packs that claim the command are both that of its family
    rw [packs_eq_map, List.pairwise_map]
    have hfamilies : [Family.cooldown, .camera, .motion, .effect, .control].Pairwise (· ≠ ·) := by
      decide
    refine hfamilies.imp fun hne hclaims => hne ?_
    rw [← family_eq_of_claims hclaims.1, ← family_eq_of_claims hclaims.2]
  · intro p _ hp
    simp [dispatch, install, hp]
  · intro order hperm
    have hpacks : (order.foldl install {}).packs = order.reverse := by
      rw [packs_foldl_install]
      exact List.append_nil _
    have hreverse : order.reverse.Perm standard.packs := order.reverse_perm.trans hperm
    rw [dispatch_eq, dispatch, hpacks, findSome?_eq_of_mem (fun _ hp => hreverse.mem_iff.mp hp)
      (hreverse.mem_iff.mpr (pack_mem_standard command.family))]

end Chain

end BattleScript
