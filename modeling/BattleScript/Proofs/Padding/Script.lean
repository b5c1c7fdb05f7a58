import BattleScript.Proofs.Interpreter.Log
import BattleScript.Proofs.Standard.Family

/-!
# Scripts with lines put in

A line is ignored by a chain if its command does nothing on any scene and lets the script proceed.
Putting ignored lines into a script, anywhere and any number of them, changes nothing of what an
interpreter makes of it. The two scripts are of different lengths, so that the cursors part; but
`Interpreter.Padded` holds between the two interpreters after every update (`Padded.update`): they
are in the same state, and what each of them has played and has left to play is the same up to the
lines put in.

A line whose command no standard pack claims is ignored by the standard chain
(`Chain.standard_ignores`).
-/

namespace BattleScript

/-- The second script is the first one with lines of a kind put in. -/
inductive Script.Padded (kind : String → Prop) : Script → Script → Prop
  | nil : Padded kind [] []
  | line (l : String) {s t : Script} (rest : Padded kind s t) : Padded kind (l :: s) (l :: t)
  | extra {l : String} (hl : kind l) {s t : Script} (rest : Padded kind s t) :
      Padded kind s (l :: t)

/-- The line does nothing on any scene and lets the script proceed. -/
def Chain.Ignores (chain : Chain) (line : String) : Prop :=
  ∀ scene, chain.dispatch (.ofLine line) scene = (.proceed, scene)

/-- No standard pack claims the command of the line, on any scene. -/
def Unclaimed (line : String) : Prop :=
  ∀ p ∈ Chain.standard.packs, ∀ scene, p.run? (.ofLine line) scene = none

/-- A pack does not claim what it cannot read. -/
theorem Pack.run?_of_unread {ι : Type} {name : String} {read? : Command → Option ι}
    {run? : ι → ActionContext → Battle → Option (Signal × Battle)} {command : Command}
    (h : read? command = none) (scene : Scene) :
    (Pack.ofInstructions name read? run?).run? command scene = none := by
  simp only [Pack.ofInstructions, h]
  rfl

/-- A line that none of the five packs can read is unclaimed. -/
theorem unclaimed_of_unread {line : String} (control : ControlOp.ofCommand? (.ofLine line) = none)
    (effect : EffectOp.ofCommand? (.ofLine line) = none)
    (motion : MotionOp.ofCommand? (.ofLine line) = none)
    (camera : CameraOp.ofCommand? (.ofLine line) = none)
    (cooldown : CooldownOp.ofCommand? (.ofLine line) = none) : Unclaimed line := by
  intro p hp scene
  obtain ⟨f, -, rfl⟩ := List.mem_map.mp (Chain.packs_eq_map ▸ hp)
  -- each pack runs only what it has read
  cases f with
  | control =>
    rw [Command.Family.pack, ControlOp.pack]
    exact Pack.run?_of_unread control scene
  | effect =>
    rw [Command.Family.pack, EffectOp.pack]
    exact Pack.run?_of_unread effect scene
  | motion =>
    rw [Command.Family.pack, MotionOp.pack]
    exact Pack.run?_of_unread motion scene
  | camera =>
    rw [Command.Family.pack, CameraOp.pack]
    exact Pack.run?_of_unread camera scene
  | cooldown =>
    rw [Command.Family.pack, CooldownOp.pack]
    exact Pack.run?_of_unread cooldown scene

/-- The chain proceeds past a line that none of its packs runs, and leaves the scene as it is. -/
theorem Chain.standard_ignores {line : String} (h : Unclaimed line) : standard.Ignores line := by
  intro scene
  have hnone : standard.packs.findSome? (fun p => p.run? (.ofLine line) scene) = none :=
    List.findSome?_eq_none_iff.mpr fun p hp => h p hp scene
  rw [dispatch, hnone]
  rfl

namespace Script.Padded

variable {kind kind' : String → Prop} {s s' t t' : Script}

theorem refl (s : Script) : Padded kind s s := by
  induction s with
  | nil => exact .nil
  | cons l s ih => exact .line l ih

/-- Lines may be put into either half of a script. -/
theorem append (h : Padded kind s s') (h' : Padded kind t t') :
    Padded kind (s ++ t) (s' ++ t') := by
  induction h with
  | nil => exact h'
  | line l _ ih => exact .line l ih
  | extra hl _ ih => exact .extra hl ih

theorem mono (himp : ∀ l, kind l → kind' l) (h : Padded kind s t) : Padded kind' s t := by
  induction h with
  | nil => exact .nil
  | line l _ ih => exact .line l ih
  | extra hl _ ih => exact .extra (himp _ hl) ih

end Script.Padded

namespace Interpreter

variable {chain : Chain} {i i' : Interpreter}

/-! ## Stretches -/

/-- Stretches of two scripts, one of them with ignored lines put in: they end in the same state and
with the same scene, and each has taken and left the same lines but for those put in. -/
structure SameStretch (chain : Chain) (s t : Script) (u v : Stretch) : Prop where
  state : v.state = u.state
  scene : v.scene = u.scene
  taken : Script.Padded chain.Ignores (s.take u.taken) (t.take v.taken)
  left : Script.Padded chain.Ignores (s.drop u.taken) (t.drop v.taken)

/-- From the same scene both scripts run to the same state and scene, and stop before the same
line. -/
theorem sameStretch_runLines {s t : Script} (h : Script.Padded chain.Ignores s t) (scene : Scene) :
    SameStretch chain s t (runLines chain s scene) (runLines chain t scene) := by
  -- on how the one script comes from the other, for any scene to begin with
  induction h generalizing scene with
  | nil => exact ⟨rfl, rfl, .nil, .nil⟩
  | line l rest ih =>
    rw [runLines_cons, runLines_cons]
    by_cases hp : (chain.record l scene).signal = .proceed
    · obtain ⟨hstate, hscene, htaken, hleft⟩ := ih (chain.record l scene).after
      simp only [if_pos hp]
      exact ⟨hstate, hscene, .line l htaken, hleft⟩
    · -- the line ends both stretches
      simp only [if_neg hp]
      exact ⟨rfl, rfl, .line l .nil, rest⟩
  | @extra l hl s t _ ih =>
    have hrun : runLines chain (l :: t) scene =
        { runLines chain t scene with taken := (runLines chain t scene).taken + 1 } := by
      simp only [runLines, hl scene]
    obtain ⟨hstate, hscene, htaken, hleft⟩ := ih scene
    rw [hrun]
    exact ⟨hstate, hscene, .extra hl htaken, hleft⟩

/-! ## Updates -/

/-- The two interpreters are in the same state, and each has played and has left the same lines but
for ignored ones that were put into the script of the second. -/
structure Padded (chain : Chain) (i i' : Interpreter) : Prop where
  state : i'.state = i.state
  played : Script.Padded chain.Ignores (i.script.take i.cursor) (i'.script.take i'.cursor)
  left : Script.Padded chain.Ignores (i.script.drop i.cursor) (i'.script.drop i'.cursor)

/-- Nothing has been played of either script when it is loaded. -/
theorem padded_load {s t : Script} (h : Script.Padded chain.Ignores s t) :
    Padded chain (.load s) (.load t) := ⟨rfl, .nil, h⟩

/-- Both go on with the same stretch. -/
theorem Padded.resume (h : Padded chain i i') (scene : Scene) :
    (i'.resume chain scene).2 = (i.resume chain scene).2 ∧
      Padded chain (i.resume chain scene).1 (i'.resume chain scene).1 := by
  obtain ⟨hstate, hscene, htaken, hleft⟩ := sameStretch_runLines h.left scene
  refine ⟨hscene, hstate, ?_, ?_⟩
  · -- played so far is what was played before, and then the stretch
    show Script.Padded _ (i.script.take (i.cursor + _)) (i'.script.take (i'.cursor + _))
    rw [List.take_add, List.take_add]
    exact h.played.append htaken
  · show Script.Padded _ (i.script.drop (i.cursor + _)) (i'.script.drop (i'.cursor + _))
    rw [← List.drop_drop, ← List.drop_drop]
    exact hleft

/-- **An update does not see the lines put in.** -/
theorem Padded.update (h : Padded chain i i') (scene : Scene) :
    (i'.update chain scene).2 = (i.update chain scene).2 ∧
      Padded chain (i.update chain scene).1 (i'.update chain scene).1 := by
  unfold Interpreter.update
  rw [h.state]
  -- a wait looks at the battle, which is the same for both
  cases i.state with
  | idle | completed | aborted => exact ⟨rfl, h⟩
  | running => exact h.resume scene
  | waiting w =>
    by_cases hw : w.holds scene.battle
    · simp only [Wait.poll, if_pos hw]
      exact ⟨trivial, rfl, h.played, h.left⟩
    · simp only [Wait.poll, if_neg hw]
      exact h.resume scene

end Interpreter

end BattleScript
