import BattleScript.Proofs.Interpreter.Log
import BattleScript.Proofs.Standard.Dispatch

/-!
# Each line runs once, in order

A script is played by any number of updates, between which the host may do to the battle whatever it
likes: `played` hands every update a scene of its own. `InOrder` is what the interpreter and its
record have in common at every moment: the commands dispatched so far are the lines up to the
cursor. An update keeps it (`InOrder.update`), so it holds after all of them.
-/

namespace BattleScript

namespace Interpreter

/-- A script after updates on the given scenes, with all commands that they dispatched. -/
def played (chain : Chain) (script : Script) (scenes : List Scene) : Interpreter × List Dispatch :=
  scenes.foldl (fun (i, ds) scene => ((i.update chain scene).1, ds ++ i.dispatches chain scene))
    (.load script, [])

/-- The commands dispatched so far are the lines up to the cursor, and the state says how far they
got. -/
structure InOrder (chain : Chain) (script : Script) (i : Interpreter) (ds : List Dispatch) :
    Prop where
  script_eq : i.script = script
  cursor_le : i.cursor ≤ script.length
  commands : ds.map (·.command) = (script.take i.cursor).map Command.ofLine
  signals : ∀ d ∈ ds, d.By chain
  completed : i.state = .completed → i.cursor = script.length
  aborted : i.state = .aborted ↔ ∃ d, ds.getLast? = some d ∧ d.signal = .abort

variable {chain : Chain} {script : Script} {i : Interpreter} {ds : List Dispatch}

/-- Before the first update nothing was dispatched and no line was taken. -/
theorem InOrder.load (chain : Chain) (script : Script) :
    InOrder chain script (.load script) [] where
  script_eq := rfl
  cursor_le := Nat.zero_le _
  commands := rfl
  signals d h := by cases h
  completed h := by cases h
  aborted := by simp [Interpreter.load]

/-- Going on with a script that was not aborted dispatches the next lines. -/
theorem InOrder.resume (h : InOrder chain script i ds) (hi : i.state ≠ .aborted) (scene : Scene) :
    InOrder chain script (i.resume chain scene).1
      (ds ++ stretch chain (i.script.drop i.cursor) scene) := by
  have hlen : (script.drop i.cursor).length = script.length - i.cursor := List.length_drop
  have hle := taken_runLines_le chain (script.drop i.cursor) scene
  have hlast : ∀ d, ds.getLast? = some d → d.signal ≠ .abort := fun d hd habort =>
    hi (h.aborted.mpr ⟨d, hd, habort⟩)
  have hcursor := h.cursor_le
  simp only [Interpreter.resume, h.script_eq]
  refine {
    script_eq := rfl
    cursor_le := ?_
    commands := ?_
    signals := ?_
    completed := ?_
    aborted := ?_ }
  · show i.cursor + _ ≤ script.length
    omega
  · rw [List.map_append, h.commands, command_stretch, ← List.map_append, List.take_add]
  · intro d hd
    rcases List.mem_append.mp hd with hd | hd
    · exact h.signals d hd
    · exact by_of_mem_stretch hd
  · intro hc
    have := taken_of_completed hc
    show i.cursor + _ = script.length
    omega
  · -- the last command of the record is that of the stretch, unless the stretch is empty
    rw [show _ ↔ _ from state_eq_aborted_iff chain (script.drop i.cursor) scene]
    rcases List.eq_nil_or_concat (stretch chain (script.drop i.cursor) scene) with
      hs | ⟨es, d, hs⟩
    · rw [hs, List.append_nil]
      constructor
      · rintro ⟨d, hd, -⟩
        cases hd
      · rintro ⟨d, hd, habort⟩
        exact absurd habort (hlast d hd)
    · rw [hs, List.concat_eq_append, ← List.append_assoc, List.getLast?_concat,
        List.getLast?_concat]

/-- An update keeps the order. -/
theorem InOrder.update (h : InOrder chain script i ds) (scene : Scene) :
    InOrder chain script (i.update chain scene).1 (ds ++ i.dispatches chain scene) := by
  unfold Interpreter.update dispatches
  cases hs : i.state with
  | running => exact h.resume (by rw [hs]; nofun) scene
  | waiting w =>
    by_cases hw : w.holds scene.battle
    · simp only [Wait.poll, if_pos hw, List.append_nil]
      -- the wait counts down at most, and everything else stays as it is
      exact {
        script_eq := h.script_eq
        cursor_le := h.cursor_le
        commands := h.commands
        signals := h.signals
        completed := nofun
        aborted := by simpa [hs] using h.aborted }
    · simp only [Wait.poll, if_neg hw]
      exact h.resume (by rw [hs]; nofun) scene
  | _ =>
    rw [List.append_nil]
    exact h

/-- The order after any number of updates, from any moment on. -/
theorem InOrder.foldl (h : InOrder chain script i ds) (scenes : List Scene) :
    let p := scenes.foldl
      (fun (i, ds) scene => ((i.update chain scene).1, ds ++ i.dispatches chain scene)) (i, ds)
    InOrder chain script p.1 p.2 := by
  induction scenes generalizing i ds with
  | nil => exact h
  | cons scene scenes ih => exact ih (h.update scene)

/-- A script is in order at every moment of being played. -/
theorem inOrder_played (chain : Chain) (script : Script) (scenes : List Scene) :
    InOrder chain script (played chain script scenes).1 (played chain script scenes).2 :=
  (InOrder.load chain script).foldl scenes

/-- A wait that still holds lets no command through; at most it counts down. -/
theorem update_of_holds {w : Wait} {scene : Scene} (hi : i.state = .waiting w)
    (hw : w.holds scene.battle) :
    i.dispatches chain scene = [] ∧
      i.update chain scene = ({ i with state := .waiting w.tick }, scene) := by
  simp [dispatches, Interpreter.update, Wait.poll, hi, hw]

/-- Once there is nothing left to play, an update does nothing. -/
theorem update_of_isFinished (hi : i.isFinished) (scene : Scene) :
    i.dispatches chain scene = [] ∧ i.update chain scene = (i, scene) := by
  cases hs : i.state with
  | idle | completed | aborted => simp [dispatches, Interpreter.update, hs]
  | running | waiting w => simp [isFinished, hs] at hi

/-- **Each line runs once, in order.** At every moment of playing a script, by whatever chain and
whatever the host does in between, the commands dispatched are the lines up to the cursor, each of
them dispatched by the chain. A completed script has dispatched all its lines; a script is aborted
exactly when its last command said so, which in the standard chain is a death break of a user who is
missing, dead or without HP. A wait that holds lets no command through, and a finished script stays
as it is. -/
theorem lines_run_once_in_order (chain : Chain) (script : Script) (scenes : List Scene) :
    let i := (played chain script scenes).1
    let ds := (played chain script scenes).2
    (∀ scene, Loop (pass chain) (i, scene) (i.dispatches chain scene) (i.update chain scene)) ∧
    i.cursor ≤ script.length ∧
    ds.map (·.command) = (script.take i.cursor).map Command.ofLine ∧
    (∀ d ∈ ds, chain.dispatch d.command d.before = (d.signal, d.after)) ∧
    (i.state = .completed → i.cursor = script.length) ∧
    (i.state = .aborted ↔ ∃ d, ds.getLast? = some d ∧ d.signal = .abort) ∧
    (chain = .standard →
      (i.state = .aborted ↔ ∃ d, ds.getLast? = some d ∧ d.command.words = ["DEATH", "BREAK"] ∧
        ∀ x, d.before.battle.roster.get? d.before.context.subject = some x →
          x.isDead ∨ x.hp ≤ 0)) ∧
    (∀ w scene, i.state = .waiting w → w.holds scene.battle →
      i.dispatches chain scene = [] ∧
        i.update chain scene = ({ i with state := .waiting w.tick }, scene)) ∧
    (i.isFinished → ∀ scene,
      i.dispatches chain scene = [] ∧ i.update chain scene = (i, scene)) := by
  intro i ds
  have h : InOrder chain script i ds := inOrder_played chain script scenes
  refine ⟨loop_update chain i, h.cursor_le, h.commands, h.signals, h.completed, h.aborted, ?_,
    fun w scene => update_of_holds, update_of_isFinished⟩
  rintro rfl
  rw [h.aborted]
  refine exists_congr fun d => and_congr_right fun hd => ?_
  -- in the standard chain only a death break aborts
  have hby : d.By .standard := h.signals d (List.mem_of_getLast? hd)
  rw [← Chain.standard_abort_iff, hby]

end Interpreter

end BattleScript
