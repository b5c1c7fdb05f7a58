import BattleScript.Action.Interpreter
import BattleScript.Proofs.Loop

/-!
# What an interpreter dispatches

The interpreter keeps no record of the commands that it runs. This module adds one beside it:

- `Dispatch`: a command as it was dispatched, with the scene before, the signal and the scene after;
- `Interpreter.dispatches`: the commands that one update dispatches;
- `Interpreter.pass`: an update taken apart into the passes of a loop, which looks at the state,
  polls a wait, or fetches the line at the cursor and dispatches it.

`Interpreter.loop_update` ties the three together: on every scene and in every state the loop ends,
it ends with what `update` gives, and on the way it has dispatched `dispatches`.
-/

namespace BattleScript

/-- A command as it was dispatched. -/
structure Dispatch where
  command : Command
  before : Scene
  signal : Signal
  after : Scene

/-- The dispatch is one of the chain. -/
def Dispatch.By (chain : Chain) (d : Dispatch) : Prop :=
  chain.dispatch d.command d.before = (d.signal, d.after)

/-- The dispatch of a line. -/
def Chain.record (chain : Chain) (line : String) (scene : Scene) : Dispatch where
  command := .ofLine line
  before := scene
  signal := (chain.dispatch (.ofLine line) scene).1
  after := (chain.dispatch (.ofLine line) scene).2

/-- What an interpreter does after a signal. -/
def Signal.state : Signal → InterpreterState
  | .proceed | .yield => .running
  | .wait w => .waiting w
  | .abort => .aborted

namespace Interpreter

/-! ## Stretches -/

/-- The commands that are dispatched in one stretch: up to the first that does not let the script
proceed. -/
def stretch (chain : Chain) : List String → Scene → List Dispatch
  | [], _ => []
  | line :: rest, scene =>
    let d := chain.record line scene
    d :: if d.signal = .proceed then stretch chain rest d.after else []

/-- A stretch, one line at a time. -/
theorem runLines_cons (chain : Chain) (line : String) (rest : List String) (scene : Scene) :
    runLines chain (line :: rest) scene =
      let d := chain.record line scene
      if d.signal = .proceed then
        let s := runLines chain rest d.after
        { s with taken := s.taken + 1 }
      else ⟨1, d.signal.state, d.after⟩ := by
  rw [runLines]
  split <;> next h => simp [Chain.record, Signal.state, h]

/-- A stretch takes lines from the front, each once and in their order. -/
theorem command_stretch (chain : Chain) (lines : List String) (scene : Scene) :
    (stretch chain lines scene).map (·.command) =
      (lines.take (runLines chain lines scene).taken).map Command.ofLine := by
  induction lines generalizing scene with
  | nil => rfl
  | cons line rest ih =>
    rw [runLines_cons, stretch]
    -- the stretch goes on behind the line, or ends with it
    by_cases h : (chain.record line scene).signal = .proceed
    · simp only [if_pos h, List.map_cons, List.take_succ_cons, ih]
      rfl
    · simp only [if_neg h, List.map_cons, List.map_nil, List.take_succ_cons, List.take_zero]
      rfl

/-- A stretch takes no more lines than there are. -/
theorem taken_runLines_le (chain : Chain) (lines : List String) (scene : Scene) :
    (runLines chain lines scene).taken ≤ lines.length := by
  induction lines generalizing scene with
  | nil => exact Nat.le_refl 0
  | cons line rest ih =>
    rw [runLines_cons]
    by_cases h : (chain.record line scene).signal = .proceed
    · simp only [if_pos h, List.length_cons]
      exact Nat.succ_le_succ (ih _)
    · simp only [if_neg h, List.length_cons]
      exact Nat.succ_le_succ (Nat.zero_le _)

/-- Every command of a stretch was dispatched by the chain. -/
theorem by_of_mem_stretch {chain : Chain} {lines : List String} {scene : Scene} {d : Dispatch}
    (h : d ∈ stretch chain lines scene) : d.By chain := by
  induction lines generalizing scene with
  | nil => cases h
  | cons line rest ih =>
    rw [stretch] at h
    rcases List.mem_cons.mp h with rfl | h
    · rfl
    · split at h
      · exact ih h
      · cases h

/-- A script is completed only by taking all of its lines. -/
theorem taken_of_completed {chain : Chain} {lines : List String} {scene : Scene}
    (h : (runLines chain lines scene).state = .completed) :
    (runLines chain lines scene).taken = lines.length := by
  induction lines generalizing scene with
  | nil => rfl
  | cons line rest ih =>
    rw [runLines_cons] at h ⊢
    by_cases hp : (chain.record line scene).signal = .proceed
    · simp only [if_pos hp] at h ⊢
      rw [ih h, List.length_cons]
    · simp only [if_neg hp] at h
      -- a line that does not proceed leaves the script running, waiting or aborted
      cases hs : (chain.record line scene).signal <;> rw [hs] at h <;> cases h

/-- A stretch is broken off by its last command and by no other. -/
theorem state_eq_aborted_iff (chain : Chain) (lines : List String) (scene : Scene) :
    (runLines chain lines scene).state = .aborted ↔
      ∃ d, (stretch chain lines scene).getLast? = some d ∧ d.signal = .abort := by
  induction lines generalizing scene with
  | nil => simp [runLines, stretch]
  | cons line rest ih =>
    rw [runLines_cons, stretch]
    by_cases hp : (chain.record line scene).signal = .proceed
    · simp only [if_pos hp]
      rw [ih]
      -- the last command of the rest is the last of all, if there is a rest
      cases hr : stretch chain rest (chain.record line scene).after with
      | nil => simp [hp]
      | cons e es => simp [List.getLast?_cons_cons]
    · simp only [if_neg hp, List.getLast?_singleton, Option.some.injEq, exists_eq_left']
      cases hs : (chain.record line scene).signal <;> simp_all [Signal.state]

/-- Running lines never leaves the interpreter idle. -/
theorem runLines_ne_idle (chain : Chain) (lines : List String) (scene : Scene) :
    (runLines chain lines scene).state ≠ .idle := by
  induction lines generalizing scene with
  | nil => nofun
  | cons line rest ih =>
    rw [runLines_cons]
    dsimp only
    split
    · exact ih _
    · cases (chain.record line scene).signal <;> nofun

/-- What every command of a chain keeps, a stretch keeps. -/
theorem runLines_keeps {chain : Chain} {I : Scene → Prop}
    (step : ∀ command scene, I scene → I (chain.dispatch command scene).2) {lines : List String}
    {scene : Scene} (h : I scene) : I (runLines chain lines scene).scene := by
  induction lines generalizing scene with
  | nil => exact h
  | cons line rest ih =>
    rw [runLines_cons]
    by_cases hp : (chain.record line scene).signal = .proceed
    · simp only [if_pos hp]
      exact ih (step _ _ h)
    · simp only [if_neg hp]
      exact step _ _ h

/-! ## Updates -/

/-- What every command of a chain keeps, an update keeps. -/
theorem update_keeps {chain : Chain} {I : Scene → Prop}
    (step : ∀ command scene, I scene → I (chain.dispatch command scene).2) {i : Interpreter}
    {scene : Scene} (h : I scene) : I (i.update chain scene).2 := by
  unfold update
  split
  · exact h
  · exact h
  · exact h
  · exact runLines_keeps step h
  · split
    · exact h
    · exact runLines_keeps step h

/-- The commands that an update dispatches. -/
def dispatches (chain : Chain) (i : Interpreter) (scene : Scene) : List Dispatch :=
  match i.state with
  | .idle | .completed | .aborted => []
  | .running => stretch chain (i.script.drop i.cursor) scene
  | .waiting w =>
    if w.holds scene.battle then [] else stretch chain (i.script.drop i.cursor) scene

/-- One pass through the loop of an update. -/
def pass (chain : Chain) : Interpreter × Scene → Pass Dispatch (Interpreter × Scene)
  | (i, scene) =>
    match i.state with
    | .idle | .completed | .aborted => ([], .done (i, scene))
    | .waiting w =>
      match w.poll scene.battle with
      | some w => ([], .done ({ i with state := .waiting w }, scene))
      | none => ([], .yield ({ i with state := .running }, scene))
    | .running =>
      match i.script[i.cursor]? with
      | none => ([], .done ({ i with state := .completed }, scene))
      | some line =>
        let d := chain.record line scene
        let next := { i with cursor := i.cursor + 1, state := d.signal.state }
        ([d], if d.signal = .proceed then .yield (next, d.after) else .done (next, d.after))

/-- The loop from a running state on. The lines left decide how often it goes round. -/
theorem loop_resume (chain : Chain) (i : Interpreter) (scene : Scene) (h : i.state = .running) :
    Loop (pass chain) (i, scene) (stretch chain (i.script.drop i.cursor) scene)
      (i.resume chain scene) := by
  -- the induction is on the lines left; the cursor moves on along with them
  generalize hl : i.script.drop i.cursor = lines
  induction lines generalizing i scene with
  | nil =>
    have hnone : i.script[i.cursor]? = none :=
      List.getElem?_eq_none_iff.mpr (List.drop_eq_nil_iff.mp hl)
    refine .ends ?_
    simp only [pass, h, hnone, resume, hl, runLines, Nat.add_zero]
    rfl
  | cons line rest ih =>
    have hsome : i.script[i.cursor]? = some line := by
      have hhead : (i.script.drop i.cursor)[0]? = i.script[i.cursor + 0]? := List.getElem?_drop
      rw [hl] at hhead
      exact hhead.symm
    have hrest : i.script.drop (i.cursor + 1) = rest := by
      rw [← List.tail_drop, hl, List.tail_cons]
    let d := chain.record line scene
    let next : Interpreter := { i with cursor := i.cursor + 1, state := d.signal.state }
    rw [stretch]
    by_cases hp : d.signal = .proceed
    · have hpass : pass chain (i, scene) = ([d], .yield (next, d.after)) := by
        simp only [pass, h, hsome]
        exact if_pos hp ▸ rfl
      have hrun : next.state = .running := by
        show d.signal.state = .running
        rw [hp]
        rfl
      have hend : i.resume chain scene = next.resume chain d.after := by
        simp only [resume, hl, runLines_cons, next, hrest]
        rw [if_pos hp]
        simp only [Nat.add_assoc, Nat.add_comm 1]
        rfl
      rw [if_pos hp, hend]
      exact .again hpass (ih next d.after hrun hrest)
    · rw [if_neg hp]
      refine .ends ?_
      simp only [pass, h, hsome, resume, hl, runLines_cons]
      rw [if_neg hp, if_neg hp]

/-- **An update is its loop**: in every state and on every scene the loop ends, with the commands
that were dispatched on the way. -/
theorem loop_update (chain : Chain) (i : Interpreter) (scene : Scene) :
    Loop (pass chain) (i, scene) (i.dispatches chain scene) (i.update chain scene) := by
  unfold dispatches update
  cases h : i.state with
  | running => exact loop_resume chain i scene h
  | waiting w =>
    -- a wait that holds ends the loop; one that has cleared takes a pass of its own
    by_cases hw : w.holds scene.battle
    · have hpoll : w.poll scene.battle = some w.tick := if_pos hw
      simp only [hpoll, if_pos hw]
      refine .ends ?_
      simp only [pass, h, hpoll]
    · have hpoll : w.poll scene.battle = none := if_neg hw
      have hpass : pass chain (i, scene) = ([], .yield ({ i with state := .running }, scene)) := by
        simp only [pass, h, hpoll]
      simp only [hpoll, if_neg hw]
      show Loop (pass chain) (i, scene) ([] ++ stretch chain _ scene) _
      exact .again hpass (loop_resume chain { i with state := .running } scene rfl)
  | _ =>
    refine .ends ?_
    simp only [pass, h]

end Interpreter

end BattleScript
