import BattleScript.Proofs.Runner.Log

/-!
# Playing an action out

An action can be played without frames: `runThrough` runs the lines of a script to its end or its
first abort, whatever the commands say about waiting, and `playOut` goes so through all phases that
are to come. This is not how an action is played, since no time passes for the stage and the camera.
But it is how it would go on if none passed any more:

- `playOut_update`: an update is the beginning of the play-out, so that the rest of it ends in the
  same battle;
- `playOut_of_isFinished`: when the action has finished, its play-out is the battle itself.

So whatever does not depend on the time that passes between two updates can be read off the
play-out.
-/

namespace BattleScript

/-! ## Scripts -/

namespace Interpreter

/-- Runs lines to the end or to the first abort. -/
def runThrough (chain : Chain) : List String → Scene → Stretch
  | [], scene => ⟨0, .completed, scene⟩
  | line :: rest, scene =>
    let d := chain.record line scene
    if d.signal = .abort then ⟨1, .aborted, d.after⟩
    else
      let s := runThrough chain rest d.after
      { s with taken := s.taken + 1 }

/-- A stretch that neither completed nor aborted the script is the beginning of a longer one. -/
theorem runThrough_eq (chain : Chain) (lines : List String) (scene : Scene) :
    runThrough chain lines scene =
      let s := runLines chain lines scene
      if s.state = .completed ∨ s.state = .aborted then s
      else
        let t := runThrough chain (lines.drop s.taken) s.scene
        { t with taken := s.taken + t.taken } := by
  induction lines generalizing scene with
  | nil => rfl
  | cons line rest ih =>
    rw [runThrough, runLines_cons]
    cases hs : (chain.record line scene).signal with
    | proceed =>
      -- the line belongs to the stretch of the rest
      simp only [hs, ih (chain.record line scene).after, reduceCtorEq, if_true, if_false]
      split
      · rfl
      · simp only [List.drop_succ_cons, Nat.add_right_comm]
    | yield | wait w =>
      -- the stretch is this one line, and the longer one goes on behind it
      simp only [hs, Signal.state, reduceCtorEq, or_self, if_false, List.drop_succ_cons,
        List.drop_zero, Nat.add_comm 1]
    | abort => simp only [hs, Signal.state, reduceCtorEq, or_true, if_true, if_false]

/-- Runs the script out. -/
def runOut (chain : Chain) (i : Interpreter) (scene : Scene) : Interpreter × Scene :=
  match i.state with
  | .idle | .completed | .aborted => (i, scene)
  | .running | .waiting _ =>
    let s := runThrough chain (i.script.drop i.cursor) scene
    ({ i with cursor := i.cursor + s.taken, state := s.state }, s.scene)

/-- Running a script out may begin with going on with it. -/
theorem runOut_resume (chain : Chain) (i : Interpreter) (scene : Scene) :
    (i.resume chain scene).1.runOut chain (i.resume chain scene).2 =
      let s := runThrough chain (i.script.drop i.cursor) scene
      ({ i with cursor := i.cursor + s.taken, state := s.state }, s.scene) := by
  rw [runThrough_eq]
  simp only [resume, runOut]
  have hidle := runLines_ne_idle chain (i.script.drop i.cursor) scene
  -- a stretch that ended the script leaves nothing to run, one that waits the lines behind it
  cases hs : (runLines chain (i.script.drop i.cursor) scene).state with
  | idle => exact absurd hs hidle
  | completed | aborted => simp [hs]
  | running | waiting w => simp [List.drop_drop, Nat.add_assoc]

/-- An update is the beginning of running the script out. -/
theorem runOut_update (chain : Chain) (i : Interpreter) (scene : Scene) :
    (i.update chain scene).1.runOut chain (i.update chain scene).2 = i.runOut chain scene := by
  have hresume := runOut_resume chain i scene
  -- a wait that holds changes nothing, and one that is over goes on like a running script
  unfold update
  cases hs : i.state with
  | idle | completed | aborted => rfl
  | running =>
    rw [hresume, runOut, hs]
  | waiting w =>
    by_cases hw : w.holds scene.battle
    · simp only [Wait.poll, if_pos hw, runOut, hs]
    · simp only [Wait.poll, if_neg hw]
      rw [hresume, runOut, hs]

end Interpreter

/-! ## Phases -/

namespace Runner

/-- Runs the script of the phase out. -/
def runScript (chain : Chain) (r : Runner) (b : Battle) : Runner × Battle :=
  let u := r.interpreter.runOut chain ⟨b, r.context⟩
  ({ r with interpreter := u.1, context := u.2.context }, u.2.battle)

/-- Running a script out stays in its phase. -/
theorem runScript_phase (chain : Chain) (r : Runner) (b : Battle) :
    (r.runScript chain b).1.phase = r.phase := rfl

/-- Running a script out leaves as much of the course as there was. -/
theorem runScript_remaining (chain : Chain) (r : Runner) (b : Battle) :
    (r.runScript chain b).1.remaining = r.remaining := rfl

/-- The battle in which the action ends if no time passes any more. -/
def playOut (chain : Chain) (r : Runner) (b : Battle) : Battle :=
  match _h : r.phase with
  | none => b
  | some p =>
    match _hf : r.runScript chain b with
    | (f, e) =>
      match _hp : f.afterScript p f.interpreter.state with
      | none => e
      | some next => next.playOut chain (next.settle e)
termination_by r.remaining
decreasing_by
  have hphase := runScript_phase chain r b
  have hremaining := runScript_remaining chain r b
  rw [_hf] at hphase hremaining
  rw [← hremaining]
  exact remaining_afterScript_lt (hphase.trans _h) _hp

theorem playOut_eq (chain : Chain) (r : Runner) (b : Battle) :
    r.playOut chain b =
      match r.phase with
      | none => b
      | some p =>
        let f := r.runScript chain b
        match f.1.afterScript p f.1.interpreter.state with
        | none => f.2
        | some next => next.playOut chain (next.settle f.2) := by
  rw [playOut]
  split
  · next h => simp only [h]
  · next h =>
    simp only [h]
    split <;> next h' => simp only [h']

/-- When the action has finished, nothing is to come. -/
theorem playOut_of_isFinished (chain : Chain) {r : Runner} (h : r.isFinished) (b : Battle) :
    r.playOut chain b = b := by
  have hp : r.phase = none := Option.isNone_iff_eq_none.mp h
  rw [playOut_eq, hp]

/-- A frame of the interpreter is the beginning of running the script out. -/
theorem runScript_playFrame (chain : Chain) (r : Runner) (b : Battle) :
    (r.playFrame chain b).1.runScript chain (r.playFrame chain b).2 = r.runScript chain b := by
  have hout := r.interpreter.runOut_update chain ⟨b, r.context⟩
  simp only [runScript, playFrame_eq]
  rw [hout]

/-- A script that has ended is run out already. -/
theorem runScript_of_afterScript {chain : Chain} {r next : Runner} {p : Phase}
    (h : r.afterScript p r.interpreter.state = some next) (b : Battle) :
    r.runScript chain b = (r, b) := by
  have hout : r.interpreter.runOut chain ⟨b, r.context⟩ = (r.interpreter, ⟨b, r.context⟩) := by
    unfold Interpreter.runOut
    cases hs : r.interpreter.state <;> simp_all [afterScript]
  simp only [runScript, hout]

/-- An update is the beginning of the play-out. -/
theorem playOut_update (chain : Chain) (r : Runner) (b : Battle) :
    (r.update chain b).1.playOut chain (r.update chain b).2 = r.playOut chain b := by
  induction r, b using update_induction chain with
  | finished r b hp =>
    rw [update_eq]
    simp only [hp]
  | later r b p hp ha =>
    rw [update_eq]
    simp only [hp, ha]
    rw [playOut_eq, playOut_eq chain r b, playFrame_phase, hp, runScript_playFrame]
  | handover r b p next hp ha ih =>
    -- the script has ended, so that running it out stops where the update hands over
    have hscript := runScript_playFrame chain r b
    rw [runScript_of_afterScript ha] at hscript
    rw [update_eq]
    simp only [hp, ha]
    rw [ih, playOut_eq chain r b, hp, ← hscript]
    simp only [ha]

end Runner

end BattleScript
