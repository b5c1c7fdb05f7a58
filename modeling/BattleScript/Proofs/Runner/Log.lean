import BattleScript.Action.Runner
import BattleScript.Proofs.Interpreter.Log

/-!
# What happens while an action is played

Like the interpreter, the runner keeps no record. This module adds one beside it:

- `Runner.Event`: a command was dispatched, a script was aborted, or a phase was entered;
- `Runner.events`: what happens in one update;
- `Runner.pass`: an update taken apart into the passes of a loop, each of which plays a frame of the
  interpreter and, if that ends a script, hands over to the next phase;
- `Runner.afterFrames` and `Runner.eventsOver`: the action after a number of frames, and what
  happened in them.

`Runner.loop_update` says that the loop ends on every battle and in every state, that it ends with
what `update` gives, and that what happens on the way is `events`. What a single pass can be is
known from `Runner.pass_cases`: there is nothing to play, the script goes on in a later frame, or it
has ended, completed or aborted (`Runner.afterScript_eq_some_iff`), and the next phase begins in the
same frame. So an abort is recorded in the very update in which it happens
(`Runner.events_of_aborted`).
-/

namespace BattleScript

namespace Runner

/-- What can happen while an action is played. -/
inductive Event
  | dispatched (d : Dispatch)
  /-- The script of a phase was aborted. -/
  | aborted (p : Phase)
  /-- A phase was entered, in this context. -/
  | entered (p : Phase) (c : ActionContext)

/-- That the phase being played was entered. -/
def entry (r : Runner) : List Event := (r.phase.map fun p => .entered p r.context).toList

/-- What happens when the script of a phase has ended in the given state. -/
def handover (p : Phase) (state : InterpreterState) (next : Runner) : List Event :=
  (if state = .aborted then [.aborted p] else []) ++ next.entry

/-- What the interpreter does in its next update. -/
def played (chain : Chain) (r : Runner) (b : Battle) : List Event :=
  (r.interpreter.dispatches chain ⟨b, r.context⟩).map .dispatched

theorem playFrame_eq (chain : Chain) (r : Runner) (b : Battle) :
    r.playFrame chain b =
      let u := r.interpreter.update chain ⟨b, r.context⟩
      ({ r with interpreter := u.1, context := u.2.context }, u.2.battle) := rfl

/-- A frame of the script stays in the phase. -/
theorem playFrame_phase (chain : Chain) (r : Runner) (b : Battle) :
    (r.playFrame chain b).1.phase = r.phase := rfl

/-- A frame of the script leaves as much of the course as there was; only a handover shortens it.
-/
theorem playFrame_remaining (chain : Chain) (r : Runner) (b : Battle) :
    (r.playFrame chain b).1.remaining = r.remaining := rfl

/-- What happens in an update. -/
def events (chain : Chain) (r : Runner) (b : Battle) : List Event :=
  match _h : r.phase with
  | none => []
  | some p =>
    let f := r.playFrame chain b
    match _hp : f.1.afterScript p f.1.interpreter.state with
    | none => r.played chain b
    | some next =>
      r.played chain b ++
        (handover p f.1.interpreter.state next ++ next.events chain (next.settle f.2))
termination_by r.remaining
decreasing_by
  rw [← playFrame_remaining chain r b]
  exact remaining_afterScript_lt ((playFrame_phase chain r b).trans _h) _hp

/-- One pass through the loop of an update. -/
def pass (chain : Chain) : Runner × Battle → Pass Event (Runner × Battle)
  | (r, b) =>
    match r.phase with
    | none => ([], .done (r, b))
    | some p =>
      let f := r.playFrame chain b
      match f.1.afterScript p f.1.interpreter.state with
      | none => (r.played chain b, .done f)
      | some next =>
        (r.played chain b ++ handover p f.1.interpreter.state next,
          .yield (next, next.settle f.2))

/-! ## One pass of an update -/

/-- The recursion of an update, without the proofs that it ends. -/
theorem update_eq (chain : Chain) (r : Runner) (b : Battle) :
    r.update chain b =
      match r.phase with
      | none => (r, b)
      | some p =>
        let f := r.playFrame chain b
        match f.1.afterScript p f.1.interpreter.state with
        | none => f
        | some next => next.update chain (next.settle f.2) := by
  rw [update]
  split
  · next h => simp only [h]
  · next h =>
    simp only [h]
    split <;> next h' => simp only [h']

/-- The record grows along the same recursion. -/
theorem events_eq (chain : Chain) (r : Runner) (b : Battle) :
    r.events chain b =
      match r.phase with
      | none => []
      | some p =>
        let f := r.playFrame chain b
        match f.1.afterScript p f.1.interpreter.state with
        | none => r.played chain b
        | some next =>
          r.played chain b ++
            (handover p f.1.interpreter.state next ++ next.events chain (next.settle f.2)) := by
  rw [events]
  split
  · next h => simp only [h]
  · next h =>
    simp only [h]
    split <;> next h' => simp only [h']

/-- Induction along the phases of an update: the action has finished already, the script goes on in
a later frame, or it hands over, and the next phase goes on with the update. -/
theorem update_induction (chain : Chain) {motive : Runner → Battle → Prop}
    (finished : ∀ r b, r.phase = none → motive r b)
    (later : ∀ r b p, r.phase = some p →
      (r.playFrame chain b).1.afterScript p (r.playFrame chain b).1.interpreter.state = none →
      motive r b)
    (handover : ∀ r b p next, r.phase = some p →
      (r.playFrame chain b).1.afterScript p (r.playFrame chain b).1.interpreter.state = some next →
      motive next (next.settle (r.playFrame chain b).2) → motive r b)
    (r : Runner) (b : Battle) : motive r b := by
  induction r, b using update.induct chain with
  | case1 r b hp => exact finished r b hp
  | case2 r b p hp f e hf ha =>
    refine later r b p hp ?_
    rw [hf]
    exact ha
  | case3 r b p hp f e hf next ha ih =>
    refine handover r b p next hp ?_ ?_
    · rw [hf]
      exact ha
    · rw [hf]
      exact ih

/-- A script that was completed leaves no trace of its own, only the entry of what comes next. -/
theorem handover_completed (p : Phase) (next : Runner) :
    handover p .completed next = next.entry := rfl

/-- A script that was aborted is on the record, before the entry of what comes next. -/
theorem handover_aborted (p : Phase) (next : Runner) :
    handover p .aborted next = .aborted p :: next.entry := rfl

/-- If a frame leaves the interpreter aborted, then the same update hands over: right after the
commands of that frame it records the abort and the phase entered then, and it goes on from there.
-/
theorem events_of_aborted {chain : Chain} {r : Runner} {b : Battle} {p : Phase}
    (hp : r.phase = some p) (hstate : (r.playFrame chain b).1.interpreter.state = .aborted) :
    let played := r.playFrame chain b
    let next := played.1.abort p
    r.events chain b =
      r.played chain b ++
        .aborted p :: (next.entry ++ next.events chain (next.settle played.2)) := by
  intro played next
  -- an aborted interpreter ends its script, so this is a handover
  have hnext : played.1.afterScript p played.1.interpreter.state = some next :=
    afterScript_eq_some_iff.mpr (.inr ⟨hstate, rfl⟩)
  rw [events_eq]
  simp only [hp]
  rw [hnext, hstate]
  show r.played chain b ++ (handover p .aborted next ++ _) = _
  rw [handover_aborted, List.cons_append]

/-- What a pass through the loop of an update can be: the action has finished already, the script
goes on in a later frame, or it hands over. -/
theorem pass_cases {chain : Chain} {r : Runner} {b : Battle} {fs : List Event}
    {t : ForInStep (Runner × Battle)} (h : pass chain (r, b) = (fs, t)) :
    (r.phase = none ∧ fs = [] ∧ t = .done (r, b)) ∨
      ∃ p, r.phase = some p ∧
        let f := r.playFrame chain b
        ((f.1.afterScript p f.1.interpreter.state = none ∧ fs = r.played chain b ∧ t = .done f) ∨
          ∃ next, f.1.afterScript p f.1.interpreter.state = some next ∧
            fs = r.played chain b ++ handover p f.1.interpreter.state next ∧
            t = .yield (next, next.settle f.2)) := by
  simp only [pass] at h
  split at h
  · next hp =>
    cases h
    exact .inl ⟨hp, rfl, rfl⟩
  · next p hp =>
    refine .inr ⟨p, hp, ?_⟩
    split at h
    · next ha =>
      cases h
      exact .inl ⟨ha, rfl, rfl⟩
    · next next ha =>
      cases h
      exact .inr ⟨next, ha, rfl, rfl⟩

/-- **An update is its loop**: on every battle and in every state the loop ends, and `events` is
what happens on the way. -/
theorem loop_update (chain : Chain) (r : Runner) (b : Battle) :
    Loop (pass chain) (r, b) (r.events chain b) (r.update chain b) := by
  -- the first pass takes the branch that the update does, and so do the others after it
  induction r, b using update_induction chain with
  | finished r b hp =>
    rw [update_eq, events_eq]
    simp only [hp]
    refine .ends ?_
    simp only [pass, hp]
  | later r b p hp ha =>
    rw [update_eq, events_eq]
    simp only [hp, ha]
    refine .ends ?_
    simp only [pass, hp, ha]
  | handover r b p next hp ha ih =>
    rw [update_eq, events_eq]
    simp only [hp, ha]
    rw [← List.append_assoc]
    refine .again ?_ ih
    simp only [pass, hp, ha]

/-! ## Frames -/

/-- The action after a number of frames. -/
def afterFrames (chain : Chain) : Nat → Runner × Battle → Runner × Battle
  | 0, s => s
  | n + 1, s => afterFrames chain n (s.1.frame chain s.2)

/-- What happens in a number of frames. -/
def eventsOver (chain : Chain) : Nat → Runner × Battle → List Event
  | 0, _ => []
  | n + 1, s => s.1.events chain s.2.advance ++ eventsOver chain n (s.1.frame chain s.2)

/-- What a battle's frame leaves alone and every pass keeps, all frames keep. -/
theorem keeps_frames {chain : Chain} {I : List Event → Runner × Battle → Prop}
    (advance : ∀ {es r b}, I es (r, b) → I es (r, b.advance))
    (step : ∀ {es fs s next}, I es s → pass chain s = (fs, next) → I (es ++ fs) next.value)
    (n : Nat) {es : List Event} {s : Runner × Battle} (h : I es s) :
    I (es ++ eventsOver chain n s) (afterFrames chain n s) := by
  -- frame by frame from the front, with the record so far carried along
  induction n generalizing es s with
  | zero =>
    rw [eventsOver, List.append_nil]
    exact h
  | succ n ih =>
    rw [eventsOver, ← List.append_assoc]
    exact ih ((loop_update chain s.1 s.2.advance).keeps step (advance h))

/-- The same of what does not look at the record. -/
theorem keeps_afterFrames {chain : Chain} {I : Runner × Battle → Prop}
    (advance : ∀ {r b}, I (r, b) → I (r, b.advance))
    (step : ∀ {fs s next}, I s → pass chain s = (fs, next) → I next.value)
    (n : Nat) {s : Runner × Battle} (h : I s) : I (afterFrames chain n s) :=
  @keeps_frames chain (fun _ => I) advance step n [] s h

/-- To play an action with a limit is to play some number of frames, each of which it begins
unfinished. -/
theorem exists_runFrom_eq (chain : Chain) (limit played : Nat) (s : Runner × Battle) :
    ∃ n, runFrom chain limit played s.1 s.2 = (played + n, afterFrames chain n s) ∧
      ∀ m < n, ¬ (afterFrames chain m s).1.isFinished := by
  induction limit generalizing played s with
  | zero => exact ⟨0, rfl, nofun⟩
  | succ limit ih =>
    rw [runFrom]
    -- an action that has finished is not played on
    split
    · exact ⟨0, rfl, nofun⟩
    · next hs =>
      obtain ⟨n, hn, hbefore⟩ := ih (played + 1) (s.1.frame chain s.2)
      refine ⟨n + 1, ?_, ?_⟩
      · rw [← Nat.add_assoc, Nat.add_right_comm]
        exact hn
      · intro m hm
        cases m with
        | zero => exact hs
        | succ m => exact hbefore m (Nat.lt_of_succ_lt_succ hm)

end Runner

end BattleScript
