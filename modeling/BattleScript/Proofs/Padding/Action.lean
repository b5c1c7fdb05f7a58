import BattleScript.Proofs.Padding.Script
import BattleScript.Proofs.Standard.Sequence

/-!
# Actions whose scripts have lines put in

An action goes frame by frame as it would without the lines that no pack claims
(`Runner.unclaimed_lines_are_inert`). The interpreters of the two actions go along with each other
by `Interpreter.Padded.update`. The runners look at their interpreters only to see in which state a
script has ended, so they hand over to the same phases, in the same contexts and in the same frames;
and a phase begins with the scripts of both at their first line (`Padded.enter`), however far the
cursors had parted before.
-/

namespace BattleScript

namespace Runner

/-- An action on a battle by the given scripts, whatever the database says of them. -/
def startOn (scripts : ActionSequence) (b : Battle) (c : ActionContext) : Runner × Battle :=
  let s := start b c
  ({ s.1 with sequence := scripts }.enter .setup, s.2)

/-- The two actions are at the same point of the same scripts, but for ignored lines that were put
into those of the second. -/
structure Padded (chain : Chain) (r r' : Runner) : Prop where
  scripts : ∀ p, Script.Padded chain.Ignores (r.sequence.script p) (r'.sequence.script p)
  context : r'.context = r.context
  declared : r'.declared = r.declared
  pending : r'.pending = r.pending
  phase : r'.phase = r.phase
  interpreter : r.interpreter.Padded chain r'.interpreter

variable {chain : Chain} {r r' : Runner}

/-! ## From phase to phase -/

/-- A phase begins with both scripts at their first line. -/
theorem Padded.enter (h : Padded chain r r') (p : Phase) : Padded chain (r.enter p) (r'.enter p) :=
  { h with
    phase := rfl
    interpreter := Interpreter.padded_load (h.scripts p) }

/-- With the same targets both are in the same context. -/
theorem Padded.context_eq (h : Padded chain r r') {ts ts' : List BattlerId} (hts : ts' = ts) :
    { r'.context with targets := ts' } = { r.context with targets := ts } := by
  rw [h.context, hts]

/-- After the last target both actions have the targets they were declared with. -/
theorem Padded.enterFollow (h : Padded chain r r') :
    Padded chain r.enterFollow r'.enterFollow where
  scripts := h.scripts
  context := h.context_eq h.declared
  declared := h.declared
  pending := h.pending
  phase := rfl
  interpreter := Interpreter.padded_load (h.scripts .follow)

/-- Both take the same target next, or go on to the follow phase together. -/
theorem Padded.nextTarget (h : Padded chain r r') : Padded chain r.nextTarget r'.nextTarget := by
  unfold Runner.nextTarget
  rw [h.pending]
  -- the targets still to come are the same, so both runners take the same branch
  cases r.pending with
  | nil => exact h.enterFollow
  | cons t rest =>
    exact {
      scripts := h.scripts
      context := h.context_eq rfl
      declared := h.declared
      pending := rfl
      phase := rfl
      interpreter := Interpreter.padded_load (h.scripts .target) }

/-- A phase whose script has been played out is followed by the same phase in both. -/
theorem Padded.advance (h : Padded chain r r') (p : Phase) :
    Padded chain (r.advance p) (r'.advance p) := by
  cases p with
  | setup => exact h.enter .whole
  | whole => exact Padded.nextTarget { h with pending := h.declared }
  | target => exact h.nextTarget
  | follow => exact h.enter .finish
  | finish => exact { h with phase := rfl }

/-- Dropping the targets does not touch the scripts. -/
theorem Padded.dropTargets (h : Padded chain r r') :
    Padded chain r.dropTargets r'.dropTargets where
  scripts := h.scripts
  context := h.context_eq rfl
  declared := rfl
  pending := rfl
  phase := h.phase
  interpreter := h.interpreter

/-- A phase that was broken off is followed by the same phase in both. -/
theorem Padded.abort (h : Padded chain r r') (p : Phase) :
    Padded chain (r.abort p) (r'.abort p) := by
  cases p with
  | setup | whole | target => exact h.dropTargets.advance .target
  | follow => exact h.dropTargets.advance .follow
  | finish => exact h.dropTargets.advance .finish

/-- Where the one action goes on to another phase, the other one does so too. -/
theorem Padded.afterScript (h : Padded chain r r') (p : Phase) (state : InterpreterState) :
    Option.Rel (Padded chain) (r.afterScript p state) (r'.afterScript p state) := by
  cases state with
  | completed => exact .some (h.advance p)
  | aborted => exact .some (h.abort p)
  | idle | running | waiting w => exact .none

/-! ## From frame to frame -/

/-- What is settled at the end of an action depends on the phase only. -/
theorem Padded.settle (h : Padded chain r r') (b : Battle) : r'.settle b = r.settle b := by
  rw [Runner.settle, isFinished, h.phase, Runner.settle, isFinished]

/-- A frame of the script does the same to the battle. -/
theorem Padded.playFrame (h : Padded chain r r') (b : Battle) :
    (r'.playFrame chain b).2 = (r.playFrame chain b).2 ∧
      Padded chain (r.playFrame chain b).1 (r'.playFrame chain b).1 := by
  obtain ⟨hscene, hinterpreter⟩ := h.interpreter.update ⟨b, r.context⟩
  simp only [playFrame_eq, h.context, hscene]
  exact ⟨trivial, { h with context := rfl, interpreter := hinterpreter }⟩

/-- After a frame either both scripts go on, or both hand over to the same phase. -/
theorem Padded.afterFrame (h : Padded chain r r') (b : Battle) (p : Phase) :
    Option.Rel (Padded chain)
      ((r.playFrame chain b).1.afterScript p (r.playFrame chain b).1.interpreter.state)
      ((r'.playFrame chain b).1.afterScript p (r'.playFrame chain b).1.interpreter.state) := by
  have hplayed := (h.playFrame b).2
  rw [hplayed.interpreter.state]
  exact hplayed.afterScript p _

/-- An update takes both to the same battle. -/
theorem Padded.update (h : Padded chain r r') (b : Battle) :
    (r'.update chain b).2 = (r.update chain b).2 ∧
      Padded chain (r.update chain b).1 (r'.update chain b).1 := by
  induction r, b using update_induction chain generalizing r' with
  | finished r b hp =>
    rw [update_eq chain r b, update_eq chain r' b, h.phase, hp]
    exact ⟨rfl, h⟩
  | later r b p hp ha =>
    have hafter := h.afterFrame b p
    rw [ha] at hafter
    rw [update_eq chain r b, update_eq chain r' b, h.phase, hp]
    simp only [ha]
    generalize (r'.playFrame chain b).1.afterScript p _ = o at hafter ⊢
    cases hafter
    exact h.playFrame b
  | handover r b p next hp ha ih =>
    have hafter := h.afterFrame b p
    rw [ha] at hafter
    rw [update_eq chain r b, update_eq chain r' b, h.phase, hp]
    simp only [ha]
    generalize (r'.playFrame chain b).1.afterScript p _ = o at hafter ⊢
    cases hafter with
    | some hnext =>
      -- both go on with the next phase in the same frame
      simp only [(h.playFrame b).1, hnext.settle]
      exact ih hnext

/-- After any number of frames the battles are equal, and the actions still go along with each
other. -/
theorem Padded.afterFrames (h : Padded chain r r') (b : Battle) (n : Nat) :
    (Runner.afterFrames chain n (r', b)).2 = (Runner.afterFrames chain n (r, b)).2 ∧
      Padded chain (Runner.afterFrames chain n (r, b)).1
        (Runner.afterFrames chain n (r', b)).1 := by
  induction n generalizing r r' b with
  | zero => exact ⟨rfl, h⟩
  | succ n ih =>
    obtain ⟨hbattle, hnext⟩ := h.update b.advance
    -- the runners part in their cursors, the battles do not
    have hframe : r'.frame chain b =
        ((r'.update chain b.advance).1, (r.update chain b.advance).2) := Prod.ext rfl hbattle
    rw [Runner.afterFrames, Runner.afterFrames, hframe]
    exact ih hnext _

/-! ## From the start -/

/-- An action that begins with other scripts is the same action but for the scripts. -/
theorem padded_startOn {scripts : ActionSequence} {b : Battle} {c : ActionContext}
    (h : ∀ p, Script.Padded chain.Ignores ((start b c).1.sequence.script p) (scripts.script p)) :
    Padded chain (start b c).1 (startOn scripts b c).1 where
  scripts := h
  context := rfl
  declared := rfl
  pending := rfl
  phase := rfl
  interpreter := Interpreter.padded_load (h .setup)

/-- **Lines that nobody claims are inert.** Put any number of lines that no standard pack claims
into the scripts of an action, anywhere. After any number of frames the action is then where it
would be without them: on the same battle and in the same context and phase, with the same targets
to come, finished or not, and its interpreter in the same state and thus waiting for the same. It
has played and has left to play the same lines, but for those put in. -/
theorem unclaimed_lines_are_inert (b : Battle) (c : ActionContext) {scripts : ActionSequence}
    (h : ∀ p, Script.Padded Unclaimed ((start b c).1.sequence.script p) (scripts.script p))
    (frames : Nat) :
    let s := afterFrames .standard frames (start b c)
    let s' := afterFrames .standard frames (startOn scripts b c)
    s'.2 = s.2 ∧ s'.1.context = s.1.context ∧ s'.1.phase = s.1.phase ∧
      s'.1.isFinished = s.1.isFinished ∧ s'.1.declared = s.1.declared ∧
      s'.1.pending = s.1.pending ∧ s'.1.interpreter.state = s.1.interpreter.state ∧
      Script.Padded Chain.standard.Ignores
        (s.1.interpreter.script.take s.1.interpreter.cursor)
        (s'.1.interpreter.script.take s'.1.interpreter.cursor) ∧
      Script.Padded Chain.standard.Ignores
        (s.1.interpreter.script.drop s.1.interpreter.cursor)
        (s'.1.interpreter.script.drop s'.1.interpreter.cursor) := by
  intro s s'
  have hstart : Padded .standard (start b c).1 (startOn scripts b c).1 :=
    padded_startOn fun p => (h p).mono fun _ => Chain.standard_ignores
  obtain ⟨hbattle, hpadded⟩ := hstart.afterFrames (start b c).2 frames
  have hfinished : s'.1.isFinished = s.1.isFinished := congrArg Option.isNone hpadded.phase
  exact ⟨hbattle, hpadded.context, hpadded.phase, hfinished, hpadded.declared, hpadded.pending,
    hpadded.interpreter.state, hpadded.interpreter.played, hpadded.interpreter.left⟩

/-- The standard sequence with a line put in at the start of the setup and one behind its last
wait. -/
def paddedStandard : ActionSequence :=
  { ActionSequence.standard with
    setup := "dance wildly: user" :: ActionSequence.standard.setup ++ ["dance wildly: user"] }

/-- A dance that no pack knows, before and after the standard setup. -/
theorem unclaimed_lines_are_inert_solo :
    let start := Runner.start Scenario.solo.battle Scenario.solo.context
    let padded := startOn paddedStandard Scenario.solo.battle Scenario.solo.context
    (∀ p, Script.Padded Unclaimed (start.1.sequence.script p) (paddedStandard.script p)) ∧
      ∀ frames,
        (afterFrames .standard frames padded).2 = (afterFrames .standard frames start).2 := by
  intro start padded
  have hsequence : start.1.sequence = .standard := Scenario.sequence_solo
  have hpadded (p : Phase) :
      Script.Padded Unclaimed (start.1.sequence.script p) (paddedStandard.script p) := by
    have hdance : Unclaimed "dance wildly: user" := unclaimed_of_unread rfl rfl rfl rfl rfl
    rw [hsequence]
    cases p with
    | setup =>
      have hbehind := (Script.Padded.refl ActionSequence.standard.setup).append
        (.extra hdance .nil)
      rw [List.append_nil] at hbehind
      exact .extra hdance hbehind
    | whole | target | follow | finish => exact .refl _
  exact ⟨hpadded, fun frames => (unclaimed_lines_are_inert _ _ hpadded frames).1⟩

end Runner

end BattleScript
