import BattleScript.Proofs.Runner.Log
import BattleScript.Proofs.Scenario
import Mathlib.Data.Nat.Find
import Mathlib.Data.Prod.Basic

/-!
# Every action ends

Within a frame an action goes from one phase to a later one, or to the same phase of a later target;
`Runner.loop_update` has shown that this ends. Over the frames it is `Runner.left` that gets less:
first the phases and targets that are to come, then the lines of the script that are to come, and
last the countdown of the wait that is pending. A frame that neither ends a script nor runs a line
has polled a wait that still holds, and that wait has come closer to its end
(`Wait.countdown_tick`).

The invariant is `Runner.Ongoing`: the battle is lawful, so that its fades run, and the script of
the phase being played was loaded, so that the interpreter is not idle for ever.
-/

namespace BattleScript

/-! ## An interpreter gets on -/

namespace Interpreter

/-- What is left of a script: its lines, then the frames of the wait that is pending. -/
def left (i : Interpreter) (b : Battle) : Nat × Nat :=
  ((i.script.drop i.cursor).length,
    match i.state with
    | .waiting w => w.countdown b
    | _ => 0)

variable {chain : Chain} {i : Interpreter} {b : Battle} {c : ActionContext}

/-- Going on with a script completes it or takes a line. -/
theorem left_resume_lt (chain : Chain) (i : Interpreter) (scene : Scene) (b : Battle) :
    (i.resume chain scene).1.isFinished ∨
      Prod.Lex (· < ·) (· < ·) ((i.resume chain scene).1.left (i.resume chain scene).2.battle)
        (i.left b) := by
  simp only [resume]
  cases hlines : i.script.drop i.cursor with
  | nil => exact .inl rfl
  | cons line rest =>
    -- whatever the first line says, it is taken
    have htaken : 0 < (runLines chain (line :: rest) scene).taken := by
      rw [runLines_cons]
      dsimp only
      split
      · exact Nat.succ_pos _
      · exact Nat.one_pos
    have hlen : (line :: rest).length = i.script.length - i.cursor := by
      rw [← hlines, List.length_drop]
    refine .inr (.left _ _ ?_)
    rw [List.length_drop, hlines]
    simp only [List.length_cons] at hlen ⊢
    omega

/-- A script that is not finished gets on with every frame, unless that frame finishes it. -/
theorem left_update_lt (hb : b.stage.FadesRun) (hi : ¬ i.isFinished) :
    (i.update chain ⟨b.advance, c⟩).1.isFinished ∨
      Prod.Lex (· < ·) (· < ·)
        ((i.update chain ⟨b.advance, c⟩).1.left (i.update chain ⟨b.advance, c⟩).2.battle)
        (i.left b) := by
  have hresume := left_resume_lt chain i ⟨b.advance, c⟩ b
  unfold update
  cases hs : i.state with
  | running => exact hresume
  | waiting w =>
    by_cases hw : w.holds b.advance
    · -- the wait still holds: no line is taken, but the countdown goes on
      simp only [Wait.poll, if_pos hw]
      refine .inr ?_
      simp only [left, hs]
      exact .right _ (Wait.countdown_tick hb hw)
    · simp only [Wait.poll, if_neg hw]
      exact hresume
  | _ => exact absurd (by simp [isFinished, hs]) hi

/-- An interpreter that was loaded is never idle again. -/
theorem update_ne_idle (hi : i.state ≠ .idle) (scene : Scene) :
    (i.update chain scene).1.state ≠ .idle := by
  have hresume : (i.resume chain scene).1.state ≠ .idle := runLines_ne_idle _ _ _
  unfold update
  cases hs : i.state with
  | idle => exact absurd hs hi
  | running => exact hresume
  | waiting w =>
    dsimp only
    split
    · nofun
    · exact hresume
  | completed | aborted =>
    show i.state ≠ .idle
    exact hi

end Interpreter

/-! ## A runner gets on -/

namespace Runner

/-- What is left of an action: phases and targets, then lines, then frames. -/
def left (r : Runner) (b : Battle) : (Nat × Nat) × (Nat × Nat) :=
  (r.remaining, r.interpreter.left b)

/-- Less is left. -/
abbrev Less : (Nat × Nat) × (Nat × Nat) → (Nat × Nat) × (Nat × Nat) → Prop :=
  Prod.Lex (Prod.Lex (· < ·) (· < ·)) (Prod.Lex (· < ·) (· < ·))

/-- The measure is of natural numbers in lexicographic order. -/
theorem less_wf : WellFounded Less :=
  (Prod.lex (Prod.lex Nat.lt_wfRel Nat.lt_wfRel) (Prod.lex Nat.lt_wfRel Nat.lt_wfRel)).wf

/-- The script of the phase being played is under way. -/
def UnderWay (r : Runner) : Prop := r.phase.isSome → ¬ r.interpreter.isFinished

/-- What an action needs in order to get on: its battle is lawful, and the script of the phase being
played is under way. -/
structure Ongoing (s : Runner × Battle) : Prop where
  underWay : s.1.UnderWay
  lawful : s.2.Lawful

variable {r next : Runner} {p : Phase} {b : Battle}

/-- An action that has not finished is in a phase. -/
theorem exists_phase (h : ¬ r.isFinished) : ∃ p, r.phase = some p := by
  cases hp : r.phase with
  | none => exact absurd (by simp [isFinished, hp]) h
  | some p => exact ⟨p, rfl⟩

/-- A script that hands over to no other phase is under way. -/
theorem not_isFinished_of_afterScript {i : Interpreter} (h : r.afterScript p i.state = none)
    (hi : i.state ≠ .idle) : ¬ i.isFinished := by
  unfold Interpreter.isFinished
  cases hs : i.state <;> simp_all [afterScript]

/-- A phase that is handed over to begins with a script that was just loaded. -/
theorem running_afterScript {state : InterpreterState} (h : r.afterScript p state = some next)
    (hphase : next.phase.isSome) : next.interpreter.state = .running := by
  have hnext (r : Runner) : r.nextTarget.interpreter.state = .running := by
    unfold nextTarget
    split <;> rfl
  -- either handover loads the script of the phase it goes to
  obtain ⟨-, rfl⟩ | ⟨-, rfl⟩ := afterScript_eq_some_iff.mp h
  · cases p with
    | setup | follow => rfl
    | whole | target => exact hnext _
    | finish => cases hphase
  · cases p with
    | setup | whole | target => exact hnext _
    | follow => rfl
    | finish => cases hphase

/-- The interpreter of a script that is under way is not idle, as one is that was never loaded. -/
theorem UnderWay.ne_idle (h : r.UnderWay) (hp : r.phase = some p) :
    r.interpreter.state ≠ .idle := by
  intro hs
  exact h (by rw [hp]; rfl) (by simp [Interpreter.isFinished, hs])

/-- Every pass through the loop of an update leaves a script under way. -/
theorem UnderWay.pass {chain : Chain} {fs : List Event} {s : Runner × Battle}
    {t : ForInStep (Runner × Battle)} (h : s.1.UnderWay) (hpass : Runner.pass chain s = (fs, t)) :
    t.value.1.UnderWay := by
  obtain ⟨r, b⟩ := s
  obtain ⟨-, rfl, rfl⟩ | ⟨p, hp, ⟨ha, rfl, rfl⟩ | ⟨next, ha, rfl, rfl⟩⟩ := pass_cases hpass
  · exact h
  · -- the script goes on: it was under way before the frame and did not end in it
    exact fun _ => not_isFinished_of_afterScript ha (Interpreter.update_ne_idle (ne_idle h hp) _)
  · intro hphase
    show ¬ next.interpreter.isFinished
    simp [Interpreter.isFinished, running_afterScript ha hphase]

/-- What edits and frames keep, every pass keeps. -/
theorem battle_pass {I : Battle → Prop} (kept : Battle.Kept I) {fs : List Event}
    {s : Runner × Battle} {t : ForInStep (Runner × Battle)} (h : I s.2)
    (hpass : Runner.pass .standard s = (fs, t)) : I t.value.2 := by
  obtain ⟨r, b⟩ := s
  have hplayed : I (r.playFrame .standard b).2 :=
    Interpreter.update_keeps (I := fun scene => I scene.battle) kept.command h
  obtain ⟨-, rfl, rfl⟩ | ⟨p, -, ⟨-, rfl, rfl⟩ | ⟨next, -, rfl, rfl⟩⟩ := pass_cases hpass
  · exact h
  · exact hplayed
  · -- a handover may bring the camera back, and that is an edit like any other
    show I (next.settle _)
    unfold settle
    split
    · exact kept.restoreCamera 30 30 hplayed
    · exact hplayed

/-- Every pass through the loop of an update keeps an action going. -/
theorem Ongoing.pass {fs : List Event} {s : Runner × Battle} {t : ForInStep (Runner × Battle)}
    (h : Ongoing s) (hpass : Runner.pass .standard s = (fs, t)) : Ongoing t.value where
  underWay := UnderWay.pass h.underWay hpass
  lawful := battle_pass Battle.Lawful.kept h.lawful hpass

theorem Ongoing.advance (h : Ongoing (r, b)) : Ongoing (r, b.advance) :=
  ⟨h.underWay, Battle.Lawful.kept.advance h.lawful⟩

/-- An action is ongoing after any number of frames. -/
theorem Ongoing.afterFrames {s : Runner × Battle} (h : Ongoing s) (n : Nat) :
    Ongoing (afterFrames .standard n s) :=
  keeps_afterFrames Ongoing.advance Ongoing.pass n h

/-- No update adds to what is to come. -/
theorem remaining_update_le (chain : Chain) (r : Runner) (b : Battle) :
    (r.update chain b).1.remaining = r.remaining ∨
      Prod.Lex (· < ·) (· < ·) (r.update chain b).1.remaining r.remaining := by
  induction r, b using update_induction chain with
  | finished r b hp =>
    rw [update_eq]
    simp only [hp]
    exact .inl trivial
  | later r b p hp ha =>
    rw [update_eq]
    simp only [hp, ha]
    exact .inl (playFrame_remaining chain r b)
  | handover r b p next hp ha ih =>
    rw [update_eq]
    simp only [hp, ha]
    -- the handover leaves less, and the rest of the update no more than that
    have hlt : Prod.Lex (· < ·) (· < ·) next.remaining r.remaining :=
      remaining_afterScript_lt (r := (r.playFrame chain b).1) hp ha
    rcases ih with heq | hless
    · exact .inr (heq ▸ hlt)
    · exact .inr (hless.trans hlt)

/-- Every frame of an action that has not finished leaves less. -/
theorem left_frame_lt (h : Ongoing (r, b)) (hr : ¬ r.isFinished) :
    Less ((r.frame .standard b).1.left (r.frame .standard b).2) (r.left b) := by
  obtain ⟨p, hp⟩ := exists_phase hr
  have hrun : ¬ r.interpreter.isFinished := h.underWay (by rw [hp]; rfl)
  rw [frame, update_eq]
  simp only [hp]
  cases ha : (r.playFrame .standard b.advance).1.afterScript p
      (r.playFrame .standard b.advance).1.interpreter.state with
  | none =>
    -- the script goes on, and has got on
    have hidle : (r.playFrame .standard b.advance).1.interpreter.state ≠ .idle :=
      Interpreter.update_ne_idle (h.underWay.ne_idle hp) _
    have hleft := (Interpreter.left_update_lt h.lawful.fadesRun hrun).resolve_left
      (not_isFinished_of_afterScript ha hidle)
    exact .right _ hleft
  | some next =>
    -- another phase has begun, and perhaps further ones
    have hnext : Prod.Lex (· < ·) (· < ·) next.remaining r.remaining :=
      remaining_afterScript_lt (r := (r.playFrame .standard b.advance).1) hp ha
    have hupdate := remaining_update_le .standard next
      (next.settle (r.playFrame .standard b.advance).2)
    refine .left _ _ ?_
    dsimp only
    rcases hupdate with heq | hless
    · exact heq ▸ hnext
    · exact hless.trans hnext

/-- After some number of frames the action has finished. -/
theorem exists_isFinished {s : Runner × Battle} (h : Ongoing s) :
    ∃ n, (afterFrames .standard n s).1.isFinished := by
  induction hm : s.1.left s.2 using less_wf.induction generalizing s with
  | _ m ih =>
    by_cases hs : s.1.isFinished
    · exact ⟨0, hs⟩
    · obtain ⟨n, hn⟩ := ih _ (hm ▸ left_frame_lt h hs) (h.afterFrames 1) rfl
      exact ⟨n + 1, hn⟩

/-- There is a first frame after which the action has finished. -/
theorem exists_first {s : Runner × Battle} (h : Ongoing s) :
    ∃ n, (∀ m < n, ¬ (afterFrames .standard m s).1.isFinished) ∧
      (afterFrames .standard n s).1.isFinished := by
  have hex := exists_isFinished h
  exact ⟨Nat.find hex, fun m hm => Nat.find_min hex hm, Nat.find_spec hex⟩

/-! ## Playing an action to its end -/

/-- Frames are played up to the limit, or up to the first after which the action has finished. -/
theorem runFrom_eq {chain : Chain} {limit n : Nat} (played : Nat) {s : Runner × Battle}
    (hn : n ≤ limit)
    (before : ∀ m < n, ¬ (afterFrames chain m s).1.isFinished)
    (done : n = limit ∨ (afterFrames chain n s).1.isFinished) :
    runFrom chain limit played s.1 s.2 = (played + n, afterFrames chain n s) := by
  -- on the limit, the first frame taken off
  induction limit generalizing n played s with
  | zero =>
    obtain rfl : n = 0 := Nat.le_zero.mp hn
    rfl
  | succ limit ih =>
    rw [runFrom]
    cases n with
    | zero =>
      have hs : s.1.isFinished := done.resolve_left (Nat.succ_ne_zero limit).symm
      rw [if_pos hs]
      rfl
    | succ n =>
      have hs : ¬ s.1.isFinished := before 0 (Nat.succ_pos n)
      have hrest :
          runFrom chain limit (played + 1) (s.1.frame chain s.2).1 (s.1.frame chain s.2).2 =
            (played + 1 + n, afterFrames chain n (s.1.frame chain s.2)) :=
        ih (played + 1) (Nat.le_of_succ_le_succ hn)
          (fun m hm => before (m + 1) (Nat.succ_lt_succ hm)) (done.imp_left Nat.succ.inj)
      rw [if_neg hs, ← Nat.add_assoc, Nat.add_right_comm]
      exact hrest

/-- With a limit that is high enough, an action is played to its end. -/
theorem exists_runToEnd_isFinished {r : Runner} {b : Battle} (h : Ongoing (r, b)) :
    ∃ limit, (r.runToEnd .standard limit b).2.1.isFinished := by
  obtain ⟨n, hbefore, hdone⟩ := exists_first h
  refine ⟨n, ?_⟩
  rw [runToEnd, runFrom_eq 0 (Nat.le_refl n) hbefore (.inl rfl)]
  exact hdone

/-- The action of a scenario is ongoing when it starts, if the limit of TP is not negative. -/
theorem ongoing_start {s : Scenario} {b : Battle} {r : Runner} (hs : 0 ≤ s.settings.maxTp)
    (hb : s.build? = .ok (b, r)) : Ongoing (r, b) := by
  rw [Scenario.build?_eq_ok hb]
  exact ⟨nofun, Battle.Lawful.kept.payCooldowns _ _ (Scenario.lawful_battle hs)⟩

/-- **Every action ends.** An action of a scenario finishes after some number of frames, and no rule
is breached on the way or later. With a limit of that many frames or more, playing it to its end
takes exactly these frames; with a lower limit it stops there, unfinished. Within a frame the loop
of the runner and the loop of the interpreter end in every state, whatever the packs. -/
theorem action_ends :
    (∀ (s : Scenario) (b : Battle) (r : Runner), 0 ≤ s.settings.maxTp → s.build? = .ok (b, r) →
      ∃ frames, (∀ n < frames, ¬ (afterFrames .standard n (r, b)).1.isFinished) ∧
        (afterFrames .standard frames (r, b)).1.isFinished ∧
        (∀ n, (afterFrames .standard n (r, b)).2.breach = none) ∧
        (∀ limit, frames ≤ limit →
          r.runToEnd .standard limit b = (frames, afterFrames .standard frames (r, b))) ∧
        ∀ limit < frames,
          r.runToEnd .standard limit b = (limit, afterFrames .standard limit (r, b))) ∧
    (∀ (chain : Chain) (r : Runner) (b : Battle),
      ∃ es, Loop (pass chain) (r, b) es (r.update chain b)) ∧
    ∀ (chain : Chain) (i : Interpreter) (scene : Scene),
      ∃ ds, Loop (Interpreter.pass chain) (i, scene) ds (i.update chain scene) := by
  refine ⟨?_, fun chain r b => ⟨_, loop_update chain r b⟩,
    fun chain i scene => ⟨_, Interpreter.loop_update chain i scene⟩⟩
  intro s b r hs hb
  have hongoing : Ongoing (r, b) := ongoing_start hs hb
  obtain ⟨frames, hbefore, hdone⟩ := exists_first hongoing
  refine ⟨frames, hbefore, hdone, fun n => (hongoing.afterFrames n).lawful.unbreached, ?_, ?_⟩
  · -- with a limit that is high enough the action stops by itself
    intro limit hlimit
    have hrun := runFrom_eq 0 hlimit hbefore (.inr hdone)
    rw [Nat.zero_add] at hrun
    exact hrun
  · intro limit hlimit
    have hrun := runFrom_eq 0 (Nat.le_refl limit)
      (fun n hn => hbefore n (Nat.lt_trans hn hlimit)) (.inl rfl)
    rw [Nat.zero_add] at hrun
    exact hrun

/-- The action of a battler on itself ends. -/
theorem action_ends_solo :
    ∃ b r, Scenario.solo.build? = .ok (b, r) ∧
      ∃ frames, (afterFrames .standard frames (r, b)).1.isFinished := by
  obtain ⟨frames, -, hdone, -⟩ := action_ends.1 Scenario.solo _ _ (by decide) Scenario.build?_solo
  exact ⟨_, _, Scenario.build?_solo, frames, hdone⟩

end Runner

end BattleScript
