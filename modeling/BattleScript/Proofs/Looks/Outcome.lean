import BattleScript.Proofs.Looks.Commands
import BattleScript.Proofs.Runner.PlayOut
import BattleScript.Proofs.Runner.Termination

/-!
# The outcome does not depend on the looks

Two scenarios that differ only in how they look are played in step with each other by no means: what
is waited for takes its time in the one and perhaps none in the other. But the play-outs of the two
go line by line through the same scripts (`alike_playOut`), and an action is at every moment on the
way to its play-out, up to looks (`alike_afterFrames`). So where both have finished, they have come
to the same (`outcome_ignores_looks`).
-/

namespace BattleScript

open Battle (Alike)

/-! ## Play-outs -/

namespace Interpreter

/-- Running lines on alike scenes takes the same of them, ends in the same state and makes alike
scenes of them. -/
theorem alike_runThrough (lines : List String) {s s' : Scene} (h : s.Alike s') :
    (runThrough .standard lines s).taken = (runThrough .standard lines s').taken ∧
    (runThrough .standard lines s).state = (runThrough .standard lines s').state ∧
    (runThrough .standard lines s).scene.Alike (runThrough .standard lines s').scene := by
  induction lines generalizing s s' with
  | nil => exact ⟨rfl, rfl, h⟩
  | cons line rest ih =>
    have hafter :
        (Chain.standard.record line s).after.Alike (Chain.standard.record line s').after :=
      Chain.alike_standard (.ofLine line) h
    have habort : (Chain.standard.record line s).signal = .abort ↔
        (Chain.standard.record line s').signal = .abort :=
      Chain.abort_standard (.ofLine line) h
    rw [runThrough, runThrough]
    dsimp only
    -- both scripts end here, or both go on
    by_cases ha : (Chain.standard.record line s).signal = .abort
    · rw [if_pos ha, if_pos (habort.mp ha)]
      exact ⟨rfl, rfl, hafter⟩
    · rw [if_neg ha, if_neg (mt habort.mpr ha)]
      obtain ⟨htaken, hstate, hscene⟩ := ih hafter
      exact ⟨congrArg (· + 1) htaken, hstate, hscene⟩

/-- To run a script out on alike scenes gives the same interpreter and alike scenes. -/
theorem alike_runOut (i : Interpreter) {s s' : Scene} (h : s.Alike s') :
    (i.runOut .standard s).1 = (i.runOut .standard s').1 ∧
    (i.runOut .standard s).2.Alike (i.runOut .standard s').2 := by
  obtain ⟨htaken, hstate, hscene⟩ := alike_runThrough (i.script.drop i.cursor) h
  unfold runOut
  cases i.state with
  | idle | completed | aborted => exact ⟨rfl, h⟩
  | running | waiting w =>
    simp only [htaken, hstate]
    exact ⟨trivial, hscene⟩

end Interpreter

namespace Runner

variable {b b' : Battle}

/-- So does running out the script of the phase being played. -/
theorem alike_runScript (r : Runner) (h : b.Alike b') :
    (r.runScript .standard b).1 = (r.runScript .standard b').1 ∧
    (r.runScript .standard b).2.Alike (r.runScript .standard b').2 := by
  have hscene : Scene.Alike ⟨b, r.context⟩ ⟨b', r.context⟩ := ⟨h, rfl⟩
  obtain ⟨hi, hout⟩ := r.interpreter.alike_runOut hscene
  simp only [runScript, hi, hout.context]
  exact ⟨trivial, hout.battle⟩

/-- The end of an action may bring the camera back, which is a matter of looks. -/
theorem alike_settle (r : Runner) (h : b.Alike b') : (r.settle b).Alike (r.settle b') := by
  unfold settle
  split
  · exact ((Alike.of_restoreCamera b 30 30).trans h).trans (Alike.of_restoreCamera b' 30 30).symm
  · exact h

/-- The play-outs on alike battles end in alike battles. -/
theorem alike_playOut (r : Runner) (h : b.Alike b') :
    (r.playOut .standard b).Alike (r.playOut .standard b') := by
  induction r, b using playOut.induct Chain.standard generalizing b' with
  -- the action has finished, the script goes nowhere, or it hands over to the next phase on both
  | case1 r b hp =>
    rw [playOut_eq, playOut_eq _ r b', hp]
    exact h
  | case2 r b p hp f e hf ha =>
    obtain ⟨hr, hb⟩ := r.alike_runScript h
    rw [playOut_eq, playOut_eq _ r b', hp]
    rw [hf] at hr hb
    simp only [hf, ← hr, ha]
    exact hb
  | case3 r b p hp f e hf next ha ih =>
    obtain ⟨hr, hb⟩ := r.alike_runScript h
    rw [playOut_eq, playOut_eq _ r b', hp]
    rw [hf] at hr hb
    simp only [hf, ← hr, ha]
    exact ih (next.alike_settle hb)

/-- After any number of frames the play-out is like the one at the beginning. -/
theorem alike_afterFrames (n : Nat) (s : Runner × Battle) :
    ((afterFrames .standard n s).1.playOut .standard (afterFrames .standard n s).2).Alike
      (s.1.playOut .standard s.2) := by
  induction n generalizing s with
  | zero => exact .refl _
  | succ n ih =>
    have hframe : ((s.1.frame .standard s.2).1.playOut .standard (s.1.frame .standard s.2).2).Alike
        (s.1.playOut .standard s.2) := by
      rw [frame, playOut_update]
      exact s.1.alike_playOut (Alike.of_advance s.2)
    exact (ih (s.1.frame .standard s.2)).trans hframe

end Runner

/-! ## Scenarios -/

/-- The battler without its sprite. -/
def BattlerSpec.plain (s : BattlerSpec) : BattlerSpec := { s with sprite := none }

namespace Scenario

/-- The scenario without its looks. -/
def plain (s : Scenario) : Scenario :=
  { s with
    settings := s.settings.plain
    timings := {}
    party := s.party.map BattlerSpec.plain
    troop := s.troop.map BattlerSpec.plain }

/-- No battler depends on its sprite. -/
theorem roster_plain (s : Scenario) : s.plain.roster = s.roster := by
  have hbuild : BattlerSpec.build ∘ BattlerSpec.plain = BattlerSpec.build := rfl
  simp only [roster, plain, List.map_map, hbuild]

/-- To place sprites writes nothing to the log. -/
theorem log_placeSprites (side : Side) (specs : List BattlerSpec) (st : Stage Float) :
    (placeSprites side specs st).log = st.log := by
  unfold placeSprites
  generalize specs.zipIdx = places
  induction places generalizing st with
  | nil => rfl
  | cons place places ih =>
    obtain ⟨spec, i⟩ := place
    refine (ih _).trans ?_
    dsimp only
    split <;> rfl

/-- The stage of a scenario begins with an empty log. -/
theorem log_stage (s : Scenario) : s.stage.log = #[] := by
  rw [stage, log_placeSprites, log_placeSprites]

/-- The battle of a scenario is like the one without the looks. -/
theorem alike_plain (s : Scenario) : s.battle.Alike s.plain.battle := by
  -- before the start the two battles differ in settings and stage only
  refine Alike.start ?_
  exact {
    settings := rfl
    roster := congrArg (Roster.withRules · s.settings.deathState s.settings.maxTp)
      s.roster_plain.symm
    database := rfl
    switches := rfl
    «variables» := rfl
    inventory := rfl
    cooldowns := rfl
    commonEvents := rfl
    memorized := rfl
    log := s.log_stage.trans s.plain.log_stage.symm
    mixer := rfl
    steps := rfl
    breach := rfl }

/-- Actions of scenarios that differ only in their looks begin alike. -/
theorem alike_start {s s' : Scenario} (h : s.plain = s'.plain) :
    (Runner.start s.battle s.context).1 = (Runner.start s'.battle s'.context).1 ∧
    (Runner.start s.battle s.context).2.Alike (Runner.start s'.battle s'.context).2 := by
  have hbattle : s.battle.Alike s'.battle := s.alike_plain.trans (h ▸ s'.alike_plain.symm)
  have hcontext : s.context = s'.context := by
    show s.plain.context = s'.plain.context
    rw [h]
  rw [hcontext]
  constructor
  · simp only [Runner.start, hbattle.database]
  · exact hbattle.payCooldowns _ _

end Scenario

/-- When an action has finished, the battle is like its play-out at the beginning. -/
theorem Runner.alike_runToEnd {limit : Nat} {r : Runner} {b : Battle}
    (h : (r.runToEnd .standard limit b).2.1.isFinished) :
    (r.runToEnd .standard limit b).2.2.Alike (r.playOut .standard b) := by
  obtain ⟨n, hn, -⟩ := exists_runFrom_eq .standard limit 0 (r, b)
  have hrun : (r.runToEnd .standard limit b).2 = afterFrames .standard n (r, b) :=
    congrArg Prod.snd hn
  have hframes := alike_afterFrames n (r, b)
  rw [hrun] at h ⊢
  rw [playOut_of_isFinished .standard h] at hframes
  exact hframes

/-- **The outcome does not depend on the looks.** If two scenarios differ only in their timings,
their sprites, the bounds of the field, the distance of a step, the side view and the battle camera,
and their actions are both played until they have finished, then both end with the same battlers,
stores, common events, cooldowns and music, and with the same lines in the log. -/
theorem Scenario.outcome_ignores_looks (s s' : Scenario) (h : s.plain = s'.plain) {b b' : Battle}
    {r r' : Runner} (hb : s.build? = .ok (b, r)) (hb' : s'.build? = .ok (b', r'))
    (limit limit' : Nat)
    (hdone : (r.runToEnd .standard limit b).2.1.isFinished)
    (hdone' : (r'.runToEnd .standard limit' b').2.1.isFinished) :
    let e := (r.runToEnd .standard limit b).2.2
    let e' := (r'.runToEnd .standard limit' b').2.2
    e.roster = e'.roster ∧ e.switches = e'.switches ∧ e.variables = e'.variables ∧
      e.inventory = e'.inventory ∧ e.commonEvents = e'.commonEvents ∧ e.cooldowns = e'.cooldowns ∧
      e.memorized = e'.memorized ∧ e.mixer.playing = e'.mixer.playing ∧
      e.mixer.history = e'.mixer.history ∧ e.stage.log = e'.stage.log := by
  intro e e'
  obtain ⟨hr, hstart⟩ := Scenario.alike_start h
  rw [← build?_eq_ok hb, ← build?_eq_ok hb'] at hr hstart
  obtain rfl : r = r' := hr
  -- both ends are like the play-outs of one runner
  have hend : e.Alike e' :=
    ((Runner.alike_runToEnd hdone).trans (r.alike_playOut hstart)).trans
      (Runner.alike_runToEnd hdone').symm
  exact ⟨hend.roster, hend.switches, hend.variables, hend.inventory, hend.commonEvents,
    hend.cooldowns, hend.memorized, congrArg Mixer.playing hend.mixer,
    congrArg Mixer.history hend.mixer, hend.log⟩

/-- The scenario of one battler, shown: the battler has a sprite, which takes its time, in a front
view. -/
def Scenario.shownSolo : Scenario :=
  { Scenario.solo with
    timings := { motion := 40 }
    settings := { sideView := false }
    party := [{ name := "Ann", mhp := 10, sprite := some ⟨⟨600, 300⟩, 48, 64, true⟩ }] }

/-- A battler in frontal view, with a sprite and slow motions, comes to the same as one without.
-/
theorem Scenario.outcome_ignores_looks_solo :
    ∃ limit limit' b b' r r', solo.build? = .ok (b, r) ∧ shownSolo.build? = .ok (b', r') ∧
      (r.runToEnd .standard limit b).2.2.roster = (r'.runToEnd .standard limit' b').2.2.roster := by
  have hplain : solo.plain = shownSolo.plain := rfl
  have hbuild : shownSolo.build? = .ok ((Runner.start shownSolo.battle shownSolo.context).2,
      (Runner.start shownSolo.battle shownSolo.context).1) := rfl
  obtain ⟨limit, hdone⟩ := Runner.exists_runToEnd_isFinished
    (Runner.ongoing_start (by decide) build?_solo)
  obtain ⟨limit', hdone'⟩ := Runner.exists_runToEnd_isFinished
    (Runner.ongoing_start (by decide) hbuild)
  exact ⟨limit, limit', _, _, _, _, build?_solo, hbuild,
    (outcome_ignores_looks solo shownSolo hplain build?_solo hbuild limit limit' hdone hdone').1⟩

end BattleScript
