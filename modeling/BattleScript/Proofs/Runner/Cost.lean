import BattleScript.Proofs.Runner.Termination

/-!
# What an action costs

The frames that an action takes can be told from the signals of its commands. A command that lets
the script proceed or aborts it costs nothing, one that yields costs a frame, and a wait costs the
frames until it clears (`Wait.cost`), which are known when it begins: nothing is dispatched while it
holds, so that its countdown runs undisturbed. Besides, the first command waits for the first frame.

The proof keeps an account. What is `due` are the frames until the script goes on. A stretch of
commands leaves due what they cost together (`Interpreter.due_runLines`), since all but the last of
them cost nothing. A frame pays one and adds what is dispatched in it (`Runner.due_frame`), also
when it hands over to another phase: that phase begins in the same frame, so a handover is free. In
the end nothing is due, and what was paid are the frames (`Runner.frames_eq_one_add_cost`).
-/

namespace BattleScript

/-! ## The cost of a signal -/

/-- The frames that a wait takes if it begins on a battle. A count of frames is polled once more
when it is used up; everything else is polled after the battle's frame, and at least once. -/
def Wait.cost (b : Battle) : Wait → Nat
  | .frames n => n + 1
  | w => max (w.countdown b) 1

/-- The frames until a script goes on after a signal. -/
def Signal.cost (b : Battle) : Signal → Nat
  | .proceed | .abort => 0
  | .yield => 1
  | .wait w => w.cost b

/-- The cost of a command, on the battle that it leaves behind. -/
def Dispatch.cost (d : Dispatch) : Nat := d.signal.cost d.after.battle

/-- The cost of several commands. -/
def totalCost (ds : List Dispatch) : Nat := ds.foldr (·.cost + ·) 0

@[simp] theorem totalCost_cons (d : Dispatch) (ds : List Dispatch) :
    totalCost (d :: ds) = d.cost + totalCost ds := rfl

@[simp] theorem totalCost_append (ds es : List Dispatch) :
    totalCost (ds ++ es) = totalCost ds + totalCost es := by
  induction ds with
  | nil => exact (Nat.zero_add _).symm
  | cons d ds ih => rw [List.cons_append, totalCost_cons, totalCost_cons, ih, Nat.add_assoc]

namespace Wait

variable {b : Battle} {w : Wait}

/-- A wait for something costs what that needs, and one frame at least. -/
theorem cost_of_ne_frames (hw : ∀ n, w ≠ .frames n) : w.cost b = max (w.countdown b) 1 := by
  cases w with
  | frames n => exact absurd rfl (hw n)
  | _ => rfl

/-- A wait that clears in the next frame costs this one frame. -/
theorem cost_eq_one (hb : b.stage.FadesRun) (hw : ¬ w.holds b.advance) : w.cost b = 1 := by
  rw [holds_eq, decide_eq_true_iff] at hw
  by_cases hn : ∃ n, w = .frames n
  · obtain ⟨n, rfl⟩ := hn
    exact congrArg Nat.succ (Nat.eq_zero_of_not_pos hw)
  · have hframes : ∀ n, w ≠ .frames n := fun n h => hn ⟨n, h⟩
    rw [countdown_advance hb hframes] at hw
    rw [cost_of_ne_frames hframes]
    omega

/-- A wait that holds in the next frame costs one frame more than what is left of it then. -/
theorem cost_tick (hb : b.stage.FadesRun) (hw : w.holds b.advance) :
    w.tick.cost b.advance + 1 = w.cost b := by
  rw [holds_eq, decide_eq_true_iff] at hw
  -- a count of frames is its own countdown, any other wait leaves the counting to the stage
  by_cases hn : ∃ n, w = .frames n
  · obtain ⟨n, rfl⟩ := hn
    exact congrArg Nat.succ (Nat.sub_add_cancel hw)
  · have hframes : ∀ n, w ≠ .frames n := fun n h => hn ⟨n, h⟩
    rw [countdown_advance hb hframes] at hw
    rw [tick_of_ne_frames hframes, cost_of_ne_frames hframes, cost_of_ne_frames hframes,
      countdown_advance hb hframes]
    omega

end Wait

/-! ## What an interpreter owes -/

/-- The frames until a script in this state goes on; a script that has ended owes none. -/
def InterpreterState.due (b : Battle) : InterpreterState → Nat
  | .idle | .completed | .aborted => 0
  | .running => 1
  | .waiting w => w.cost b

/-- What ends a stretch leaves due what it costs. -/
theorem Signal.due_state {s : Signal} (h : s ≠ .proceed) (b : Battle) :
    s.state.due b = s.cost b := by
  cases s with
  | proceed => exact absurd rfl h
  | _ => rfl

namespace Interpreter

variable {i : Interpreter} {b : Battle}

/-- A stretch leaves due what its commands cost. -/
theorem due_runLines (chain : Chain) (lines : List String) (scene : Scene) :
    (runLines chain lines scene).state.due (runLines chain lines scene).scene.battle =
      totalCost (stretch chain lines scene) := by
  induction lines generalizing scene with
  | nil => rfl
  | cons line rest ih =>
    rw [runLines_cons, stretch]
    by_cases h : (chain.record line scene).signal = .proceed
    · have hfree : (chain.record line scene).cost = 0 := by
        rw [Dispatch.cost, h]
        rfl
      simp only [if_pos h, ih, totalCost_cons, hfree, Nat.zero_add]
    · -- the line is the last of the stretch
      simp only [if_neg h, Signal.due_state h]
      rfl

/-- A frame of the battle and then of a script that is under way pays one, and adds what the
commands of that frame cost. -/
theorem due_update (chain : Chain) (c : ActionContext) (hb : b.stage.FadesRun)
    (hi : ¬ i.isFinished) :
    (i.update chain ⟨b.advance, c⟩).1.state.due (i.update chain ⟨b.advance, c⟩).2.battle + 1 =
      i.state.due b + totalCost (i.dispatches chain ⟨b.advance, c⟩) := by
  have hresume := due_runLines chain (i.script.drop i.cursor) ⟨b.advance, c⟩
  -- a running script pays its frame, a wait that holds pays one of its frames
  unfold update dispatches
  cases hs : i.state with
  | running =>
    rw [Nat.add_comm]
    exact congrArg (1 + ·) hresume
  | waiting w =>
    by_cases hw : w.holds b.advance
    · simp only [Wait.poll, if_pos hw]
      exact Wait.cost_tick hb hw
    · simp only [Wait.poll, if_neg hw, InterpreterState.due, Wait.cost_eq_one hb hw]
      rw [Nat.add_comm]
      exact congrArg (1 + ·) hresume
  | _ => exact absurd (by simp [isFinished, hs]) hi

end Interpreter

/-! ## What an action owes -/

namespace Runner

/-- The command that was dispatched, if one was. -/
def Event.dispatch? : Event → Option Dispatch
  | .dispatched d => some d
  | .aborted _ | .entered _ _ => none

/-- The commands that were dispatched, in their order. -/
def dispatches (es : List Event) : List Dispatch := es.filterMap Event.dispatch?

variable {chain : Chain} {r next : Runner} {p : Phase} {b : Battle}

@[simp] theorem dispatches_append (es fs : List Event) :
    dispatches (es ++ fs) = dispatches es ++ dispatches fs :=
  List.filterMap_append

/-- What a frame of the script records are its commands. -/
@[simp] theorem dispatches_played (chain : Chain) (r : Runner) (b : Battle) :
    dispatches (r.played chain b) = r.interpreter.dispatches chain ⟨b, r.context⟩ := by
  rw [dispatches, played, List.filterMap_map]
  exact List.filterMap_some

/-- Nothing is dispatched in a handover. -/
@[simp] theorem dispatches_handover (p : Phase) (state : InterpreterState) (next : Runner) :
    dispatches (handover p state next) = [] := by
  unfold handover entry
  cases next.phase <;> split <;> rfl

/-- The frames until the script of the phase goes on; none if the action has finished. -/
def due (r : Runner) (b : Battle) : Nat :=
  match r.phase with
  | none => 0
  | some _ => r.interpreter.state.due b

/-- A finished action owes nothing. -/
theorem due_of_isFinished (h : r.isFinished) (b : Battle) : r.due b = 0 := by
  have hp : r.phase = none := Option.isNone_iff_eq_none.mp h
  rw [due, hp]

/-- A script that hands over owes nothing. -/
theorem due_of_afterScript {state : InterpreterState} (h : r.afterScript p state = some next)
    (b : Battle) : state.due b = 0 := by
  obtain ⟨rfl, -⟩ | ⟨rfl, -⟩ := afterScript_eq_some_iff.mp h <;> rfl

/-- What an update leaves due is what its first script leaves due and what the commands of the
phases after it cost, if that is what those leave due. -/
theorem due_update_add (chain : Chain) (b : Battle) (hp : r.phase = some p)
    (rest : ∀ next, (r.playFrame chain b).1.afterScript p
        (r.playFrame chain b).1.interpreter.state = some next →
      (next.update chain (next.settle (r.playFrame chain b).2)).1.due
          (next.update chain (next.settle (r.playFrame chain b).2)).2 =
        totalCost (dispatches (next.events chain (next.settle (r.playFrame chain b).2)))) :
    (r.update chain b).1.due (r.update chain b).2 +
        totalCost (r.interpreter.dispatches chain ⟨b, r.context⟩) =
      (r.playFrame chain b).1.interpreter.state.due (r.playFrame chain b).2 +
        totalCost (dispatches (r.events chain b)) := by
  rw [update_eq, events_eq]
  simp only [hp]
  -- with a handover the frame's own script leaves nothing due
  cases ha : (r.playFrame chain b).1.afterScript p (r.playFrame chain b).1.interpreter.state with
  | none =>
    have hphase : (r.playFrame chain b).1.phase = some p := hp
    simp only [due, hphase, dispatches_played]
  | some next =>
    simp only [rest next ha, due_of_afterScript ha, dispatches_append, dispatches_played,
      dispatches_handover, List.nil_append, totalCost_append]
    omega

/-- The first frame of a script leaves due what its commands cost. -/
theorem due_playFrame (chain : Chain) (b : Battle) (h : r.interpreter.state = .running) :
    (r.playFrame chain b).1.interpreter.state.due (r.playFrame chain b).2 =
      totalCost (r.interpreter.dispatches chain ⟨b, r.context⟩) := by
  rw [playFrame_eq, Interpreter.update, Interpreter.dispatches, h]
  exact Interpreter.due_runLines ..

/-- An update that begins a phase leaves due what its commands cost. -/
theorem due_update (chain : Chain) (r : Runner) (b : Battle)
    (h : r.phase.isSome → r.interpreter.state = .running) :
    (r.update chain b).1.due (r.update chain b).2 = totalCost (dispatches (r.events chain b)) := by
  induction r, b using update_induction chain with
  | finished r b hp =>
    rw [update_eq, events_eq]
    simp only [hp]
    exact due_of_isFinished (by simp [isFinished, hp]) b
  | later r b p hp ha =>
    have hadd := due_update_add chain b hp (by simp [ha])
    have hfirst := due_playFrame chain b (h (by simp [hp]))
    omega
  | handover r b p next hp ha ih =>
    have hrest := ih (running_afterScript ha)
    have hadd := due_update_add chain b hp (by simpa [ha] using hrest)
    have hfirst := due_playFrame chain b (h (by simp [hp]))
    omega

/-- A frame of an action that has not finished pays one, and adds what the commands of that frame
cost. -/
theorem due_frame (chain : Chain) (hb : b.stage.FadesRun) (hrun : r.UnderWay)
    (hr : ¬ r.isFinished) :
    (r.frame chain b).1.due (r.frame chain b).2 + 1 =
      r.due b + totalCost (dispatches (r.events chain b.advance)) := by
  obtain ⟨p, hp⟩ := exists_phase hr
  have hadd := due_update_add chain b.advance hp fun next ha =>
    due_update chain next _ (running_afterScript ha)
  have hscript := Interpreter.due_update chain r.context hb (hrun (by simp [hp]))
  have hdue : r.due b = r.interpreter.state.due b := by rw [due, hp]
  rw [playFrame_eq] at hadd
  rw [frame, hdue]
  dsimp only at hadd
  omega

/-! ## The account over the frames -/

/-- What the account needs: the script of the phase being played is under way, and every fade that a
script may wait for runs. -/
structure Paced (s : Runner × Battle) : Prop where
  underWay : s.1.UnderWay
  fadesRun : s.2.stage.FadesRun

/-- The account can be kept over any number of frames. -/
theorem Paced.afterFrames {s : Runner × Battle} (h : Paced s) (n : Nat) :
    Paced (afterFrames .standard n s) := by
  refine keeps_afterFrames (fun h => ⟨h.underWay, h.fadesRun.advance⟩) ?_ n h
  intro _ _ _ h hpass
  exact ⟨h.underWay.pass hpass, battle_pass Battle.fadesRun_kept h.fadesRun hpass⟩

/-- An action begins so. -/
theorem paced_start {s : Scenario} (hb : s.build? = .ok (b, r)) : Paced (r, b) := by
  rw [Scenario.build?_eq_ok hb]
  have hstart : s.battle.stage.FadesRun := s.every_stage Sprite.fadeRuns_atHome
  exact ⟨nofun, Battle.fadesRun_kept.payCooldowns _ _ hstart⟩

/-- What is due and the frames that were paid are what was due and the cost of what was dispatched.
-/
theorem due_afterFrames {s : Runner × Battle} (h : Paced s) {n : Nat}
    (hn : ∀ m < n, ¬ (Runner.afterFrames .standard m s).1.isFinished) :
    (Runner.afterFrames .standard n s).1.due (Runner.afterFrames .standard n s).2 + n =
      s.1.due s.2 + totalCost (dispatches (eventsOver .standard n s)) := by
  -- frame by frame from the front, what is due being carried over
  induction n generalizing s with
  | zero => rfl
  | succ n ih =>
    have hframe := due_frame .standard h.fadesRun h.underWay (hn 0 (Nat.succ_pos n))
    have hrest := ih (h.afterFrames 1) fun m hm => hn (m + 1) (Nat.succ_lt_succ hm)
    rw [eventsOver, dispatches_append, totalCost_append]
    simp only [Runner.afterFrames] at hrest ⊢
    omega

/-- **Every frame is accounted for.** If the action of a scenario is played until it has finished,
then the number of frames is one more than the cost of all commands that were dispatched in them. -/
theorem frames_eq_one_add_cost {s : Scenario} {b' : Battle} {r' : Runner} {limit frames : Nat}
    (hb : s.build? = .ok (b, r)) (hrun : r.runToEnd .standard limit b = (frames, r', b'))
    (hdone : r'.isFinished) :
    frames = 1 + totalCost (dispatches (eventsOver .standard frames (r, b))) := by
  obtain ⟨n, hn, hbefore⟩ := exists_runFrom_eq .standard limit 0 (r, b)
  obtain ⟨hframes, hend⟩ := Prod.mk.inj (hrun.symm.trans hn)
  obtain rfl : frames = n := hframes.trans (Nat.zero_add n)
  have haccount := due_afterFrames (paced_start hb) hbefore
  -- at the start the first script is loaded, at the end nothing is due
  have hstart : r.due b = 1 := by
    rw [show r = (Runner.start s.battle s.context).1 from
      congrArg Prod.fst (Scenario.build?_eq_ok hb)]
    rfl
  have hpaid : (Runner.afterFrames .standard frames (r, b)).1.due
      (Runner.afterFrames .standard frames (r, b)).2 = 0 :=
    due_of_isFinished (by rw [← hend]; exact hdone) _
  rw [hpaid, hstart, Nat.zero_add] at haccount
  exact haccount

/-- The action of a battler on itself costs its frames. -/
theorem frames_eq_one_add_cost_solo :
    ∃ limit b r, Scenario.solo.build? = .ok (b, r) ∧
      (r.runToEnd .standard limit b).2.1.isFinished ∧
      (r.runToEnd .standard limit b).1 = 1 + totalCost
        (dispatches (eventsOver .standard (r.runToEnd .standard limit b).1 (r, b))) := by
  obtain ⟨limit, hdone⟩ := exists_runToEnd_isFinished
    (ongoing_start (by decide) Scenario.build?_solo)
  exact ⟨limit, _, _, Scenario.build?_solo, hdone,
    frames_eq_one_add_cost Scenario.build?_solo rfl hdone⟩

end Runner

end BattleScript
