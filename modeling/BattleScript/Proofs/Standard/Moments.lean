import BattleScript.Proofs.Collapse.Moments
import BattleScript.Proofs.Runner.Termination
import Mathlib.Data.List.Basic

/-!
# What holds at every moment

Edits are finer than commands: a command that works on several targets is in the midst of it after
some of its edits (`Command.edits_of_mem_way`). So what is kept by every edit and by every frame of
the battle (`Battle.Kept`) holds not only after each command, but at every moment of an action
(`Battle.Kept.momentsOver`), and after any number of frames (`Battle.Kept.afterFrames`).

Actions that are played one after the other also have what happens between them: turns that end, and
steps that the party takes. What these keep as well holds at every moment of all the actions
(`Battle.Kept.moments`).
-/

namespace BattleScript

open Battle (Edit Edits)

/-- What work on single things keeps on its way and at its end, work on one thing after another
keeps on its way. -/
theorem forall_mem_along {α β : Type} {I : Battle → Prop} (battle : β → Battle)
    {way : β → α → List Battle} {work : β → α → β}
    (hway : ∀ acc x, I (battle acc) → ∀ m ∈ way acc x, I m)
    (hwork : ∀ acc x, I (battle acc) → I (battle (work acc x))) {acc : β} (xs : List α)
    (h : I (battle acc)) : ∀ m ∈ along way work acc xs, I m := by
  induction xs generalizing acc with
  | nil => exact List.forall_mem_nil _
  | cons x xs ih =>
    rw [along, List.forall_mem_append]
    exact ⟨hway acc x h, ih (hwork acc x h)⟩

/-! ## In the midst of commands -/

namespace Battle.Edits

variable {α β : Type} (battle : β → Battle) {way : β → α → List Battle} {work : β → α → β}
  {aspects : List Battle.Aspect} {acc : β} {xs : List α} {m : Battle}

/-- In the midst of work on a list there are only edits, if that is so of each piece of it. -/
theorem of_mem_along (hway : ∀ acc x, ∀ m ∈ way acc x, Edits aspects (battle acc) m)
    (hwork : ∀ acc x, Edits aspects (battle acc) (battle (work acc x)))
    (hm : m ∈ along way work acc xs) : Edits aspects (battle acc) m :=
  forall_mem_along (I := Edits aspects (battle acc)) battle
    (fun acc' x h m hm => h.trans (hway acc' x m hm)) (fun acc' x h => h.trans (hwork acc' x))
    xs .refl m hm

theorem of_mem_afterEach (hwork : ∀ acc x, Edits aspects (battle acc) (battle (work acc x)))
    (hm : m ∈ afterEach battle work acc xs) : Edits aspects (battle acc) m := by
  refine of_mem_along battle (fun acc x m hm => ?_) hwork hm
  rw [List.mem_singleton.mp hm]
  exact hwork acc x

end Battle.Edits

namespace ControlOp

variable {c : ActionContext} {b m : Battle}

/-- A battler is switched before it collapses. -/
theorem edits_of_mem_immortalWay {on : Bool} {id : BattlerId} (hm : m ∈ immortalWay on b id) :
    Edits aspects b m := by
  unfold immortalWay at hm
  split at hm
  · cases hm
  · next x hx =>
    rcases List.mem_pair.mp hm with rfl | rfl
    · exact .of_edit (.battler b hx (.single (.setImmortal x on))) (by decide)
    · exact edits_setImmortal on b id

/-- Of the control commands only immortality is seen in its midst. -/
theorem edits_of_mem_way {op : ControlOp} (hm : m ∈ op.way c b) : Edits aspects b m := by
  cases op with
  | immortal target on =>
    exact .of_mem_along id (fun _ _ _ => edits_of_mem_immortalWay) (edits_setImmortal on) hm
  | _ => cases hm

end ControlOp

namespace EffectOp

variable {c : ActionContext} {b m : Battle}

/-- By force it is made mortal, then dead, and then it collapses. -/
theorem edits_of_mem_collapseWay {force : Bool} {id : BattlerId} (hm : m ∈ collapseWay force b id) :
    Edits battlerAspects b m := by
  unfold collapseWay at hm
  split at hm
  · cases hm
  · next x hx =>
    have hmortal : Battler.Steps x (x.setImmortal false) := .single (.setImmortal x false)
    rcases List.mem_append.mp hm with hm | hm
    · cases force with
      | false => cases hm
      | true =>
        rcases List.mem_pair.mp hm with rfl | rfl
        · exact .of_edit (.battler b hx hmortal) (by decide)
        · exact .of_edit (.battler b hx (hmortal.tail (.addState _ _))) (by decide)
    · rw [List.mem_singleton.mp hm]
      exact edits_collapseOne force b id

/-- The effect commands that go through their targets are seen between two of them. -/
theorem edits_of_mem_way {op : EffectOp} (hm : m ∈ op.way c b) : Edits battlerAspects b m := by
  cases op with
  | buff change param target turns report =>
    cases param with
    | none => cases hm
    | some p => exact .of_mem_afterEach Prod.fst (edits_buffOne change p turns report) hm
  | state add states target report =>
    refine .of_mem_along Prod.fst (fun acc id m hm => ?_) (fun acc id => ?_) hm
    · exact .of_mem_afterEach Prod.fst (edits_stateOne add report id) hm
    · exact Edits.foldl Prod.fst (edits_stateOne add report id) acc states
  | pool p amount target report =>
    cases amount with
    | none => cases hm
    | some a => exact .of_mem_afterEach Prod.fst (edits_poolOne p a report) hm
  | collapse target force =>
    exact .of_mem_along id (fun _ _ _ => edits_of_mem_collapseWay) (edits_collapseOne force) hm
  | _ => cases hm

end EffectOp

/-- In the midst of a command there are only edits of the aspects that its family has to do with. -/
theorem Command.edits_of_mem_way {command : Command} {scene : Scene} {m : Battle}
    (hm : m ∈ command.way scene) : Edits command.family.aspects scene.battle m := by
  unfold way at hm
  split at hm
  · next op _ hop =>
    rw [ControlOp.family_eq hop]
    exact ControlOp.edits_of_mem_way hm
  · next op _ hop =>
    rw [EffectOp.family_eq hop]
    exact (EffectOp.edits_of_mem_way hm).mono (by decide)
  · cases hm

/-- Every moment of a command is reached by such edits. -/
theorem Chain.edits_of_mem_moments {line : String} {scene : Scene} {m : Battle}
    (hm : m ∈ (standard.record line scene).moments) :
    Edits (Command.ofLine line).family.aspects scene.battle m := by
  rcases List.mem_append.mp hm with hm | hm
  · exact Command.edits_of_mem_way hm
  · rw [List.mem_singleton.mp hm]
    exact edits_standard _ scene

/-! ## Through an action -/

namespace Battle.Kept

variable {I : Battle → Prop} {b : Battle}

/-- At the start of an action its cooldowns are paid. -/
theorem start (kept : Kept I) (c : ActionContext) (h : I b) : I (Runner.start b c).2 :=
  kept.payCooldowns c.subject c.item h

/-- What edits keep holds at every moment of a stretch of lines. -/
theorem stretch (kept : Kept I) {lines : List String} {scene : Scene} (h : I scene.battle) :
    ∀ m ∈ (Interpreter.stretch .standard lines scene).flatMap Dispatch.moments, I m := by
  -- line by line, as long as the script proceeds
  induction lines generalizing scene with
  | nil => exact List.forall_mem_nil _
  | cons line rest ih =>
    let d := Chain.standard.record line scene
    have hmoments : ∀ m ∈ d.moments, I m :=
      fun m hm => kept.edits (Chain.edits_of_mem_moments hm) h
    have hafter : I d.after.battle := kept.command (.ofLine line) scene h
    rw [Interpreter.stretch]
    by_cases hp : d.signal = .proceed
    · simp only [d, if_pos hp, List.flatMap_cons, List.forall_mem_append]
      exact ⟨hmoments, ih hafter⟩
    · simp only [d, if_neg hp, List.flatMap_cons, List.flatMap_nil, List.append_nil]
      exact hmoments

/-- What edits keep holds at every moment of a frame of the script. -/
theorem played (kept : Kept I) (r : Runner) (h : I b) :
    ∀ m ∈ (r.played .standard b).flatMap Runner.Event.moments, I m := by
  rw [Runner.moments_played, Interpreter.dispatches]
  cases r.interpreter.state with
  | idle | completed | aborted => exact List.forall_mem_nil _
  | running => exact kept.stretch h
  | waiting w =>
    dsimp only
    split
    · exact List.forall_mem_nil _
    · exact kept.stretch h

/-- A pass keeps it, at each of its moments and at its end. -/
theorem pass (kept : Kept I) {es fs : List Runner.Event} {s : Runner × Battle}
    {t : ForInStep (Runner × Battle)}
    (h : (∀ m ∈ es.flatMap Runner.Event.moments, I m) ∧ I s.2)
    (hpass : Runner.pass .standard s = (fs, t)) :
    (∀ m ∈ (es ++ fs).flatMap Runner.Event.moments, I m) ∧ I t.value.2 := by
  refine ⟨?_, Runner.battle_pass kept h.2 hpass⟩
  rw [List.flatMap_append, List.forall_mem_append]
  refine ⟨h.1, ?_⟩
  obtain ⟨r, b⟩ := s
  have hplayed := kept.played r h.2
  obtain ⟨-, rfl, rfl⟩ | ⟨p, -, ⟨-, rfl, rfl⟩ | ⟨next, -, rfl, rfl⟩⟩ := Runner.pass_cases hpass
  · exact List.forall_mem_nil _
  · exact hplayed
  · -- to hand over to the next phase is no moment of its own
    rw [List.flatMap_append, Runner.moments_handover, List.append_nil]
    exact hplayed

/-- What edits keep holds at every moment of an update, with all the phases that it goes through.
-/
theorem update (kept : Kept I) (r : Runner) (h : I b) :
    (∀ m ∈ (r.events .standard b).flatMap Runner.Event.moments, I m) ∧
      I (r.update .standard b).2 := by
  have hstart : (∀ m ∈ ([] : List Runner.Event).flatMap Runner.Event.moments, I m) ∧ I (r, b).2 :=
    ⟨List.forall_mem_nil _, h⟩
  exact (Runner.loop_update .standard r b).keeps
    (I := fun es s => (∀ m ∈ es.flatMap Runner.Event.moments, I m) ∧ I s.2) kept.pass hstart

/-- After any number of frames of an action. -/
theorem afterFrames (kept : Kept I) (n : Nat) {s : Runner × Battle} (h : I s.2) :
    I (Runner.afterFrames .standard n s).2 := by
  induction n generalizing s with
  | zero => exact h
  | succ n ih => exact ih (kept.update s.1 (kept.advance h)).2

/-- At every moment of them. -/
theorem momentsOver (kept : Kept I) (n : Nat) {s : Runner × Battle} (h : I s.2) :
    ∀ m ∈ Runner.momentsOver .standard n s, I m := by
  induction n generalizing s with
  | zero => exact List.forall_mem_nil _
  | succ n ih =>
    have hadvance : I s.2.advance := kept.advance h
    obtain ⟨hevents, hframe⟩ := kept.update s.1 hadvance
    simp only [Runner.momentsOver, List.forall_mem_cons, List.forall_mem_append]
    exact ⟨⟨hadvance, hevents⟩, hframe, ih hframe⟩

/-! ## Through a number of actions -/

variable (turn : ∀ b id, I b → I (b.endTurnOf id)) (step : ∀ b, I b → I b.takeStep)

include turn step

/-- What the end of an action does is kept as well. -/
theorem conclude (kept : Kept I) (a : Aftermath) (h : I b) : I (b.conclude a) := by
  have hturn : I (if a.endTurn then b.endTurn else b) := by
    split
    · exact List.foldlRecOn _ _ h fun b hb id _ => turn b id hb
    · exact h
  have hfinish (b : Battle) (h : I b) : I (if a.endBattle then b.finish else b) := by
    split
    · exact kept.edit (.cooldowns b _) h
    · exact h
  show I (Nat.repeat Battle.takeStep a.steps _)
  -- the steps that the party takes afterwards, one by one
  induction a.steps with
  | zero => exact hfinish _ hturn
  | succ n ih => exact step _ ih

/-- What is kept holds after an action and what comes after it. -/
theorem play (kept : Kept I) (p : Play) (h : I b) : I (p.battle b) :=
  kept.conclude turn step p.aftermath (kept.afterFrames p.frames (kept.start p.context h))

/-- What is kept holds at every moment of an action and of what comes after it. -/
theorem way (kept : Kept I) (p : Play) (h : I b) : ∀ m ∈ p.way b, I m := by
  have hstart : I (Runner.start b p.context).2 := kept.start p.context h
  have hend := kept.afterFrames p.frames hstart
  have hafter := kept.conclude turn step p.aftermath hend
  simp only [Play.way, concludeWay, List.cons_append, List.forall_mem_cons, List.forall_mem_append]
  refine ⟨hstart, kept.momentsOver p.frames hstart, ?_, hafter, List.forall_mem_nil _⟩
  split
  · -- the turn ends for one battler after the other
    refine forall_mem_along id (fun b id hb => ?_) turn _ hend
    exact List.forall_mem_singleton.mpr (turn b id hb)
  · exact List.forall_mem_nil _

/-- At every moment of any number of actions. -/
theorem moments (kept : Kept I) (plays : List Play) (h : I b) : ∀ m ∈ b.moments plays, I m := by
  rw [Battle.moments, List.forall_mem_cons]
  exact ⟨h, forall_mem_along id (fun _ p hb => kept.way turn step p hb)
    (fun _ p hb => kept.play turn step p hb) plays h⟩

end Battle.Kept

end BattleScript
