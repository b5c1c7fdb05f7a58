import BattleScript.Proofs.Collapse.Commands

/-!
# One collapse per death

The moments of any number of actions form a path: commands lead along their ways, the interpreter
and the runner only put them one after the other, and frames and aftermaths ask for no collapse.
Along a path a battler that has collapsed stays dead and marked until it comes back to life, and
what is marked does not collapse. So between two collapses of a battler it was alive
(`Battle.one_collapse_per_death`).

It may have been alive only in the midst of a command: to collapse by force, a battler that was dead
with some HP left first comes back to life, when it becomes mortal, and then dies again.
-/

namespace BattleScript

open Battle (Calm Passes Path)

variable {id : BattlerId}

/-! ## Actions -/

namespace Interpreter

/-- Commands that are dispatched one after the other lead along their moments. -/
theorem path_stretch (lines : List String) (scene : Scene) :
    Path id scene.battle ((stretch .standard lines scene).flatMap Dispatch.moments)
      (runLines .standard lines scene).scene.battle := by
  induction lines generalizing scene with
  | nil => exact .arrived (.refl _)
  | cons line rest ih =>
    let d := Chain.standard.record line scene
    have hway : Path id scene.battle (d.command.way scene) d.after.battle :=
      Chain.path_standard (.ofLine line) scene
    have hmoments : Path id scene.battle d.moments d.after.battle :=
      hway.trans (.single (.of_calm (.refl _)))
    rw [runLines_cons, stretch]
    -- the next line follows in the same frame, or this one was the last
    by_cases hp : d.signal = .proceed
    · simp only [d, if_pos hp, List.flatMap_cons]
      exact hmoments.trans (ih d.after)
    · simp only [d, if_neg hp, List.flatMap_cons, List.flatMap_nil, List.append_nil]
      exact hmoments

/-- A frame of the interpreter leads along the commands dispatched in it, if it dispatches any. -/
theorem path_update (i : Interpreter) (scene : Scene) :
    Path id scene.battle ((i.dispatches .standard scene).flatMap Dispatch.moments)
      (i.update .standard scene).2.battle := by
  unfold dispatches update
  cases i.state with
  | idle | completed | aborted => exact .arrived (.refl _)
  | running => exact path_stretch _ scene
  | waiting w =>
    by_cases hw : w.holds scene.battle
    · simp only [Wait.poll, if_pos hw]
      exact .arrived (.refl _)
    · simp only [Wait.poll, if_neg hw]
      exact path_stretch _ scene

end Interpreter

namespace Runner

/-- A pass leads along its events. -/
theorem path_pass {b : Battle} {es fs : List Event} {s : Runner × Battle}
    {next : ForInStep (Runner × Battle)} (h : Path id b (es.flatMap Event.moments) s.2)
    (hpass : pass .standard s = (fs, next)) :
    Path id b ((es ++ fs).flatMap Event.moments) next.value.2 := by
  rw [List.flatMap_append]
  refine h.trans ?_
  obtain ⟨r, c⟩ := s
  have hplayed : Path id c ((r.played .standard c).flatMap Event.moments)
      (r.playFrame .standard c).2 := by
    rw [moments_played]
    exact r.interpreter.path_update ⟨c, r.context⟩
  obtain ⟨-, rfl, rfl⟩ | ⟨p, -, ⟨-, rfl, rfl⟩ | ⟨after, -, rfl, rfl⟩⟩ := pass_cases hpass
  · exact .arrived (.refl c)
  · exact hplayed
  · -- a handover has no moment of its own: only the camera may be brought back
    rw [List.flatMap_append, moments_handover, List.append_nil]
    have hsettle : Calm id (r.playFrame .standard c).2
        (after.settle (r.playFrame .standard c).2) := by
      unfold settle
      split <;> exact ⟨rfl, rfl⟩
    exact hplayed.calm_right hsettle

/-- An update of the runner leads along what happens in it. -/
theorem path_update (r : Runner) (b : Battle) :
    Path id b ((r.events .standard b).flatMap Event.moments) (r.update .standard b).2 := by
  have hstart : Path id b (([] : List Event).flatMap Event.moments) (r, b).2 := .arrived (.refl b)
  exact (loop_update .standard r b).keeps
    (I := fun es s => Path id b (es.flatMap Event.moments) s.2) path_pass hstart

/-- Frames lead along their moments, those of the battle itself among them. -/
theorem path_afterFrames (n : Nat) (s : Runner × Battle) :
    Path id s.2 (momentsOver .standard n s) (afterFrames .standard n s).2 := by
  induction n generalizing s with
  | zero => exact .arrived (.refl s.2)
  | succ n ih =>
    have hadvance : Calm id s.2 s.2.advance := ⟨rfl, rfl⟩
    have hframe : Path id s.2.advance ((s.1.events .standard s.2.advance).flatMap Event.moments)
        (s.1.frame .standard s.2).2 := s.1.path_update s.2.advance
    have hend : Path id (s.1.frame .standard s.2).2
        ((s.1.frame .standard s.2).2 :: momentsOver .standard n (s.1.frame .standard s.2))
        (afterFrames .standard n (s.1.frame .standard s.2)).2 :=
      .pass (.of_calm (.refl _)) (ih _)
    exact .pass (.of_calm hadvance) (hframe.trans hend)

end Runner

namespace Battle

variable {b b' : Battle}

/-- The end of a turn counts the buffs of one battler down after the other. -/
theorem passes_endTurnOf (b : Battle) (j : BattlerId) : Passes id b (b.endTurnOf j) := by
  refine .quiet rfl fun x hx => ?_
  rw [endTurnOf, Roster.get?_modify, hx]
  split
  · exact ⟨_, rfl, x.keepsMark_updateBuffTurns⟩
  · exact ⟨x, rfl, .refl x⟩

/-- Steps are counted and shorten cooldowns, and that is all. -/
theorem Calm.takeSteps (b : Battle) (count : Nat) : Calm id b (b.takeSteps count) := by
  unfold Battle.takeSteps
  induction count with
  | zero => exact .refl b
  | succ n ih =>
    have hstep : Calm id (n.repeat takeStep b) (takeStep (n.repeat takeStep b)) := ⟨rfl, rfl⟩
    exact ih.trans hstep

/-- An aftermath leads along the ends of turns, and the rest of it touches no battler. -/
theorem path_conclude (b : Battle) (a : Aftermath) :
    Path id b (b.concludeWay a) (b.conclude a) := by
  have hturn : Path id b (if a.endTurn then afterEach (fun b => b) endTurnOf b b.roster.all else [])
      (if a.endTurn then b.endTurn else b) := by
    split
    · exact .afterEach passes_endTurnOf b b.roster.all
    · exact .arrived (.refl b)
  have hrest (b : Battle) :
      Calm id b ((if a.endBattle then b.finish else b).takeSteps a.steps) := by
    have hfinish : Calm id b (if a.endBattle then b.finish else b) := by
      split <;> exact ⟨rfl, rfl⟩
    exact hfinish.trans (.takeSteps _ _)
  exact (hturn.calm_right (hrest _)).trans (.single (.of_calm (.refl _)))

/-- An action leads from its start through its frames into its aftermath. -/
theorem path_play (b : Battle) (p : Play) : Path id b (p.way b) (p.battle b) := by
  have hpay : Calm id b (Runner.start b p.context).2 := .payCooldowns b _ _
  exact .pass (.of_calm hpay)
    ((Runner.path_afterFrames p.frames (Runner.start b p.context)).trans
      (path_conclude _ p.aftermath))

theorem path_plays (b : Battle) (plays : List Play) :
    Path id b (along (fun b p => p.way b) (fun b p => p.battle b) b plays) (b.afterPlays plays) :=
  .along path_play b plays

/-! ## Collapses along a path -/

/-- The collapse of a battler is asked for from one moment to the next. -/
abbrev Asks (id : BattlerId) (b b' : Battle) : Prop := b.collapses id < b'.collapses id

/-- The collapse is only asked for while the battler is dead. -/
theorem Passes.dead_of_asks (h : Passes id b b') (asks : Asks id b b') :
    ∃ x, b.roster.get? id = some x ∧ x.isDead ∧ x.collapsed = false ∧
      b'.roster.get? id = some { x with collapsed := true } := by
  cases h with
  | quiet asked => omega
  | collapse _ hx dead standing marked => exact ⟨_, hx, dead, standing, marked⟩

/-- A battler that is dead and marked. -/
def Fallen (id : BattlerId) (b : Battle) : Prop :=
  ∃ x, b.roster.get? id = some x ∧ x.isDead ∧ x.collapsed

/-- The fallen stay so until they come back to life. -/
theorem Passes.fallen_or_alive (h : Passes id b b') (fallen : Fallen id b) :
    Fallen id b' ∨ b'.roster.isAlive id := by
  obtain ⟨x, hx, dead, marked⟩ := fallen
  cases h with
  | quiet _ lives =>
    obtain ⟨y, hy, keeps⟩ := lives x hx
    by_cases hdead : y.isDead
    · exact .inl ⟨y, hy, hdead, (keeps hdead).trans marked⟩
    · refine .inr ?_
      simp [Roster.isAlive, hy, Battler.isAlive, hdead]
  | collapse _ hz _ standing =>
    cases hx.symm.trans hz
    -- whoever collapses bore no mark, and this battler does
    rw [marked] at standing
    cases standing

/-- Along a chain that nobody comes back to life in, the fallen stay so. -/
theorem fallen_of_chain {ms : List Battle} (chain : ms.IsChain (Passes id)) {i : Nat}
    (hi : i < ms.length) (fallen : Fallen id ms[i]) {j : Nat} (hij : i ≤ j) (hj : j < ms.length)
    (dead : ∀ k (hk : k < ms.length), i < k → k ≤ j → ¬ ms[k].roster.isAlive id) :
    Fallen id ms[j] := by
  -- one moment after the other
  induction j, hij using Nat.le_induction with
  | base => exact fallen
  | succ j hij ih =>
    have hfallen := ih (by omega) fun k hk hik hkj => dead k hk hik (by omega)
    rcases (chain.getElem j hj).fallen_or_alive hfallen with h | alive
    · exact h
    · exact absurd alive (dead (j + 1) hj (by omega) le_rfl)

/-- Between two collapses of a chain the battler comes back to life. -/
theorem exists_alive_of_chain {ms : List Battle} (chain : ms.IsChain (Passes id)) {i j : Nat}
    (hij : i < j) (hj : j + 1 < ms.length) (first : Asks id ms[i] ms[i + 1])
    (second : Asks id ms[j] ms[j + 1]) :
    ∃ k, ∃ hk : k < ms.length, i < k ∧ k ≤ j ∧ ms[k].roster.isAlive id := by
  by_contra hnone
  have dead (k : Nat) (hk : k < ms.length) (hik : i + 1 < k) (hkj : k ≤ j) :
      ¬ ms[k].roster.isAlive id :=
    fun alive => hnone ⟨k, hk, by omega, hkj, alive⟩
  -- the first collapse leaves its mark, and only a battler without one can collapse
  obtain ⟨x, -, hdead, -, hmarked⟩ := (chain.getElem i (by omega)).dead_of_asks first
  have hfallen : Fallen id ms[j] :=
    fallen_of_chain chain (by omega) ⟨_, hmarked, hdead, rfl⟩ hij (by omega) dead
  obtain ⟨y, hy, -, hstanding, -⟩ := (chain.getElem j hj).dead_of_asks second
  obtain ⟨z, hz, -, hmark⟩ := hfallen
  cases hy.symm.trans hz
  rw [hstanding] at hmark
  cases hmark

/-- The last moment of an action is what it makes of the battle. -/
theorem getLast?_way (p : Play) (b : Battle) : (p.way b).getLast? = some (p.battle b) := by
  simp [Play.way, Play.battle, concludeWay, List.getLast?_cons]

/-- The last moment of a number of actions is what they make of the battle. -/
theorem getLast?_moments (b : Battle) (plays : List Play) :
    (b.moments plays).getLast? = some (b.afterPlays plays) := by
  induction plays generalizing b with
  | nil => rfl
  | cons p plays ih =>
    have hway := getLast?_way p b
    have hrest := ih (p.battle b)
    have hplays : b.afterPlays (p :: plays) = (p.battle b).afterPlays plays := rfl
    rw [hplays]
    simp only [moments, along, List.getLast?_cons, List.getLast?_append] at hrest ⊢
    generalize (along (fun b p => p.way b) (fun b p => p.battle b) (p.battle b) plays).getLast? =
      last at hrest
    -- the actions after the first may have no moments at all
    cases last with
    | none => simpa [hway] using hrest
    | some last => simpa [hway] using hrest

/-- **One collapse per death.** Along any actions, from one moment to the next the collapse of a
battler is asked for at most once, and only while it is dead; and between any two such moments there
is one at which it is alive. -/
theorem one_collapse_per_death (b : Battle) (plays : List Play) (id : BattlerId) :
    let ms := b.moments plays
    ms.head? = some b ∧ ms.getLast? = some (b.afterPlays plays) ∧
    (∀ i (h : i + 1 < ms.length),
      (ms[i + 1].collapses id = ms[i].collapses id ∨
        ms[i + 1].collapses id = ms[i].collapses id + 1) ∧
      (Asks id ms[i] ms[i + 1] →
        (∃ x, ms[i].roster.get? id = some x ∧ x.isDead) ∧
        (∃ x, ms[i + 1].roster.get? id = some x ∧ x.isDead))) ∧
    (∀ i j (_ : i < j) (_ : j + 1 < ms.length), Asks id ms[i] ms[i + 1] →
      Asks id ms[j] ms[j + 1] →
      ∃ k, ∃ _ : k < ms.length, i < k ∧ k ≤ j ∧ ms[k].roster.isAlive id) := by
  intro ms
  have chain : ms.IsChain (Passes id) := (path_plays b plays).isChain
  refine ⟨rfl, getLast?_moments b plays, fun i h => ⟨?_, fun asks => ?_⟩, fun i j hij hj => ?_⟩
  · cases chain.getElem i h with
    | quiet asked => exact .inl asked
    | collapse asked => exact .inr asked
  · obtain ⟨x, hx, dead, -, hx'⟩ := (chain.getElem i h).dead_of_asks asks
    exact ⟨⟨x, hx, dead⟩, ⟨_, hx', dead⟩⟩
  · exact exists_alive_of_chain chain hij hj

end Battle

end BattleScript
