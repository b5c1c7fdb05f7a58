import BattleScript.Proofs.Battler.Start
import BattleScript.Proofs.Standard.Family

/-!
# What is told of states

A command that adds or removes states comes to its targets one after the other, and at each of
them to one state after the other. These visits are independent of each other but for the battle
that one leaves to the next (`EffectOp.afterVisits`), and each of them tells one result at most
(`EffectOp.Visit`).

A state that is no longer there was there just before, and only then this is told. That a state
was added is told at every visit to a battler. It is true unless the battler refuses the state
(`Battler.Refuses`): if it is dead, perhaps by an earlier state of the same list, or if it is
immortal and the state means death.
-/

namespace BattleScript

namespace Battler

variable {x : Battler} {s : Nat}

/-- The battler does not have the state and will not get it: it is immortal, if the state means
death, and dead otherwise. -/
def Refuses (x : Battler) (s : Nat) : Prop :=
  s ∉ x.states ∧ if s = x.deathState then x.immortal else x.isDead

instance (x : Battler) (s : Nat) : Decidable (x.Refuses s) := by unfold Refuses; infer_instance

/-- A state is there after it was added, unless it was refused. -/
theorem mem_addState_iff : s ∈ (x.addState s).2.states ↔ ¬ x.Refuses s := by
  unfold addState Refuses
  -- it is there already, or it means death, or it is one that the dead do not get
  by_cases hmem : s ∈ x.states
  · rw [if_pos (hasState_iff.mpr hmem)]
    exact iff_of_true hmem fun h => h.1 hmem
  · rw [if_neg (mt hasState_iff.mp hmem)]
    by_cases hdeath : s = x.deathState
    · rw [if_pos hdeath, if_pos hdeath]
      cases x.immortal <;> simp [hmem]
    · rw [if_neg hdeath, if_neg hdeath]
      cases x.isDead <;> simp [hmem]

/-- A state is gone after it was removed, and if there was none to remove. -/
theorem not_mem_removeState : s ∉ (x.removeState s).2.states := by
  unfold removeState
  split
  · dsimp only
    split <;> simp [dropState]
  · next h => exact mt hasState_iff.mpr h

end Battler

/-- There is a battler at the place, and it has the state. -/
def Battle.Holds (b : Battle) (id : BattlerId) (s : Nat) : Prop :=
  ∃ x, b.roster.get? id = some x ∧ s ∈ x.states

instance (b : Battle) (id : BattlerId) (s : Nat) : Decidable (b.Holds id s) :=
  decidable_of_iff ((b.roster.get? id).any (s ∈ ·.states)) (by
    simp [Battle.Holds, Option.any_eq_true])

namespace Battle

variable {b : Battle} {id : BattlerId} {s : Nat} {x : Battler}

/-- Whom to ask is whoever is there. -/
theorem holds_iff (hx : b.roster.get? id = some x) : b.Holds id s ↔ s ∈ x.states := by
  rw [Holds, hx]
  simp

/-- After a change of the battler it is the changed one. -/
theorem holds_withBattler_iff (hx : b.roster.get? id = some x) (y : Battler) :
    (b.withBattler id y).Holds id s ↔ s ∈ y.states := by
  refine holds_iff ?_
  rw [withBattler, Roster.get?_modify, if_pos rfl, hx, Option.map_some]

end Battle

namespace EffectOp

/-- The battle after visits to battlers, each for one state. -/
def afterVisits (add : Bool) (b : Battle) (visits : List (BattlerId × Nat)) : Battle :=
  visits.foldl (fun b v => (stateOne add true v.1 (b, false) v.2).1) b

/-- What becomes of the battle `b` by a visit to a place for a state that is added or removed. The
battle in which a result is told is the one with the battler as the visit leaves it. -/
inductive Visit (id : BattlerId) (s : Nat) (b : Battle) : (add : Bool) → Battle → Prop
  | nobody (add : Bool) (empty : b.roster.get? id = none) : Visit id s b add b
  | added {x : Battler} (y : Battler) (found : b.roster.get? id = some x)
      (holds : (b.withBattler id y).Holds id s ↔ ¬ x.Refuses s) :
      Visit id s b true
        ((b.withBattler id y).showResult id (x.name ++ " is affected by state " ++ toString s))
  | removed {x : Battler} (y : Battler) (found : b.roster.get? id = some x) (held : b.Holds id s)
      (gone : ¬ (b.withBattler id y).Holds id s) :
      Visit id s b false ((b.withBattler id y).showResult id
        (x.name ++ " is no longer affected by state " ++ toString s))
  | absent {x : Battler} (found : b.roster.get? id = some x) (absent : ¬ b.Holds id s) :
      Visit id s b false b

/-- The work on one state of one target is a visit. -/
theorem visit_stateOne (add : Bool) (id : BattlerId) (acc : Progress) (s : Nat) :
    Visit id s acc.1 add (stateOne add true id acc s).1 := by
  unfold stateOne
  cases hx : acc.1.roster.get? id with
  | none => exact .nobody add hx
  | some x =>
    rw [Option.bind_some, applyState]
    -- an addition is told in any case, a removal only if there was something to remove
    cases add with
    | true =>
      refine .added _ hx ?_
      rw [Battle.holds_withBattler_iff hx]
      exact Battler.mem_addState_iff
    | false =>
      by_cases hmem : x.hasState s
      · have hremoved : (x.removeState s).1 = true := by rw [Battler.removeState, if_pos hmem]
        simp only [hremoved, Bool.false_eq_true, if_false, if_true]
        refine .removed _ hx ((Battle.holds_iff hx).mpr (Battler.hasState_iff.mp hmem)) ?_
        rw [Battle.holds_withBattler_iff hx]
        exact Battler.not_mem_removeState
      · have hremoved : (x.removeState s).1 = false := by rw [Battler.removeState, if_neg hmem]
        simp only [hremoved, Bool.false_eq_true, if_false]
        refine .absent hx ?_
        rw [Battle.holds_iff hx]
        exact mt Battler.hasState_iff.mpr hmem

/-- A visit does not depend on what was noted before it. -/
theorem fst_stateOne (add : Bool) (id : BattlerId) (acc : Progress) (s : Nat) :
    (stateOne add true id (acc.1, false) s).1 = (stateOne add true id acc s).1 := by
  unfold stateOne
  dsimp only
  split <;> rfl

/-- The visits of a command in turn. -/
def visitsOf (group : List BattlerId) (states : List Nat) : List (BattlerId × Nat) :=
  group.flatMap fun id => states.map (id, ·)

/-- The loops of a command are one run of visits. -/
theorem fst_foldl_stateOne (add : Bool) (states : List Nat) (group : List BattlerId)
    (acc : Progress) :
    (group.foldl (fun acc id => states.foldl (stateOne add true id) acc) acc).1 =
      afterVisits add acc.1 (visitsOf group states) := by
  rw [afterVisits, visitsOf, List.foldl_flatMap]
  simp only [List.foldl_map]
  refine (List.foldl_hom Prod.fst fun acc id => ?_).symm
  exact List.foldl_hom Prod.fst fun acc s => fst_stateOne add id acc s

/-- Each visit of a run is one to the battle that those before it have left. -/
theorem visit_afterVisits (add : Bool) (b : Battle) (done : List (BattlerId × Nat)) (id : BattlerId)
    (s : Nat) :
    Visit id s (afterVisits add b done) add (afterVisits add b (done ++ [(id, s)])) := by
  rw [afterVisits, afterVisits, List.foldl_append]
  exact visit_stateOne add id (_, false) s

end EffectOp

namespace Chain

/-- **State results.** A line that adds or removes states and shows it visits its targets in turn,
for one state after the other, and then at most asks for the status. Of each visit to a battler:
when a state is added this is told, and at that moment the battler holds the state unless it has
refused it; that a state is gone is told exactly when the battler held the state just before, and
then it is gone. -/
theorem state_results_of_visits (line : Command) (add : Bool) (states : List Nat)
    (target : Option String)
    (hline : EffectOp.ofCommand? line = some (.state add states target true)) (scene : Scene) :
    let b := scene.battle
    let visits := EffectOp.visitsOf (b.targets scene.context target) states
    (∃ refresh, (standard.dispatch line scene).2 =
      { scene with battle := (EffectOp.afterVisits add b visits).refreshStatus refresh }) ∧
    ∀ done id s, done ++ [(id, s)] <+: visits →
      EffectOp.Visit id s (EffectOp.afterVisits add b done) add
        (EffectOp.afterVisits add b (done ++ [(id, s)])) := by
  intro b visits
  refine ⟨?_, fun done id s _ => EffectOp.visit_afterVisits add b done id s⟩
  rw [dispatch_effect hline, EffectOp.run]
  dsimp only
  split
  · next hempty =>
    refine ⟨false, ?_⟩
    have hvisits : visits = [] := by
      simp only [visits, b, EffectOp.visitsOf, List.isEmpty_iff.mp hempty, List.flatMap_nil]
    rw [hvisits]
    rfl
  · rw [EffectOp.settleProgress, EffectOp.fst_foldl_stateOne]
    exact ⟨_, rfl⟩

/-- The bat gets state 4, dies of state 1, and refuses state 5 as one of the dead. -/
theorem state_results_of_visits_bat :
    let s : Scenario := { Scenario.solo with
      troop := [{ name := "Bat", mhp := 10 }]
      targets := [.enemy 0] }
    let line := Command.ofLine "add states 4, 1, 5: targets, show"
    let b := EffectOp.afterVisits true s.battle [(.enemy 0, 4), (.enemy 0, 1)]
    let b' := EffectOp.afterVisits true s.battle [(.enemy 0, 4), (.enemy 0, 1), (.enemy 0, 5)]
    EffectOp.ofCommand? line = some (.state true [4, 1, 5] (some "targets") true) ∧
      (∃ refresh, (standard.dispatch line ⟨s.battle, s.context⟩).2 =
        ⟨b'.refreshStatus refresh, s.context⟩) ∧
      EffectOp.Visit (.enemy 0) 5 b true b' ∧ ¬ b'.Holds (.enemy 0) 5 := by
  intro s line b b'
  have hline : EffectOp.ofCommand? line = some (.state true [4, 1, 5] (some "targets") true) := by
    decide +kernel
  have hvisits : EffectOp.visitsOf (s.battle.targets s.context (some "targets")) [4, 1, 5] =
      [(.enemy 0, 4), (.enemy 0, 1), (.enemy 0, 5)] := by
    decide +kernel
  obtain ⟨hafter, hvisit⟩ :=
    state_results_of_visits line true [4, 1, 5] (some "targets") hline ⟨s.battle, s.context⟩
  rw [hvisits] at hafter hvisit
  exact ⟨hline, hafter, hvisit [(.enemy 0, 4), (.enemy 0, 1)] (.enemy 0) 5 (List.prefix_refl _),
    by decide +kernel⟩

/-- The bat is dead and does not get the state that is told of. -/
theorem state_told_of_the_dead :
    let s : Scenario := { Scenario.solo with
      troop := [{ name := "Bat", mhp := 10, states := [1] }]
      targets := [.enemy 0] }
    let line := Command.ofLine "add state 4: targets, show"
    let after := (standard.dispatch line ⟨s.battle, s.context⟩).2.battle
    s.battle.stage.log = #[] ∧ after.stage.log = #["Bat is affected by state 4"] ∧
      ¬ after.Holds (.enemy 0) 4 := by
  refine ⟨?_, ?_, ?_⟩ <;> decide +kernel

end Chain

end BattleScript
