import BattleScript.Proofs.Battler.Start
import BattleScript.Proofs.Looks.Outcome
import BattleScript.Proofs.Standard.Sequence
import BattleScript.Proofs.Target.Treatment

/-!
# Immortality at the end of an action

The standard sequence makes its targets immortal while they are struck, and mortal again when all
is done. But the finish does so for the targets that the action then has, and it has none any more
if a death break has dropped them. So who is immortal at the end is decided by whether the user
stands when the first target phase comes to its death break (`Runner.immortal_at_end_iff`).

The user may be a target itself, and is then made immortal before it is looked at. That puts its
life in order by its HP: dead with HP, it comes back (`Battler.fallen_iterate_switchImmortal`).
-/

namespace BattleScript

namespace Battler

theorem immortal_refresh (x : Battler) : x.refresh.immortal = x.immortal := by
  unfold refresh settleLife
  repeat' split
  all_goals rfl

/-- Whoever is switched is as it was switched, whether or not that let it fall. -/
theorem immortal_switchImmortal (on : Bool) (x : Battler) :
    (x.switchImmortal on).immortal = on := by
  have hset : (x.setImmortal on).immortal = on := immortal_refresh _
  unfold switchImmortal markCollapsed
  repeat' split
  all_goals exact hset

/-- A battler is as it was switched, however often the switch was made. -/
theorem immortal_iterate_switchImmortal (on : Bool) (x : Battler) {n : Nat} (hn : 0 < n) :
    ((switchImmortal on)^[n] x).immortal = on := by
  obtain ⟨n, rfl⟩ := Nat.exists_eq_succ_of_ne_zero (Nat.ne_of_gt hn)
  rw [Function.iterate_succ_apply']
  exact immortal_switchImmortal on _

/-- Making a battler immortal leaves it HP if it had any, and life if it has HP. -/
theorem setImmortal_true_spec (x : Battler) :
    ((x.setImmortal true).hp ≤ 0 ↔ x.hp ≤ 0) ∧
      ((x.setImmortal true).isDead → (x.setImmortal true).hp ≤ 0) := by
  constructor
  · have hhp : (x.setImmortal true).hp = min x.hp x.mhp :=
      pool_refresh { x with immortal := true } .hp
    have hpos : 0 < x.mhp := mhp_pos x
    omega
  · unfold setImmortal refresh settleLife
    split
    · next hzero =>
      -- without HP, the immortal stay as they are
      intro _
      rw [if_pos (by rfl)]
      exact Int.le_of_eq hzero
    · split
      · intro dead
        exact absurd dead (not_isDead_dropState _)
      · next alive =>
        intro dead
        exact absurd dead alive

/-- Making a battler immortal does not make its HP positive, and leaves it dead only without HP.
-/
theorem switchImmortal_true_spec (x : Battler) :
    ((x.switchImmortal true).hp ≤ 0 ↔ x.hp ≤ 0) ∧
      ((x.switchImmortal true).isDead → (x.switchImmortal true).hp ≤ 0) := by
  have hset := setImmortal_true_spec x
  unfold switchImmortal markCollapsed
  repeat' split
  all_goals exact hset

/-- Making a battler immortal several times does not make its HP positive either. -/
theorem hp_iterate_switchImmortal (x : Battler) (n : Nat) :
    ((switchImmortal true)^[n] x).hp ≤ 0 ↔ x.hp ≤ 0 := by
  -- on the number of times, the last one taken off
  induction n with
  | zero => exact Iff.rfl
  | succ n ih =>
    rw [Function.iterate_succ_apply', (switchImmortal_true_spec _).1, ih]

/-- Who was made immortal has fallen only if it has no HP. -/
theorem fallen_iterate_switchImmortal (x : Battler) {n : Nat} (hn : 0 < n) :
    ((switchImmortal true)^[n] x).isDead ∨ ((switchImmortal true)^[n] x).hp ≤ 0 ↔ x.hp ≤ 0 := by
  have hhp := hp_iterate_switchImmortal x n
  obtain ⟨n, rfl⟩ := Nat.exists_eq_succ_of_ne_zero (Nat.ne_of_gt hn)
  rw [Function.iterate_succ_apply'] at hhp ⊢
  constructor
  · rintro (dead | hp)
    · exact hhp.mp ((switchImmortal_true_spec _).2 dead)
    · exact hhp.mp hp
  · exact fun hp => .inr (hhp.mpr hp)

end Battler

namespace Roster

/-- Whoever is switched is switched as often as its place is listed. -/
theorem get?_foldl_switchImmortal (on : Bool) (ids : List BattlerId) (r : Roster) (j : BattlerId) :
    (ids.foldl (switchImmortal on) r).get? j =
      (r.get? j).map (Battler.switchImmortal on)^[ids.count j] :=
  get?_foldl_modify (fun _ => Battler.switchImmortal on) ids r j

variable {r : Roster} {subject id : BattlerId} {targets : List BattlerId} {u y : Battler}

/-- Whether the user has fallen once the targets are immortal. -/
theorem hasFallen_shielded (hu : r.get? subject = some u) :
    (targets.foldl (switchImmortal true) r).hasFallen subject = true ↔
      u.hp ≤ 0 ∨ u.isDead ∧ subject ∉ targets := by
  rw [hasFallen, get?_foldl_switchImmortal, hu]
  by_cases hmem : subject ∈ targets
  · have hfallen := Battler.fallen_iterate_switchImmortal u (List.count_pos_iff.mpr hmem)
    simp [hmem, ← hfallen]
  · simp [List.count_eq_zero_of_not_mem hmem, hmem, or_comm]

/-- The battlers one by one: a target is switched on as often as it was declared, and switched off
as often if the user did not fall. -/
theorem get?_afterStandard (r : Roster) (subject : BattlerId) (targets : List BattlerId)
    (id : BattlerId) :
    (r.afterStandard subject targets).get? id = (r.get? id).map fun x =>
      let shielded := (Battler.switchImmortal true)^[targets.count id] x
      if (targets.foldl (switchImmortal true) r).hasFallen subject then shielded
      else (Battler.switchImmortal false)^[targets.count id] shielded := by
  unfold afterStandard
  dsimp only
  -- whether the death break dropped the targets before the finish
  split
  · rw [get?_foldl_switchImmortal]
  · rw [get?_foldl_switchImmortal, get?_foldl_switchImmortal, Option.map_map]
    rfl

/-- **Who is left immortal**: of battlers who were not immortal, the targets, if the user had
fallen. -/
theorem immortal_afterStandard_iff (hmortal : ∀ x, r.get? id = some x → x.immortal = false)
    (hu : r.get? subject = some u) (hy : (r.afterStandard subject targets).get? id = some y) :
    y.immortal = true ↔ id ∈ targets ∧ (u.hp ≤ 0 ∨ u.isDead ∧ subject ∉ targets) := by
  rw [get?_afterStandard] at hy
  obtain ⟨x, hx, rfl⟩ := Option.map_eq_some_iff.mp hy
  rw [← hasFallen_shielded hu]
  dsimp only
  by_cases hmem : id ∈ targets
  · have hcount : 0 < targets.count id := List.count_pos_iff.mpr hmem
    split
    · next hfallen =>
      rw [Battler.immortal_iterate_switchImmortal true x hcount]
      exact iff_of_true rfl ⟨hmem, hfallen⟩
    · next hstands =>
      rw [Battler.immortal_iterate_switchImmortal false _ hcount]
      exact iff_of_false nofun fun h => hstands h.2
  · -- who is no target is left alone
    rw [List.count_eq_zero_of_not_mem hmem]
    simp only [Function.iterate_zero, id_eq, ite_self]
    rw [hmortal x hx]
    exact iff_of_false nofun fun h => hmem h.1

end Roster

namespace Runner

variable {s : Scenario} {b : Battle} {r : Runner} {frames : Nat}

/-- The battlers when an action with the standard sequence has finished. -/
theorem roster_of_isFinished (h : s.build? = .ok (b, r)) (hsequence : r.sequence = .standard)
    (hdone : (afterFrames .standard frames (r, b)).1.isFinished) :
    (afterFrames .standard frames (r, b)).2.roster =
      b.roster.afterStandard s.subject s.targets := by
  -- the frames and the play-out end alike, and a finished action has nothing left to play
  have hplay := alike_afterFrames frames (r, b)
  rw [playOut_of_isFinished .standard hdone] at hplay
  refine hplay.roster.trans ?_
  have hstart := Scenario.build?_eq_ok h
  have hr : r = (start s.battle s.context).1 := congrArg Prod.fst hstart
  subst hr
  exact roster_playOut_standard (r := { (start s.battle s.context).1 with phase := none }) hsequence
    rfl b

/-- **Who is immortal at the end of an action.** Take an action of a scenario that runs the
standard sequence, and any battler when it has finished. The battler is immortal if and only if it
was a target and the user had fallen: the user had no HP at the start, or it was dead with some
and not itself a target. So nobody is left immortal by a user that stands. -/
theorem immortal_at_end_iff (h : s.build? = .ok (b, r)) (hsequence : r.sequence = .standard)
    (hdone : (afterFrames .standard frames (r, b)).1.isFinished) {id : BattlerId} {x : Battler}
    (hx : (afterFrames .standard frames (r, b)).2.roster.get? id = some x) :
    x.immortal = true ↔ id ∈ s.targets ∧
      ∃ u, b.roster.get? s.subject = some u ∧ (u.hp ≤ 0 ∨ u.isDead ∧ s.subject ∉ s.targets) := by
  obtain ⟨u, hu⟩ := Scenario.exists_user h
  rw [roster_of_isFinished h hsequence hdone] at hx
  have hiff := Roster.immortal_afterStandard_iff (fun y => Scenario.mortal_of_build h) hu hx
  rw [hiff]
  refine and_congr_right fun _ => ?_
  -- the user is there, so that its state when the action began is the one meant
  constructor
  · exact fun hfallen => ⟨u, hu, hfallen⟩
  · rintro ⟨v, hv, hfallen⟩
    rw [hu] at hv
    cases hv
    exact hfallen

/-- A battler that uses a skill on itself is mortal in the end. -/
theorem immortal_at_end_iff_solo :
    ∃ b r frames, Scenario.solo.build? = .ok (b, r) ∧ r.sequence = .standard ∧
      (afterFrames .standard frames (r, b)).1.isFinished ∧
      ∀ id x, (afterFrames .standard frames (r, b)).2.roster.get? id = some x →
        x.immortal = false := by
  obtain ⟨frames, hdone⟩ := exists_isFinished (ongoing_start (by decide) Scenario.build?_solo)
  refine ⟨_, _, frames, Scenario.build?_solo, Scenario.sequence_solo, hdone, ?_⟩
  intro id x hx
  have hiff := immortal_at_end_iff Scenario.build?_solo Scenario.sequence_solo hdone hx
  refine Bool.eq_false_iff.mpr fun himmortal => ?_
  obtain ⟨-, u, hu, hfallen⟩ := hiff.mp himmortal
  -- the user has HP and is alive
  cases hu
  exact absurd hfallen (by decide)

/-- Dead Ann uses a skill without a note on a bat. -/
def deadUser : Scenario where
  party := [{ name := "Ann", mhp := 10, states := [1] }]
  troop := [{ name := "Bat", mhp := 10 }]
  skills := [{ id := 1, name := "Rest" }]
  subject := .actor 0
  targets := [.enemy 0]
  item := .skill 1

/-- The bat is left immortal. -/
theorem immortal_after_dead_user :
    ∃ b r frames x, deadUser.build? = .ok (b, r) ∧ r.sequence = .standard ∧
      (afterFrames .standard frames (r, b)).1.isFinished ∧
      (afterFrames .standard frames (r, b)).2.roster.get? (.enemy 0) = some x ∧
      x.immortal = true := by
  have hbuild : deadUser.build? = .ok ((start deadUser.battle deadUser.context).2,
      (start deadUser.battle deadUser.context).1) := rfl
  have hsequence : (start deadUser.battle deadUser.context).1.sequence = .standard := by
    refine Scenario.sequence_eq_standard hbuild fun entry hentry => ?_
    cases hentry
    rw [Database.copySource_of_none rfl]
    rfl
  obtain ⟨frames, hdone⟩ := exists_isFinished (ongoing_start (by decide) hbuild)
  -- what the standard sequence does to the roster can be calculated
  have hbat : ∃ x, ((start deadUser.battle deadUser.context).2.roster.afterStandard
      deadUser.subject deadUser.targets).get? (.enemy 0) = some x ∧ x.immortal = true :=
    ⟨_, rfl, rfl⟩
  rw [← roster_of_isFinished hbuild hsequence hdone] at hbat
  obtain ⟨x, hx, himmortal⟩ := hbat
  exact ⟨_, _, frames, x, hbuild, hsequence, hdone, hx, himmortal⟩

end Runner

end BattleScript
