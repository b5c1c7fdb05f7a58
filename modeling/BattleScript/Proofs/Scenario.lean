import BattleScript.Proofs.Stage.Countdown
import BattleScript.Proofs.Standard.Edits
import BattleScript.Scenario

/-!
# Battles of a scenario

What `Scenario.build?` gives is the action at its start, on the battle at its start
(`Scenario.build?_eq_ok`). A battle that comes from a scenario whose TP limit is not negative is
`Battle.Lawful`: the fades of its sprites run, and no pool can be kept below a negative maximum, so
that no rule is ever breached. Edits and frames keep a battle lawful. Its database is keyed, so that
a skill is found under its own number and no other.
-/

namespace BattleScript

/-- No rule of the battle was breached or can be, and every fade runs. -/
structure Battle.Lawful (b : Battle) : Prop where
  fadesRun : b.stage.FadesRun
  maxTp : ∀ id x, b.roster.get? id = some x → 0 ≤ x.maxTp
  unbreached : b.breach = none

/-! ## What keeps a battle lawful -/

/-- With a proper TP limit no maximum is negative. -/
theorem Battler.maxPool_nonneg {x : Battler} (h : 0 ≤ x.maxTp) (p : Pool) : 0 ≤ x.maxPool p := by
  cases p with
  | hp => exact Int.le_trans (by decide) (Int.le_max_right (x.param .maxHp) 1)
  | mp => exact le_clampTo (by decide) _
  | tp => exact h

namespace Battle

variable {b b' : Battle}

/-- Only requests reach the sprites, and they start fades that run. -/
theorem fadesRun_edit {a : Aspect} (edit : Edit a b b') (h : b.stage.FadesRun) :
    b'.stage.FadesRun := by
  cases edit with
  | request => exact h.request _
  | _ => exact h

/-- No edit changes how a sprite fades, what a battler's limits are, or breaks a rule. -/
theorem Lawful.edit {a : Aspect} (edit : Edit a b b') (h : b.Lawful) : b'.Lawful := by
  have hfades : b'.stage.FadesRun := fadesRun_edit edit h.fadesRun
  cases edit with
  | @battler _ id x y hx steps =>
    refine ⟨hfades, ?_, h.unbreached⟩
    intro j z hz
    rw [Battle.withBattler, Roster.get?_modify] at hz
    split at hz
    · next hj =>
      -- the sheet of the battler is the one it had before
      rw [hj, hx] at hz
      cases hz
      have hsheet : y.maxTp = x.maxTp := congrArg Battler.Sheet.maxTp steps.sheet_eq
      rw [hsheet]
      exact h.maxTp id x hx
    · exact h.maxTp j z hz
  | breach _ p hx negative =>
    exact absurd negative (Int.not_lt.mpr (Battler.maxPool_nonneg (h.maxTp _ _ hx) p))
  | _ => exact ⟨hfades, h.maxTp, h.unbreached⟩

/-- Edits and frames keep the fades running. -/
theorem fadesRun_kept : Kept (·.stage.FadesRun) := ⟨fadesRun_edit, Stage.FadesRun.advance⟩

/-- Edits and frames keep a battle lawful. -/
theorem Lawful.kept : Kept Lawful :=
  ⟨Lawful.edit, fun h => ⟨h.fadesRun.advance, h.maxTp, h.unbreached⟩⟩

/-- Paying writes to the ledger only. -/
theorem roster_payCooldowns (b : Battle) (id : BattlerId) (item : ItemRef) :
    (b.payCooldowns id item).roster = b.roster := by
  obtain ⟨l, hl⟩ := b.exists_payCooldowns_eq id item
  rw [hl]

end Battle

/-! ## The battle at its start -/

/-- A rule for all battlers reaches each of them. -/
theorem Roster.get?_map (r : Roster) (f : Battler → Battler) (id : BattlerId) :
    (r.map f).get? id = (r.get? id).map f := by
  cases id <;> simp [map, get?]

namespace Scenario

/-- What holds of a sprite at home holds of every sprite that is placed. -/
theorem every_placeSprites {P : Sprite Float → Prop} (hP : ∀ spec, P (.atHome spec)) (side : Side)
    (specs : List BattlerSpec) {st : Stage Float} (h : st.Every P) :
    (placeSprites side specs st).Every P := by
  unfold placeSprites
  -- on the places, so that the numbers of the specs do not matter
  generalize specs.zipIdx = places
  induction places generalizing st with
  | nil => exact h
  | cons place places ih =>
    obtain ⟨spec, i⟩ := place
    refine ih ?_
    dsimp only
    split
    · exact h.addSprite _ (hP _)
    · exact h

/-- What holds of every sprite at home holds of the sprites of a scenario. -/
theorem every_stage (s : Scenario) {P : Sprite Float → Prop} (hP : ∀ spec, P (.atHome spec)) :
    s.stage.Every P := by
  have hempty : ({ timings := s.timings } : Stage Float).Every P := by
    intro p hp
    cases hp
  exact every_placeSprites hP .enemy _ (every_placeSprites hP .actor _ hempty)

/-- The battle of a scenario is lawful if its limit is not negative. -/
theorem lawful_battle {s : Scenario} (h : 0 ≤ s.settings.maxTp) : s.battle.Lawful where
  fadesRun := by
    show s.stage.FadesRun
    exact s.every_stage Sprite.fadeRuns_atHome
  maxTp id x hx := by
    have hroster :
        s.battle.roster = s.roster.withRules s.settings.deathState s.settings.maxTp := rfl
    rw [hroster, Roster.withRules, Roster.get?_map] at hx
    obtain ⟨y, -, rfl⟩ := Option.map_eq_some_iff.mp hx
    exact h
  unbreached := rfl

/-- Every skill of a scenario stands in its database under its own number. -/
theorem keyed_database (s : Scenario) : s.database.Keyed := by
  have hskills : (s.skills.foldl (fun d spec => d.insertSkill spec.build) {} : Database).Keyed :=
    List.foldlRecOn _ _ Database.keyed_empty fun _ h spec _ => h.insertSkill spec.build
  exact List.foldlRecOn _ _ hskills fun _ h spec _ => h.insertItem spec.build

/-- What is built is the action at its start. -/
theorem build?_eq_ok {s : Scenario} {b : Battle} {r : Runner} (h : s.build? = .ok (b, r)) :
    (r, b) = Runner.start s.battle s.context := by
  unfold build? at h
  split at h
  · cases h
  · split at h
    · cases h
    · cases h
      rfl

/-- One battler who uses a skill without a note on itself. -/
def solo : Scenario where
  party := [{ name := "Ann", mhp := 10 }]
  skills := [{ id := 1, name := "Rest" }]
  subject := .actor 0
  targets := [.actor 0]
  item := .skill 1

theorem build?_solo :
    solo.build? = .ok ((Runner.start solo.battle solo.context).2,
      (Runner.start solo.battle solo.context).1) := rfl

end Scenario

end BattleScript
