import BattleScript.Proofs.Cooldown.Bypass
import BattleScript.Proofs.Cooldown.Range
import BattleScript.Proofs.Cooldown.Writing
import BattleScript.Proofs.Standard.Dispatch
import Mathlib.Data.List.Basic

/-!
# Cooldown changes as commands

What an item changes about cooldowns can be done by a script as well: by one line that adds the
global change to all known skills, and one line for the change of each skill type and of each single
skill. A written line that means one battler makes additions to the cooldowns of its skills in scope
(`Chain.dispatch_line`). All lines together make the additions of the item
(`CooldownOp.additions_changes`), but for one thing: an item without a global change adds nothing to
the known skills, while its line adds zero. That may give a skill an entry that it had not, but no
cooldown reads otherwise (`Ledger.Agrees`).

`Battle.cooldown_changes_are_commands` says so of the cooldowns and the warmups of all battlers.
-/

namespace BattleScript

/-! ## Ledgers that say the same -/

namespace Ledger

/-- The ledgers say the same of every cooldown and every warmup. -/
structure Agrees (l l' : Ledger) : Prop where
  cooldown : ∀ b s, l.cooldown b s = l'.cooldown b s
  warmup : ∀ b s, l.warmup b s = l'.warmup b s

variable {l l' l'' : Ledger} {settings : Settings} {b : BattlerId}

theorem Agrees.refl (l : Ledger) : l.Agrees l := ⟨fun _ _ => rfl, fun _ _ => rfl⟩

theorem Agrees.trans (h : l.Agrees l') (h' : l'.Agrees l'') : l.Agrees l'' :=
  ⟨fun b s => (h.cooldown b s).trans (h'.cooldown b s),
    fun b s => (h.warmup b s).trans (h'.warmup b s)⟩

/-- Ledgers that say the same say the same after an addition to both. -/
theorem Agrees.addition (h : l.Agrees l') (c : Charge) :
    (l.addition settings b c).Agrees (l'.addition settings b c) where
  cooldown j s := by
    simp only [Ledger.addition, addCooldown, cooldown_setCooldown, h.cooldown]
  warmup j s := by
    simp only [Ledger.addition, addCooldown, warmup_setCooldown, h.warmup]

/-- What is added to both keeps them in agreement. -/
theorem Agrees.foldl_addition (h : l.Agrees l') (cs : List Charge) :
    (cs.foldl (Ledger.addition settings b) l).Agrees
      (cs.foldl (Ledger.addition settings b) l') := by
  induction cs generalizing l l' with
  | nil => exact h
  | cons c cs ih => exact ih (h.addition c)

/-- Adding zero is not seen, since the counters are in range. -/
theorem agrees_addition_zero (h : l.InRange) (u : Usable) :
    (l.addition settings b (u, 0)).Agrees l where
  cooldown j s := by
    rw [addition, addCooldown, cooldown_setCooldown, Int.add_zero,
      saturate_of_fits (fitsInt32_cooldown h b u.id)]
    split
    · next hu => rw [hu.2.1, hu.2.2]
    · rfl
  warmup j s := warmup_setCooldown ..

/-- Zeros added to a ledger in range change nothing that it says. -/
theorem agrees_foldl_zero (h : l.InRange) (us : List Usable) :
    ((us.map (·, (0 : Int))).foldl (addition settings b) l).Agrees l := by
  induction us generalizing l with
  | nil => exact .refl l
  | cons u us ih =>
    have hrange : (l.addition settings b (u, 0)).InRange := (keeps_addCooldown l b u 0).inRange h
    exact (ih hrange).trans (agrees_addition_zero h u)

end Ledger

/-! ## The changes of an item -/

/-- The changes that an item makes to cooldowns, as commands have them: the global one, that of each
skill type and that of each single skill. -/
def CooldownRules.changes (rules : CooldownRules) : List (CooldownScope × Int) :=
  (.known, rules.globalChange) ::
    (rules.stypeChange.entries.map fun (stype, x) => (.skillType stype, x)) ++
    rules.skillChange.entries.map fun (id, x) => (.skill id, x)

namespace CooldownOp

open Ledger (Charge)

variable {b : Battle} {id : BattlerId}

/-- What a battler knows is found again by its number. -/
theorem filterMap_skill? (hkeyed : b.database.Keyed) {us : List Usable}
    (h : us ⊆ b.knownSkills id) : (us.map (·.id)).filterMap b.database.skill? = us := by
  rw [List.filterMap_map]
  have hfound (u : Usable) (hu : u ∈ us) : (b.database.skill? ∘ (·.id)) u = some u := by
    obtain ⟨n, hn⟩ := Battle.exists_of_mem_knownSkills (h hu)
    have hid : u.id = n := hkeyed n u hn
    rw [Function.comp_apply, hid, hn]
  rw [List.filterMap_congr hfound, List.filterMap_some]

/-- In a keyed database the known skills in scope are the known skills of the battle. -/
theorem skills_known (hkeyed : b.database.Keyed) : skills b id .known = b.knownSkills id :=
  filterMap_skill? hkeyed (List.Subset.refl _)

/-- Those of a skill type are the known skills of that type. -/
theorem skills_skillType (hkeyed : b.database.Keyed) (stype : Nat) :
    skills b id (.skillType stype) = (b.knownSkills id).filter (·.stypeId == stype) :=
  filterMap_skill? hkeyed List.filter_sublist.subset

/-- A single skill is in scope if the database has it, known or not. -/
theorem skills_skill (n : Nat) : skills b id (.skill n) = (b.database.skill? n).toList := by
  rw [skills, skillIds]
  cases h : b.database.skill? n <;> simp [h]

/-- The additions that commands with these changes make, if they all mean one battler. -/
def additions (b : Battle) (id : BattlerId) (changes : List (CooldownScope × Int)) : List Charge :=
  changes.flatMap fun (scope, x) => (skills b id scope).map (·, x)

/-- **The commands make the additions of the item**, and with them that of the global change. -/
theorem additions_changes (hkeyed : b.database.Keyed) (source : Usable) :
    additions b id source.cooldown.changes =
      if source.cooldown.globalChange = 0 then
        (b.knownSkills id).map (·, (0 : Int)) ++
          Ledger.additions b.database source (b.knownSkills id)
      else Ledger.additions b.database source (b.knownSkills id) := by
  have hsingle (es : List (Nat × Int)) :
      (es.flatMap fun e => ((b.database.skill? e.1).toList).map (·, e.2)) =
        es.filterMap fun (n, x) => (b.database.skill? n).map (·, x) := by
    rw [List.filterMap_eq_flatMap_toList]
    refine congrArg es.flatMap (funext fun e => ?_)
    cases h : b.database.skill? e.1 <;> simp [h]
  rw [additions, CooldownRules.changes]
  simp only [List.cons_append, List.flatMap_cons, List.flatMap_append, List.flatMap_map,
    skills_known hkeyed, skills_skillType hkeyed, skills_skill, hsingle, Ledger.additions]
  -- the line of the global change is written even when there is none
  split
  · next hzero => rw [hzero, List.nil_append]
  · rw [List.append_assoc]

end CooldownOp

/-! ## Running the commands -/

/-- The line adds to the cooldowns in a scope, and the specifier in it means exactly one battler. -/
def Battle.Writes (b : Battle) (c : ActionContext) (id : BattlerId) (line : String)
    (change : CooldownScope × Int) : Prop :=
  ∃ target, b.targets c (some target) = [id] ∧ line = change.1.line target change.2

namespace Chain

open CooldownOp

variable {b : Battle} {c : ActionContext} {id : BattlerId}

/-- A written line makes the additions that it stands for. -/
theorem dispatch_line {line : String} {change : CooldownScope × Int} (h : b.Writes c id line change)
    (hscope : change.1.Fits) (hx : FitsInt32 change.2) :
    standard.dispatch (.ofLine line) ⟨b, c⟩ =
      (.proceed, ⟨{ b with
        cooldowns := (additions b id [change]).foldl (Ledger.addition b.settings id)
          b.cooldowns }, c⟩) := by
  obtain ⟨scope, x⟩ := change
  obtain ⟨target, htarget, rfl⟩ := h
  dsimp only at hscope hx ⊢
  -- the text for the target means someone, so it can be read
  have hread : ∃ spec, TargetSpec.ofString? target = some spec := by
    cases hspec : TargetSpec.ofString? target with
    | some spec => exact ⟨spec, rfl⟩
    | none => simp [Battle.targets, resolveTargets, hspec] at htarget
  obtain ⟨spec, hspec⟩ := hread
  have hline := CooldownScope.ofLine_line (TargetSpec.comma_not_mem hspec) scope x
  have hnamed : scope.IsNamedBy (Command.ofLine (scope.line target x)).words := by
    rw [hline]
    exact CooldownScope.isNamedBy_nameChars hscope
  have hnonblank : Text.trimmed target ≠ "" := by
    rw [Text.trimmed, Ne, String.ofList_eq_empty_iff]
    exact TargetSpec.trim_ne_nil hspec
  -- the two arguments of the line come back as they were written
  have hwhom : (Command.ofLine (scope.line target x)).arg 0 = some (Text.trimmed target) := by
    rw [hline]
    simp [Command.arg, hnonblank]
  have hvalue : (Command.ofLine (scope.line target x)).arg 1 = some (numeralText true x) := by
    have hnonblank : numeralText true x ≠ "" := fun heq => by
      simpa [heq] using CooldownScope.toList_signed x
    rw [hline]
    simp [Command.arg, hnonblank]
  have hadd : CooldownChange.ofString? (numeralText true x) = some (.add x) := by
    rw [change_of_int? (CooldownScope.int?_signed hx), if_pos (CooldownScope.isSigned_signed x)]
  have hmeant : b.targets c (some (Text.trimmed target)) = [id] := by
    rw [← htarget]
    simp only [Battle.targets, resolveTargets, Option.bind_some, TargetSpec.ofString?_trimmed]
  rw [dispatch_cooldown (ofCommand?_of_isNamedBy hnamed), hwhom, hvalue, Option.bind_some, hadd]
  simp only [run, hmeant, List.foldl_cons, List.foldl_nil, additions, List.flatMap_cons,
    List.flatMap_nil, List.append_nil, List.foldl_map]
  rfl

/-- Written lines make the additions that they stand for, one after the other. -/
theorem dispatchAll_lines {lines : List String} {changes : List (CooldownScope × Int)}
    (h : List.Forall₂ (b.Writes c id) lines changes)
    (hfits : ∀ change ∈ changes, change.1.Fits ∧ FitsInt32 change.2) (l : Ledger) :
    standard.dispatchAll lines ⟨{ b with cooldowns := l }, c⟩ =
      ⟨{ b with
        cooldowns := (additions b id changes).foldl (Ledger.addition b.settings id) l }, c⟩ := by
  induction h generalizing l with
  | nil => rfl
  | @cons line change lines changes hline _ ih =>
    obtain ⟨⟨hscope, hx⟩, hrest⟩ := List.forall_mem_cons.mp hfits
    -- whom the next line means does not depend on the cooldowns
    have hwrites : { b with cooldowns := l }.Writes c id line change := hline
    have hadditions : additions b id ([change] ++ changes) =
        additions b id [change] ++ additions b id changes :=
      List.flatMap_append
    rw [List.singleton_append] at hadditions
    rw [dispatchAll, List.foldl_cons, dispatch_line hwrites hscope hx, ← dispatchAll, ih hrest,
      hadditions, List.foldl_append]
    rfl

end Chain

/-- **Cooldown changes are commands.** Take an item with cooldown changes and any battler, and
write the changes as lines: the global change first, then those of skill types, then those of
single skills, each with its sign and with some specifier that means exactly that battler. To run
the lines does to the battle what it does to let the changes of the item take effect on the
battler: nothing but the cooldowns changes, and every cooldown and every warmup reads the same
afterwards. -/
theorem Battle.cooldown_changes_are_commands (b : Battle) (c : ActionContext) (id : BattlerId)
    (item : ItemRef) (source : Usable) (lines : List String)
    (hitem : b.database.find? item = some source)
    (hlines : List.Forall₂ (b.Writes c id) lines source.cooldown.changes)
    (hfits : ∀ change ∈ source.cooldown.changes, change.1.Fits ∧ FitsInt32 change.2)
    (hrange : b.cooldowns.InRange) (hkeyed : b.database.Keyed) :
    ∃ l l' : Ledger,
      Chain.standard.dispatchAll lines ⟨b, c⟩ = ⟨{ b with cooldowns := l }, c⟩ ∧
      b.applyCooldownChanges id item = { b with cooldowns := l' } ∧
      ∀ j s, l.cooldown j s = l'.cooldown j s ∧ l.warmup j s = l'.warmup j s := by
  have hagrees : ((CooldownOp.additions b id source.cooldown.changes).foldl
      (Ledger.addition b.settings id) b.cooldowns).Agrees
      (b.cooldowns.applyChanges b.settings b.database id source (b.knownSkills id)) := by
    rw [Ledger.applyChanges_eq, CooldownOp.additions_changes hkeyed]
    split
    · rw [List.foldl_append]
      exact (Ledger.agrees_foldl_zero hrange _).foldl_addition _
    · exact .refl _
  refine ⟨_, _, Chain.dispatchAll_lines hlines hfits b.cooldowns, ?_,
    fun j s => ⟨hagrees.cooldown j s, hagrees.warmup j s⟩⟩
  rw [applyCooldownChanges, hitem]

/-- A curse on Ann, who knows the skill that it burdens. -/
theorem Battle.cooldown_changes_are_commands_curse :
    let note := "<stype 2 cooldown: +4>\n<skill 10 cooldown: -1>"
    let s : Scenario := { Scenario.solo with
      party := [{ name := "Ann", mhp := 10, skills := [10] }]
      skills := [{ id := 10, name := "Curse", stypeId := 2, note := note }] }
    let b : Battle := { s.battle with cooldowns := {} }
    let lines := ["GLOBAL COOLDOWN: user, +0", "STYPE 2 COOLDOWN: actor 1, +4",
      "SKILL 10 COOLDOWN: user, -1"]
    (b.applyCooldownChanges (.actor 0) (.skill 10)).cooldowns.cooldown (.actor 0) 10 = 3 ∧
      (Chain.standard.dispatchAll lines ⟨b, s.context⟩).battle.cooldowns.cooldown (.actor 0) 10 =
        3 := by
  intro note s b lines
  have hitem : b.database.find? (.skill 10) = some (.ofNote 10 "Curse" 2 0 note) := rfl
  have hlines : List.Forall₂ (b.Writes s.context (.actor 0)) lines
      [(.known, 0), (.skillType 2, 4), (.skill 10, -1)] := by
    refine .cons ⟨"user", ?_, ?_⟩ (.cons ⟨"actor 1", ?_, ?_⟩ (.cons ⟨"user", ?_, ?_⟩ .nil))
    all_goals decide +kernel
  have hchanges : (Usable.ofNote 10 "Curse" 2 0 note).cooldown.changes =
      [(.known, 0), (.skillType 2, 4), (.skill 10, -1)] := by decide +kernel
  obtain ⟨l, l', hl, hl', hagree⟩ := b.cooldown_changes_are_commands s.context (.actor 0)
    (.skill 10) _ lines hitem (hchanges ▸ hlines) (by rw [hchanges]; decide +kernel)
    Ledger.inRange_empty s.keyed_database
  have hitself :
      (b.applyCooldownChanges (.actor 0) (.skill 10)).cooldowns.cooldown (.actor 0) 10 = 3 := by
    decide +kernel
  refine ⟨hitself, ?_⟩
  rw [hl', ← (hagree _ _).1] at hitself
  rw [hl]
  exact hitself

end BattleScript
