import BattleScript.Proofs.Scenario
import BattleScript.Proofs.Standard.Family
import Mathlib.Logic.Function.Iterate

/-!
# What a cooldown command changes

A cooldown command goes through its targets, and for each of them through the skills in scope. Both
lists may hold the same entry several times, and every write reads what the one before it has left.
But a write is the same function of a counter each time (`CooldownChange.next`): the sum, saturated,
or just the new value. So a loop applies that function to a counter as often as it comes to it
(`CooldownOp.cooldown_foldl_changeOne`, `CooldownOp.cooldown_foldl_changeAll`), and what remains is
to count: the places in the list of targets, and the numbers in the list of skills that the battler
knows (`CooldownScope.occurrences`).

`Chain.cooldown_command_keeps_to_scope` puts this together for the commands themselves.
-/

namespace BattleScript

/-- Whether a value is written with a sign, after blanks. -/
def Operand.IsSigned (s : String) : Prop := (Text.trim s.toList).head? ∈ [some '+', some '-']

instance (s : String) : Decidable (Operand.IsSigned s) := by unfold Operand.IsSigned; infer_instance

/-- The numbers of the skills that the battler at a place knows, whether or not there are such
skills. -/
def Battle.skillNumbers (b : Battle) (id : BattlerId) : List Nat :=
  ((b.roster.get? id).map (·.skills)).getD []

namespace CooldownScope

/-- The words that name a scope. -/
def IsNamedBy (words : List String) : CooldownScope → Prop
  | known => words = ["GLOBAL", "COOLDOWN"]
  | skill n => ∃ w, Text.nat32? w.toList = some n ∧ words = ["SKILL", w, "COOLDOWN"]
  | skillType stype => ∃ w, Text.nat32? w.toList = some stype ∧
      (words = ["STYPE", w, "COOLDOWN"] ∨ words = ["SKILL", "TYPE", w, "COOLDOWN"])

/-- How often the skill `s` is in the scope, for the battler at a place: as often as the battler
knows it, if its type is right, or once if it is the skill that is named. -/
def occurrences (b : Battle) (id : BattlerId) (s : Nat) : CooldownScope → Nat
  | known => (b.skillNumbers id).count s
  | skill n => if n = s then 1 else 0
  | skillType stype =>
    if (b.database.skill? s).any (·.stypeId = stype) then (b.skillNumbers id).count s else 0

/-- A command of the scope that means the places `ids` comes to the cooldown of the skill `s` of
the battler at `id`: the battler is meant, the skill is in scope, and the database has the skill
and does not free it of cooldowns. -/
structure Reaches (scope : CooldownScope) (b : Battle) (ids : List BattlerId) (id : BattlerId)
    (s : Nat) : Prop where
  meant : id ∈ ids
  inScope : 0 < scope.occurrences b id s
  bound : (b.database.skill? s).any fun u => !u.bypasses b.settings

end CooldownScope

/-- What becomes of a counter. -/
def CooldownChange.next : CooldownChange → Int → Int
  | add x, y => saturate (y + x)
  | set x, _ => x

/-- Setting a counter several times is setting it once. -/
theorem CooldownChange.iterate_next_set (x y : Int) {n : Nat} (h : 0 < n) :
    (next (set x))^[n] y = x := by
  obtain ⟨n, rfl⟩ := Nat.exists_eq_succ_of_ne_zero (Nat.ne_of_gt h)
  rw [Function.iterate_succ_apply']
  rfl

/-- Whether writing the cooldown of the skill is writing the counter under the number `s`. -/
def Usable.writes (u : Usable) (settings : Settings) (s : Nat) : Bool :=
  u.id = s && !u.bypasses settings

namespace CooldownOp

variable {settings : Settings} {b : Battle} {change : CooldownChange} {scope : CooldownScope}
  {l : Ledger} {id j : BattlerId} {s : Nat}

/-! ## Reading and reading back -/

/-- The words that name a scope are read as that scope. -/
theorem scope?_eq_some {words : List String} (h : scope.IsNamedBy words) :
    scope? words = some scope := by
  cases scope with
  | known => rw [show words = _ from h]; rfl
  | skill n =>
    obtain ⟨w, hw, rfl⟩ := h
    simp [scope?, hw]
  | skillType stype =>
    obtain ⟨w, hw, rfl | rfl⟩ := h <;> simp [scope?, hw]

/-- A line that names a scope is a cooldown command for it, whatever its arguments are. -/
theorem ofCommand?_of_isNamedBy {c : Command} (h : scope.IsNamedBy c.words) :
    ofCommand? c = some ⟨scope, c.arg 0, (c.arg 1).bind CooldownChange.ofString?⟩ := by
  rw [ofCommand?, scope?_eq_some h, Option.map_some]

/-- A value with a sign is added, any other is the new one. -/
theorem change_of_int? {v : String} {x : Int} (h : Operand.int? v = some x) :
    CooldownChange.ofString? v =
      some (if Operand.IsSigned v then .add x else .set x) := by
  -- the reader of signs and the definition of a sign look at the same character
  have hsign : (Text.sign (Text.trim v.toList)).1.isSome ↔ Operand.IsSigned v := by
    unfold Operand.IsSigned
    cases Text.trim v.toList with
    | nil => simp [Text.sign]
    | cons c cs =>
      unfold Text.sign
      split <;> simp_all
  rw [CooldownChange.ofString?, h, Option.map_some]
  simp only [hsign]

/-! ## Counting writes -/

/-- A write applies the change once to the counter of its skill, and not at all to others. -/
theorem cooldown_changeOne (l : Ledger) (u : Usable) :
    (changeOne settings change id l u).cooldown id s =
      change.next^[if u.writes settings s then 1 else 0] (l.cooldown id s) := by
  -- to add and to set are one write, of what the change makes of the old value
  have hwrite : changeOne settings change id l u =
      l.setCooldown settings id u (change.next (l.cooldown id u.id)) := by cases change <;> rfl
  rw [hwrite, Ledger.cooldown_setCooldown]
  by_cases h : u.writes settings s
  · obtain ⟨hid, hbound⟩ : u.id = s ∧ u.bypasses settings = false := by
      simpa [Usable.writes] using h
    rw [if_pos h, if_pos ⟨hbound, rfl, hid.symm⟩, hid]
    rfl
  · have hother : ¬ (u.bypasses settings = false ∧ id = id ∧ s = u.id) := by
      rintro ⟨hbound, -, rfl⟩
      simp [Usable.writes, hbound] at h
    rw [if_neg h, if_neg hother]
    rfl

/-- A write touches one battler. -/
theorem find?_changeOne_of_ne (h : j ≠ id) (l : Ledger) (u : Usable) :
    (changeOne settings change id l u).find? j = l.find? j := by
  cases change <;> exact Ledger.find?_setCooldown_of_ne _ _ h _ _

/-- A write touches no warmup. -/
theorem warmup_changeOne (l : Ledger) (u : Usable) :
    (changeOne settings change id l u).warmup j s = l.warmup j s := by
  cases change <;> exact Ledger.warmup_setCooldown ..

/-- Going through skills, a command comes to a counter once for each skill that stands for it. -/
theorem cooldown_foldl_changeOne (us : List Usable) (l : Ledger) :
    (us.foldl (changeOne settings change id) l).cooldown id s =
      change.next^[us.countP (·.writes settings s)] (l.cooldown id s) := by
  induction us generalizing l with
  | nil => rfl
  | cons u us ih =>
    rw [List.foldl_cons, ih, cooldown_changeOne, List.countP_cons, Function.iterate_add_apply]

/-- Going through the skills of a battler touches that battler only. -/
theorem cooldown_changeAll_of_ne (h : j ≠ id) (l : Ledger) :
    (changeAll scope change b l id).cooldown j s = l.cooldown j s := by
  have hfind : (changeAll scope change b l id).find? j = l.find? j :=
    List.foldlRecOn (motive := fun l' : Ledger => l'.find? j = l.find? j) _ _ rfl
      fun l' hl' u _ => (find?_changeOne_of_ne h l' u).trans hl'
  rw [Ledger.cooldown, hfind, Ledger.cooldown]

theorem warmup_changeAll (l : Ledger) : (changeAll scope change b l id).warmup j s = l.warmup j s :=
  List.foldlRecOn (motive := fun l' : Ledger => l'.warmup j s = l.warmup j s) _ _ rfl
    fun l' hl' u _ => (warmup_changeOne l' u).trans hl'

/-- Going through targets, it does so again at every place where the battler is listed. -/
theorem cooldown_foldl_changeAll (ids : List BattlerId) (l : Ledger) :
    (ids.foldl (changeAll scope change b) l).cooldown j s =
      change.next^[ids.count j * (skills b j scope).countP (·.writes b.settings s)]
        (l.cooldown j s) := by
  induction ids generalizing l with
  | nil => simp
  | cons id ids ih =>
    rw [List.foldl_cons, ih, List.count_cons, Nat.add_mul, Function.iterate_add_apply]
    -- the first target is the battler, or another one
    by_cases hid : j = id
    · subst hid
      rw [changeAll, cooldown_foldl_changeOne, if_pos (beq_self_eq_true j), Nat.one_mul]
    · have hbeq : (id == j) = false := beq_eq_false_iff_ne.mpr (Ne.symm hid)
      rw [cooldown_changeAll_of_ne hid, hbeq, if_neg Bool.false_ne_true, Nat.zero_mul]
      rfl

/-! ## Skills by their numbers -/

/-- A skill that is looked up in a keyed database is the one with that number, and so it is written
if it is bound to cooldowns. -/
theorem writes_skill? (hkeyed : b.database.Keyed) (n s : Nat) :
    ((b.database.skill? n).map (·.writes b.settings s)).getD false =
      ((n == s) && (b.database.skill? s).any fun u => !u.bypasses b.settings) := by
  -- a keyed database has no entry under a number other than its own
  by_cases hn : n = s
  · subst hn
    cases hu : b.database.skill? n with
    | none => simp
    | some u => simp [Usable.writes, hkeyed n u hu]
  · cases hu : b.database.skill? n with
    | none => simp [hn]
    | some u => simp [Usable.writes, hkeyed n u hu, hn]

/-- The writes to a counter are the places of its number in the scope, if its skill is bound to
cooldowns. -/
theorem countP_skills (hkeyed : b.database.Keyed) (id : BattlerId) (scope : CooldownScope)
    (s : Nat) :
    (skills b id scope).countP (·.writes b.settings s) =
      if (b.database.skill? s).any fun u => !u.bypasses b.settings then
        (skillIds b id scope).count s else 0 := by
  rw [skills, List.countP_filterMap]
  simp only [writes_skill? hkeyed, List.count_eq_countP]
  split
  · next hbound => simp [hbound]
  · next hbound => simp [hbound]

/-- The numbers in scope are those that the battler knows, as far as the database has them. -/
theorem count_skillIds (hkeyed : b.database.Keyed) {u : Usable}
    (hu : b.database.skill? s = some u) (id : BattlerId) (scope : CooldownScope) :
    (skillIds b id scope).count s = scope.occurrences b id s := by
  have hknown : b.knownSkills id = (b.skillNumbers id).filterMap b.database.skill? := by
    unfold Battle.knownSkills Battle.skillNumbers
    cases b.roster.get? id <;> rfl
  have hcount (p : Usable → Bool) :
      (((b.knownSkills id).filter p).map (·.id)).count s =
        if p u then (b.skillNumbers id).count s else 0 := by
    rw [hknown, List.count_eq_countP, List.countP_map, List.countP_filter, List.countP_filterMap]
    -- of the numbers that the battler knows, the database has those that count
    have hnumber (n : Nat) :
        ((b.database.skill? n).map fun v => ((fun m => m == s) ∘ (·.id)) v && p v).getD false =
          ((n == s) && p u) := by
      by_cases hn : n = s
      · subst hn
        simp [hu, hkeyed n u hu]
      · cases hv : b.database.skill? n with
        | none => simp [beq_eq_false_iff_ne.mpr hn]
        | some v => simp [hkeyed n v hv, beq_eq_false_iff_ne.mpr hn]
    simp only [hnumber, List.count_eq_countP]
    split
    · next hp => simp [hp]
    · next hp => simp [hp]
  cases scope with
  | known =>
    have hall : (b.knownSkills id).filter (fun _ => true) = b.knownSkills id :=
      List.filter_eq_self.mpr fun _ _ => rfl
    rw [skillIds, ← hall, hcount, if_pos rfl, CooldownScope.occurrences]
  | skill n =>
    rw [skillIds, List.count_singleton, CooldownScope.occurrences]
    simp only [beq_iff_eq]
  | skillType stype =>
    rw [skillIds, hcount, CooldownScope.occurrences, hu, Option.any_some, Bool.beq_eq_decide_eq]

/-- A command applies its change to a counter once for each place of the battler among its targets
and each place of the skill in its scope, if the skill is bound to cooldowns, and else never. -/
theorem cooldown_foldl_of_keyed (hkeyed : b.database.Keyed) (ids : List BattlerId) (l : Ledger)
    (j : BattlerId) (s : Nat) :
    (ids.foldl (changeAll scope change b) l).cooldown j s =
      if (b.database.skill? s).any fun u => !u.bypasses b.settings then
        change.next^[ids.count j * scope.occurrences b j s] (l.cooldown j s)
      else l.cooldown j s := by
  rw [cooldown_foldl_changeAll, countP_skills hkeyed]
  -- a skill that is bound to cooldowns is one that the database has
  split
  · next hbound =>
    obtain ⟨u, hu, -⟩ := (Option.any_eq_true ..).mp hbound
    rw [count_skillIds hkeyed hu]
  · rw [Nat.mul_zero, Function.iterate_zero, id_eq]

/-- What the command does not reach it applies its change to zero times. -/
theorem cooldown_foldl_of_not_reaches (hkeyed : b.database.Keyed) {ids : List BattlerId}
    (h : ¬ scope.Reaches b ids j s) (l : Ledger) :
    (ids.foldl (changeAll scope change b) l).cooldown j s = l.cooldown j s := by
  rw [cooldown_foldl_of_keyed hkeyed]
  split
  · next hbound =>
    have hnever : ids.count j * scope.occurrences b j s = 0 := by
      by_contra hne
      obtain ⟨hmeant, hscope⟩ := Nat.mul_ne_zero_iff.mp hne
      exact h ⟨List.count_pos_iff.mp (Nat.pos_of_ne_zero hmeant), Nat.pos_of_ne_zero hscope, hbound⟩
    rw [hnever, Function.iterate_zero, id_eq]
  · rfl

end CooldownOp

namespace Chain

open CooldownOp

/-- **Cooldown commands keep to their scope.** A line that names a cooldown command changes
nothing but cooldowns, no warmup, and only the cooldowns of skills in its scope, of battlers that
its target argument means. If its value reads as an integer without a sign, each of these
cooldowns is that integer afterwards. If the value has a sign, it is added to each of them,
saturating, once for every place of the battler in the list of targets and every place of the
skill in the scope. If there is no value or it does not read as an integer, nothing changes. -/
theorem cooldown_command_keeps_to_scope (line : Command) (scope : CooldownScope)
    (hnamed : scope.IsNamedBy line.words) (scene : Scene) (hkeyed : scene.battle.database.Keyed) :
    let b := scene.battle
    let ids := b.targets scene.context (line.arg 0)
    ∃ l : Ledger,
      standard.dispatch line scene =
        (.proceed, { scene with battle := { b with cooldowns := l } }) ∧
      (∀ id s, l.warmup id s = b.cooldowns.warmup id s) ∧
      (∀ id s, ¬ scope.Reaches b ids id s → l.cooldown id s = b.cooldowns.cooldown id s) ∧
      (∀ v x, line.arg 1 = some v → Operand.int? v = some x →
        (¬ Operand.IsSigned v → ∀ id s, scope.Reaches b ids id s → l.cooldown id s = x) ∧
        (Operand.IsSigned v → ∀ id s, scope.Reaches b ids id s →
          l.cooldown id s = (fun y => saturate (y + x))^[ids.count id * scope.occurrences b id s]
            (b.cooldowns.cooldown id s))) ∧
      ((line.arg 1).bind Operand.int? = none → l = b.cooldowns) := by
  intro b ids
  rw [dispatch_cooldown (ofCommand?_of_isNamedBy hnamed)]
  cases hchange : (line.arg 1).bind CooldownChange.ofString? with
  | none =>
    refine ⟨b.cooldowns, rfl, fun _ _ => rfl, fun _ _ _ => rfl, ?_, fun _ => rfl⟩
    intro v x hv hx
    rw [hv, Option.bind_some, change_of_int? hx] at hchange
    cases hchange
  | some change =>
    refine ⟨ids.foldl (changeAll scope change b) b.cooldowns, rfl, ?_, ?_, ?_, ?_⟩
    · intro id s
      exact List.foldlRecOn (motive := fun l : Ledger => l.warmup id s = b.cooldowns.warmup id s)
        _ _ rfl fun l hl j _ => (warmup_changeAll l).trans hl
    · intro id s hreach
      exact cooldown_foldl_of_not_reaches hkeyed hreach _
    · intro v x hv hx
      rw [hv, Option.bind_some, change_of_int? hx, Option.some.injEq] at hchange
      constructor
      · intro hsign id s hreach
        rw [if_neg hsign] at hchange
        rw [cooldown_foldl_of_keyed hkeyed, if_pos hreach.bound, ← hchange]
        exact CooldownChange.iterate_next_set x _
          (Nat.mul_pos (List.count_pos_iff.mpr hreach.meant) hreach.inScope)
      · intro hsign id s hreach
        rw [if_pos hsign] at hchange
        rw [cooldown_foldl_of_keyed hkeyed, if_pos hreach.bound, ← hchange]
        rfl
    · intro hnone
      obtain ⟨v, hv, hchange⟩ := Option.bind_eq_some_iff.mp hchange
      rw [hv, Option.bind_some] at hnone
      rw [CooldownChange.ofString?, hnone] at hchange
      cases hchange

/-- Ann knows the skill twice and is meant twice, so that three is added four times. -/
theorem cooldown_command_keeps_to_scope_twice :
    let s : Scenario := { Scenario.solo with
      party := [{ name := "Ann", mhp := 10, skills := [10, 10] }]
      skills := [{ id := 10, name := "Slash" }]
      targets := [.actor 0, .actor 0] }
    let line := Command.ofLine "global cooldown: targets, +3"
    CooldownScope.known.IsNamedBy line.words ∧ s.battle.database.Keyed ∧
      ∃ l : Ledger, standard.dispatch line ⟨s.battle, s.context⟩ =
          (.proceed, ⟨{ s.battle with cooldowns := l }, s.context⟩) ∧
        l.cooldown (.actor 0) 10 = 12 := by
  intro s line
  have hnamed : line.words = ["GLOBAL", "COOLDOWN"] := by decide +kernel
  have hkeyed : s.battle.database.Keyed := s.keyed_database
  obtain ⟨l, hl, -, -, hvalue, -⟩ :=
    cooldown_command_keeps_to_scope line .known hnamed ⟨s.battle, s.context⟩ hkeyed
  have hreach : CooldownScope.known.Reaches s.battle
      (s.battle.targets s.context (line.arg 0)) (.actor 0) 10 := by
    constructor <;> decide +kernel
  refine ⟨hnamed, hkeyed, l, hl, ?_⟩
  rw [(hvalue "+3" 3 (by decide +kernel) (by decide +kernel)).2 (by decide +kernel) _ _ hreach]
  decide +kernel

end Chain

end BattleScript
