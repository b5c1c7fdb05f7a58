import BattleScript.Battler.Id
import BattleScript.Item.Database

/-!
# The cooldown ledger

For every battler, how long its skills are still locked: by a cooldown, and since the start of the
battle by a warmup. A skill is ready when neither is positive. Skills that bypass cooldowns never
get an entry.

* `cooldown_setCooldown`: writing a cooldown is seen at that battler and skill only, and not at all
  for a bypassing skill; `warmup_setCooldown`: no warmup changes.
* `pay` charges the costs of a used skill, each raising a counter and never lowering it;
  `applyChanges` adds the changes of an effect.
* `updateTurn`, `updateSteps` and `endBattle` move existing counters on (`moveOn`).

Counters are exact integers. `addCooldown` saturates; what moves counters on does not, and a counter
that leaves the signed 32-bit range by it is an `overflow`, after which the ledger has no meaning.
-/

namespace BattleScript

/-- The counters of a battler. -/
structure Timers where
  cooldown : OrderedMap Nat Int := ∅
  warmup : OrderedMap Nat Int := ∅
  deriving DecidableEq, Repr

/-- Every counter is in the signed 32-bit range. -/
def Timers.InRange (t : Timers) : Prop :=
  (∀ x ∈ t.cooldown.values, FitsInt32 x) ∧ ∀ x ∈ t.warmup.values, FitsInt32 x

instance (t : Timers) : Decidable t.InRange := by unfold Timers.InRange; infer_instance

/-- The counters of all battlers. -/
structure Ledger where
  timers : OrderedMap BattlerId Timers := ∅
  /-- Whether a counter was ever moved on out of its range. -/
  overflow : Bool := false
  deriving DecidableEq, Repr

namespace Ledger

/-- The counters of a battler, if it ever had one. -/
def find? (l : Ledger) (b : BattlerId) : Option Timers := l.timers.find? b

/-- The cooldown counter of a skill, if it ever had one. -/
def counter? (l : Ledger) (b : BattlerId) (skill : Nat) : Option Int :=
  (l.find? b).bind (·.cooldown.find? skill)

/-- The cooldown of a skill; none is zero. -/
def cooldown (l : Ledger) (b : BattlerId) (skill : Nat) : Int :=
  ((l.find? b).bind (·.cooldown.find? skill)).getD 0

/-- The warmup of a skill; none is zero. -/
def warmup (l : Ledger) (b : BattlerId) (skill : Nat) : Int :=
  ((l.find? b).bind (·.warmup.find? skill)).getD 0

/-- Whether a battler may use a skill. -/
def isReady (l : Ledger) (b : BattlerId) (skill : Nat) : Bool :=
  l.cooldown b skill ≤ 0 && l.warmup b skill ≤ 0

/-- Changes the counters of a battler, which get an entry by it. -/
def update (l : Ledger) (b : BattlerId) (f : Timers → Timers) : Ledger :=
  { l with timers := l.timers.insert b (f ((l.find? b).getD {})) }

/-- A change of counters is seen at its own battler, which gets an entry even if it had none. -/
theorem find?_update (l : Ledger) (b c : BattlerId) (f : Timers → Timers) :
    (l.update b f).find? c = if c = b then some (f ((l.find? b).getD {})) else l.find? c :=
  OrderedMap.find?_insert ..

/-- What holds of all counters, and of none, holds after a change that keeps it. -/
theorem forall_find?_update {P : Timers → Prop} (hempty : P {}) {l : Ledger}
    (h : ∀ c t, l.find? c = some t → P t) (b : BattlerId) {f : Timers → Timers}
    (hf : ∀ t, P t → P (f t)) : ∀ c t, (l.update b f).find? c = some t → P t := by
  intro c t ht
  rw [find?_update] at ht
  split at ht
  · cases ht
    cases hb : l.find? b with
    | none => exact hf _ hempty
    | some t => exact hf t (h b t hb)
  · exact h c t ht

/-- Sets the cooldown of a skill. -/
def setCooldown (settings : Settings) (l : Ledger) (b : BattlerId) (skill : Usable) (x : Int) :
    Ledger :=
  if skill.bypasses settings then l
  else l.update b fun t => { t with cooldown := t.cooldown.insert skill.id x }

/-- Adds to the cooldown of a skill, saturating. -/
def addCooldown (settings : Settings) (l : Ledger) (b : BattlerId) (skill : Usable) (x : Int) :
    Ledger :=
  l.setCooldown settings b skill (saturate (l.cooldown b skill.id + x))

/-- Raises the cooldown of a skill to at least the given value. -/
def raiseCooldown (settings : Settings) (l : Ledger) (b : BattlerId) (skill : Usable) (x : Int) :
    Ledger :=
  l.setCooldown settings b skill (max x (l.cooldown b skill.id))

/-- Writing a cooldown is seen at its own battler and skill, unless the skill bypasses cooldowns;
then it is not seen at all. -/
theorem counter?_setCooldown (settings : Settings) (l : Ledger) (b c : BattlerId) (skill : Usable)
    (x : Int) (s : Nat) :
    (l.setCooldown settings b skill x).counter? c s =
      if skill.bypasses settings = false ∧ c = b ∧ s = skill.id then some x
      else l.counter? c s := by
  unfold setCooldown
  split
  · simp_all
  · simp only [counter?, find?_update]
    by_cases hc : c = b
    · subst hc
      -- the same battler, with or without counters so far; another skill keeps its counter
      by_cases hs : s = skill.id <;> cases h : l.find? c <;>
        simp_all [OrderedMap.find?_insert]
      all_goals rfl
    · simp [hc]

/-- The same of the cooldown, which is zero as long as there is no counter. -/
theorem cooldown_setCooldown (settings : Settings) (l : Ledger) (b c : BattlerId) (skill : Usable)
    (x : Int) (s : Nat) :
    (l.setCooldown settings b skill x).cooldown c s =
      if skill.bypasses settings = false ∧ c = b ∧ s = skill.id then x else l.cooldown c s := by
  have hcounter := counter?_setCooldown settings l b c skill x s
  show ((l.setCooldown settings b skill x).counter? c s).getD 0 = _
  rw [hcounter]
  split <;> rfl

/-- Writing a cooldown leaves the other battlers alone. -/
theorem find?_setCooldown_of_ne (settings : Settings) (l : Ledger) {b c : BattlerId} (hc : c ≠ b)
    (skill : Usable) (x : Int) : (l.setCooldown settings b skill x).find? c = l.find? c := by
  unfold setCooldown
  split
  · rfl
  · rw [find?_update, if_neg hc]

/-- Writing the cooldown that a skill has changes nothing. -/
theorem setCooldown_eq_self {settings : Settings} {l : Ledger} {b : BattlerId} {skill : Usable}
    {x : Int} (h : l.counter? b skill.id = some x) : l.setCooldown settings b skill x = l := by
  obtain ⟨t, ht, hx⟩ := Option.bind_eq_some_iff.mp h
  unfold setCooldown
  split
  · rfl
  · have hcooldown : t.cooldown.insert skill.id x = t.cooldown := OrderedMap.insert_eq_self hx
    rw [update, ht, Option.getD_some, hcooldown, OrderedMap.insert_eq_self ht]

/-- Writing a cooldown changes no warmup, not even by the entry that it may create. -/
theorem warmup_setCooldown (settings : Settings) (l : Ledger) (b c : BattlerId) (skill : Usable)
    (x : Int) (s : Nat) :
    (l.setCooldown settings b skill x).warmup c s = l.warmup c s := by
  unfold setCooldown
  split
  · rfl
  · simp only [warmup, find?_update]
    by_cases hc : c = b
    · subst hc
      cases h : l.find? c <;> simp_all
      all_goals rfl
    · simp [hc]

/-- Starts the warmups of the known skills. -/
def startWarmups (settings : Settings) (l : Ledger) (b : BattlerId) (known : List Usable) :
    Ledger :=
  known.foldl (fun l skill =>
    if skill.bypasses settings then l
    else l.update b fun t => { t with warmup := t.warmup.insert skill.id skill.cooldown.warmup }) l

/-- Raises the cooldowns of several skills to at least the given value. -/
def raiseAll (settings : Settings) (l : Ledger) (b : BattlerId) (skills : List Usable) (x : Int) :
    Ledger :=
  skills.foldl (fun l skill => l.raiseCooldown settings b skill x) l

/-- Raises the cooldown of the skill with a number, if there is one. -/
def raiseById (settings : Settings) (database : Database) (l : Ledger) (b : BattlerId) (id : Nat)
    (x : Int) : Ledger :=
  match database.skill? id with
  | some skill => l.raiseCooldown settings b skill x
  | none => l

/-- Charges the costs of a used skill: the global cost to all known skills, the cost of each skill
type to the known skills of the type, its own cost and the costs of single skills. The used skill
gets an entry in any case, and is left with no negative cooldown. -/
def pay (settings : Settings) (database : Database) (l : Ledger) (b : BattlerId) (used : Usable)
    (known : List Usable) : Ledger :=
  let rules := used.cooldown
  let l := l.raiseAll settings b known rules.globalCooldown
  let l := rules.stypeCooldown.entries.foldl (fun l (stype, x) =>
    l.raiseAll settings b (known.filter (·.stypeId == stype)) x) l
  let single := (rules.cooldown.map fun x => (used.id, x)).toList ++ rules.skillCooldown.entries
  let l := single.foldl (fun l (id, x) => l.raiseById settings database b id x) l
  l.setCooldown settings b used (max (l.cooldown b used.id) 0)

/-- Adds to the cooldowns of several skills. -/
def addAll (settings : Settings) (l : Ledger) (b : BattlerId) (skills : List Usable) (x : Int) :
    Ledger :=
  skills.foldl (fun l skill => l.addCooldown settings b skill x) l

/-- Adds to the cooldown of the skill with a number, if there is one. -/
def addById (settings : Settings) (database : Database) (l : Ledger) (b : BattlerId) (id : Nat)
    (x : Int) : Ledger :=
  match database.skill? id with
  | some skill => l.addCooldown settings b skill x
  | none => l

/-- Adds the changes of an effect: the global one to all known skills, that of each skill type to
the known skills of the type, and those of single skills. -/
def applyChanges (settings : Settings) (database : Database) (l : Ledger) (b : BattlerId)
    (source : Usable) (known : List Usable) : Ledger :=
  let rules := source.cooldown
  let l := if rules.globalChange = 0 then l else l.addAll settings b known rules.globalChange
  let l := rules.stypeChange.entries.foldl (fun l (stype, x) =>
    l.addAll settings b (known.filter (·.stypeId == stype)) x) l
  rules.skillChange.entries.foldl (fun l (id, x) => l.addById settings database b id x) l

/-- Moves the counters of a battler on, if it has any. -/
def moveOn (l : Ledger) (b : BattlerId) (f : Timers → Timers) : Ledger where
  timers := l.timers.modify b f
  overflow := l.overflow || (l.find? b).any fun t => !decide (f t).InRange

/-- Moving counters on is seen at its own battler, and gives nobody an entry. -/
theorem find?_moveOn (l : Ledger) (b c : BattlerId) (f : Timers → Timers) :
    (l.moveOn b f).find? c = if c = b then (l.find? c).map f else l.find? c :=
  OrderedMap.find?_modify ..

/-- What holds of all counters holds after they are moved on in a way that keeps it. -/
theorem forall_find?_moveOn {P : Timers → Prop} {l : Ledger}
    (h : ∀ c t, l.find? c = some t → P t) (b : BattlerId) {f : Timers → Timers}
    (hf : ∀ t, P t → P (f t)) : ∀ c t, (l.moveOn b f).find? c = some t → P t := by
  intro c t ht
  rw [find?_moveOn] at ht
  split at ht
  · obtain ⟨before, hbefore, rfl⟩ := Option.map_eq_some_iff.mp ht
    exact hf before (h c before hbefore)
  · exact h c t ht

/-- A turn less on every counter of a battler. -/
def updateTurn (l : Ledger) (b : BattlerId) : Ledger :=
  l.moveOn b fun t =>
    ⟨t.cooldown.mapValues fun _ x => x - 1, t.warmup.mapValues fun _ x => x - 1⟩

/-- The number of steps that take one off the cooldown of a skill. -/
def stepInterval (settings : Settings) (skill : Usable) : Nat :=
  max (skill.cooldown.steps.getD settings.cooldownSteps) 1

/-- One less on the cooldowns whose interval divides the number of steps taken. -/
def updateSteps (settings : Settings) (database : Database) (l : Ledger) (b : BattlerId)
    (steps : Nat) : Ledger :=
  l.moveOn b fun t => { t with
    cooldown := t.cooldown.mapValues fun id x =>
      match database.skill? id with
      | some skill => if steps % stepInterval settings skill = 0 then x - 1 else x
      | none => x }

/-- What the end of a battle adds to the cooldown of a skill. -/
def battleAdjustment (settings : Settings) (database : Database) (id : Nat) : Int :=
  ((database.skill? id).bind (·.cooldown.afterBattle)).getD settings.cooldownAfterBattle

/-- Adjusts the cooldowns of a battler to the end of a battle, which ends its warmups. -/
def endBattle (settings : Settings) (database : Database) (l : Ledger) (b : BattlerId) : Ledger :=
  l.moveOn b fun t =>
    ⟨t.cooldown.mapValues fun id x => x + battleAdjustment settings database id, ∅⟩

end Ledger

end BattleScript
