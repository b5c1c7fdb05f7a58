import BattleScript.Opcode.Cooldown
import BattleScript.Proofs.Cooldown.Payment
import BattleScript.Proofs.Cooldown.Rules
import Mathlib.Data.List.Induction

/-!
# Counters in their range

What writes cooldowns from notes and scripts keeps every counter in the signed 32-bit range:
additions saturate, and the values themselves are in range (`Ledger.Keeps`). What moves counters
on at the end of a turn, with a step or at the end of a battle does not saturate. It takes a
counter out of its range if and only if it strains it (`LedgerOp.Strains`): one that stands at the
least value has to go down, or an adjustment leads out of the range.

`LedgerOp.run_inRange_iff` says this of every sequence of operations. A counter does get there: a
single change can put it at the least value, and the end of a turn then takes it out of its range
(`LedgerOp.run_least_turn`).
-/

namespace BattleScript

namespace Ledger

/-- Every counter of every battler is in range. -/
def InRange (l : Ledger) : Prop := ∀ b t, l.find? b = some t → t.InRange

/-- Keeps the counters in range, and none of them overflows. -/
structure Keeps (l l' : Ledger) : Prop where
  inRange : l.InRange → l'.InRange
  overflow : l'.overflow = l.overflow

variable {l l' l'' : Ledger} {settings : Settings} {database : Database} {b : BattlerId}

theorem inRange_empty : InRange {} := nofun

/-! ## Writing counters -/

theorem Keeps.refl (l : Ledger) : Keeps l l := ⟨fun h => h, rfl⟩

theorem Keeps.trans (h : Keeps l l') (h' : Keeps l' l'') : Keeps l l'' :=
  ⟨fun hl => h'.inRange (h.inRange hl), h'.overflow.trans h.overflow⟩

/-- A loop keeps the counters in range if each of its steps does. -/
theorem Keeps.foldl {α : Type} {f : Ledger → α → Ledger} {as : List α}
    (h : ∀ a ∈ as, ∀ l, Keeps l (f l a)) (l : Ledger) : Keeps l (as.foldl f l) := by
  induction as generalizing l with
  | nil => exact .refl l
  | cons a as ih =>
    have hfirst := h a List.mem_cons_self l
    exact hfirst.trans (ih (fun a ha => h a (List.mem_cons_of_mem _ ha)) _)

/-- A change of counters keeps them in range if it does so battler by battler. -/
theorem keeps_update {f : Timers → Timers} (hf : ∀ t : Timers, t.InRange → (f t).InRange)
    (l : Ledger) (b : BattlerId) : Keeps l (l.update b f) :=
  ⟨fun hl => forall_find?_update (P := Timers.InRange) ⟨nofun, nofun⟩ hl b hf, rfl⟩

/-- Every reading of a ledger in range is in range, since none reads as zero. -/
theorem fitsInt32_cooldown (h : l.InRange) (b : BattlerId) (skill : Nat) :
    FitsInt32 (l.cooldown b skill) := by
  unfold cooldown
  cases hx : (l.find? b).bind (·.cooldown.find? skill) with
  | none => exact (by decide : FitsInt32 0)
  | some x =>
    obtain ⟨t, ht, hx⟩ := Option.bind_eq_some_iff.mp hx
    exact (h b t ht).1 x (OrderedMap.mem_values_of_find? hx)

/-- A cooldown is set to a value that is in range if the others are. -/
theorem inRange_setCooldown {x : Int} (hl : l.InRange) (hx : FitsInt32 x) (b : BattlerId)
    (skill : Usable) : (l.setCooldown settings b skill x).InRange := by
  unfold setCooldown
  split
  · exact hl
  · refine (keeps_update (fun t ht => ?_) l b).inRange hl
    exact ⟨OrderedMap.forall_mem_values_insert ht.1 hx, ht.2⟩

/-- To write a cooldown is not to move one on, so no overflow comes of it. -/
theorem overflow_setCooldown (l : Ledger) (b : BattlerId) (skill : Usable) (x : Int) :
    (l.setCooldown settings b skill x).overflow = l.overflow := by
  unfold setCooldown
  split <;> rfl

/-- To write a value in range keeps the counters in range. -/
theorem keeps_setCooldown {x : Int} (hx : FitsInt32 x) (l : Ledger) (b : BattlerId)
    (skill : Usable) : Keeps l (l.setCooldown settings b skill x) :=
  ⟨fun hl => inRange_setCooldown hl hx b skill, overflow_setCooldown l b skill x⟩

/-- Additions saturate, whatever is added. -/
theorem keeps_addCooldown (l : Ledger) (b : BattlerId) (skill : Usable) (x : Int) :
    Keeps l (l.addCooldown settings b skill x) :=
  keeps_setCooldown (fitsInt32_saturate _) l b skill

/-- A raise ends at the old value or the new one, and both are in range. -/
theorem keeps_raiseCooldown {x : Int} (hx : FitsInt32 x) (l : Ledger) (b : BattlerId)
    (skill : Usable) : Keeps l (l.raiseCooldown settings b skill x) := by
  refine ⟨fun hl => inRange_setCooldown hl ?_ b skill, overflow_setCooldown l b skill _⟩
  obtain ⟨hlow, hhigh⟩ := fitsInt32_cooldown hl b skill.id
  exact ⟨Int.le_trans hx.1 (Int.le_max_left ..), Int.max_le.mpr ⟨hx.2, hhigh⟩⟩

/-- Warmups are those of notes, which are read in the range. -/
theorem keeps_startWarmups {known : List Usable} (h : ∀ skill ∈ known, skill.cooldown.Fits)
    (l : Ledger) (b : BattlerId) : Keeps l (l.startWarmups settings b known) := by
  refine Keeps.foldl (fun skill hskill l => ?_) l
  split
  · exact .refl l
  · refine keeps_update (fun t ht => ?_) l b
    have hwarmup := (h skill hskill).warmup
    exact ⟨ht.1, OrderedMap.forall_mem_values_insert ht.2 hwarmup⟩

/-- Every charge is in range, for its number is from a note or zero. -/
theorem fits_of_mem_charges {used : Usable} {known : List Usable} (h : used.cooldown.Fits)
    {c : Charge} (hc : c ∈ charges database used known) : FitsInt32 c.2 := by
  rcases of_mem_charges hc with ⟨-, hx | hx⟩ | ⟨-, hx | hx⟩ | rfl
  · exact hx ▸ h.globalCooldown
  · exact h.stypeCooldown c.2 hx
  · exact h.cooldown c.2 hx
  · exact h.skillCooldown c.2 hx
  · exact (by decide : FitsInt32 0)

/-- So a payment keeps the counters in range. -/
theorem keeps_pay {used : Usable} (h : used.cooldown.Fits) (l : Ledger) (b : BattlerId)
    (known : List Usable) : Keeps l (l.pay settings database b used known) := by
  rw [pay_eq]
  exact Keeps.foldl (fun c hc l => keeps_raiseCooldown (fits_of_mem_charges h hc) l b c.1) l

/-- So do the changes of an effect, whatever their numbers are. -/
theorem keeps_applyChanges (l : Ledger) (b : BattlerId) (source : Usable) (known : List Usable) :
    Keeps l (l.applyChanges settings database b source known) := by
  rw [applyChanges_eq]
  exact Keeps.foldl (fun c _ l => keeps_addCooldown l b c.1 c.2) l

end Ledger

namespace CooldownOp

open Ledger (Keeps)

/-- The values that a command can name are in range. -/
theorem fits_of_ofString? {s : String} {x : Int}
    (h : CooldownChange.ofString? s = some (.set x)) : FitsInt32 x := by
  obtain ⟨y, hy, heq⟩ := Option.map_eq_some_iff.mp h
  split at heq
  · cases heq
  · cases heq
    exact Text.fitsInt32_of_leadingInt? hy

/-- A cooldown command keeps the counters in range. -/
theorem keeps_run {command : Command} {op : CooldownOp} (h : ofCommand? command = some op)
    (c : ActionContext) (b : Battle) : Keeps b.cooldowns (op.run c b).2.cooldowns := by
  obtain ⟨scope, -, rfl⟩ := Option.map_eq_some_iff.mp h
  unfold run
  split
  · exact .refl _
  · next change hchange =>
    refine Keeps.foldl (fun id _ l => Keeps.foldl (fun skill _ l => ?_) l) _
    -- an addition saturates, and a value to be set was read in the range
    cases change with
    | add x => exact Ledger.keeps_addCooldown l id skill x
    | set x =>
      obtain ⟨s, -, hs⟩ := Option.bind_eq_some_iff.mp hchange
      exact Ledger.keeps_setCooldown (fits_of_ofString? hs) l id skill

end CooldownOp

/-! ## Moving counters on -/

namespace Ledger

variable {l : Ledger} {b : BattlerId} {f : Timers → Timers}

/-- Counters are moved on out of their range. -/
def Leaves (l : Ledger) (b : BattlerId) (f : Timers → Timers) : Prop :=
  ∃ t, l.find? b = some t ∧ ¬ (f t).InRange

/-- An overflow is noted exactly when counters leave their range, and is never forgotten. -/
theorem overflow_moveOn_iff (l : Ledger) (b : BattlerId) (f : Timers → Timers) :
    (l.moveOn b f).overflow = true ↔ l.overflow = true ∨ l.Leaves b f := by
  simp [moveOn, Leaves, Option.any_eq_true]

/-- A ledger stays in range exactly when no counters leave it. -/
theorem inRange_moveOn_iff (h : l.InRange) : (l.moveOn b f).InRange ↔ ¬ l.Leaves b f := by
  constructor
  · rintro hmoved ⟨t, ht, hleaves⟩
    refine hleaves (hmoved b (f t) ?_)
    rw [find?_moveOn, if_pos rfl, ht]
    rfl
  · intro hstays c t ht
    rw [find?_moveOn] at ht
    split at ht
    · next hc =>
      obtain ⟨u, hu, rfl⟩ := Option.map_eq_some_iff.mp ht
      exact Decidable.byContradiction fun hleaves => hstays ⟨u, hc ▸ hu, hleaves⟩
    · exact h c t ht

end Ledger

/-- An operation on a ledger. -/
inductive LedgerOp
  | set (settings : Settings) (b : BattlerId) (skill : Usable) (x : Int)
  | add (settings : Settings) (b : BattlerId) (skill : Usable) (x : Int)
  | raise (settings : Settings) (b : BattlerId) (skill : Usable) (x : Int)
  | warmups (settings : Settings) (b : BattlerId) (known : List Usable)
  | pay (settings : Settings) (database : Database) (b : BattlerId) (used : Usable)
      (known : List Usable)
  | changes (settings : Settings) (database : Database) (b : BattlerId) (source : Usable)
      (known : List Usable)
  /-- A command of a script, in an action of a battle that has the ledger. -/
  | script (line : Command) (c : ActionContext) (b : Battle)
  | turn (b : BattlerId)
  | walk (settings : Settings) (database : Database) (b : BattlerId) (steps : Nat)
  | finish (settings : Settings) (database : Database) (b : BattlerId)

namespace LedgerOp

/-- The ledger after an operation. -/
def apply (l : Ledger) : LedgerOp → Ledger
  | set settings b skill x => l.setCooldown settings b skill x
  | add settings b skill x => l.addCooldown settings b skill x
  | raise settings b skill x => l.raiseCooldown settings b skill x
  | warmups settings b known => l.startWarmups settings b known
  | pay settings database b used known => l.pay settings database b used known
  | changes settings database b source known => l.applyChanges settings database b source known
  | script line c b =>
    match CooldownOp.ofCommand? line with
    | some op => (op.run c { b with cooldowns := l }).2.cooldowns
    | none => l
  | turn b => l.updateTurn b
  | walk settings database b steps => l.updateSteps settings database b steps
  | finish settings database b => l.endBattle settings database b

/-- The ledger after operations, in their order, of an empty one. -/
def run (ops : List LedgerOp) : Ledger := ops.foldl apply {}

/-- The values that the operation is given, directly or by the rules of skills, are in range. -/
def Fits : LedgerOp → Prop
  | set _ _ _ x | add _ _ _ x | raise _ _ _ x => FitsInt32 x
  | warmups _ _ known => ∀ skill ∈ known, skill.cooldown.Fits
  | pay _ _ _ used _ => used.cooldown.Fits
  | changes _ _ _ source _ => source.cooldown.Fits
  | script .. | turn .. | walk .. | finish .. => True

/-- The operation leads a counter out of its range: it has to go below the least value, or an
adjustment leads beyond the range. -/
def Strains (l : Ledger) : LedgerOp → Prop
  | turn b => ∃ t, l.find? b = some t ∧ (int32Min ∈ t.cooldown.values ∨ int32Min ∈ t.warmup.values)
  | walk settings database b steps => ∃ t, l.find? b = some t ∧ ∃ k skill,
      (k, int32Min) ∈ t.cooldown.entries ∧ database.skill? k = some skill ∧
      steps % Ledger.stepInterval settings skill = 0
  | finish settings database b => ∃ t, l.find? b = some t ∧ ∃ k x, (k, x) ∈ t.cooldown.entries ∧
      ¬ FitsInt32 (x + Ledger.battleAdjustment settings database k)
  | set .. | add .. | raise .. | warmups .. | pay .. | changes .. | script .. => False

variable {l : Ledger} {op : LedgerOp} {ops : List LedgerOp}

/-! ### What strains a counter -/

/-- A counter in range has one less but for the least value. -/
theorem fitsInt32_pred_iff {x : Int} (h : FitsInt32 x) : FitsInt32 (x - 1) ↔ x ≠ int32Min := by
  unfold FitsInt32 at *
  omega

/-- One can be taken off all counters of a battler if none of them stands at the least value. -/
theorem forall_fits_pred_iff {m : OrderedMap Nat Int} (h : ∀ x ∈ m.values, FitsInt32 x) :
    (∀ x ∈ (m.mapValues fun _ x => x - 1).values, FitsInt32 x) ↔ int32Min ∉ m.values := by
  rw [OrderedMap.forall_mem_values_mapValues]
  constructor
  · intro hpred hmem
    obtain ⟨⟨k, x⟩, hkx, hx⟩ := List.mem_map.mp hmem
    exact (fitsInt32_pred_iff (h x (List.mem_map_of_mem hkx))).mp (hpred k x hkx) hx
  · intro hmem k x hkx
    have hx := List.mem_map_of_mem (f := (·.2)) hkx
    exact (fitsInt32_pred_iff (h x hx)).mpr fun heq => hmem (heq ▸ hx)

/-- Whether counters leave their range is known of each battler by itself. -/
theorem leaves_iff (h : l.InRange) {b : BattlerId} {f : Timers → Timers} {P : Timers → Prop}
    (hf : ∀ t : Timers, t.InRange → ((f t).InRange ↔ ¬ P t)) :
    l.Leaves b f ↔ ∃ t, l.find? b = some t ∧ P t := by
  refine exists_congr fun t => and_congr_right fun ht => ?_
  rw [hf t (h b t ht), Classical.not_not]

/-- The end of a turn strains the counters at the least value. -/
theorem leaves_turn_iff (h : l.InRange) (b : BattlerId) : (l.Leaves b fun t =>
      ⟨t.cooldown.mapValues fun _ x => x - 1, t.warmup.mapValues fun _ x => x - 1⟩) ↔
    (turn b).Strains l := by
  refine leaves_iff h fun t ht => ?_
  rw [not_or]
  exact and_congr (forall_fits_pred_iff ht.1) (forall_fits_pred_iff ht.2)

/-- A step strains those of them whose interval it completes. -/
theorem leaves_walk_iff (h : l.InRange) (settings : Settings) (database : Database) (b : BattlerId)
    (n : Nat) : (l.Leaves b fun t => { t with
      cooldown := t.cooldown.mapValues fun id x =>
        match database.skill? id with
        | some skill => if n % Ledger.stepInterval settings skill = 0 then x - 1 else x
        | none => x }) ↔
    (walk settings database b n).Strains l := by
  refine leaves_iff h fun t ht => (and_iff_left ht.2).trans ?_
  rw [OrderedMap.forall_mem_values_mapValues]
  -- a skill that the database has lost is not counted down at all
  constructor
  · rintro hfits ⟨k, skill, hmem, hskill, hdue⟩
    have hstep := hfits k int32Min hmem
    rw [hskill] at hstep
    dsimp only at hstep
    rw [if_pos hdue] at hstep
    exact absurd hstep (by decide)
  · intro hspared k x hmem
    have hx : FitsInt32 x := ht.1 x (List.mem_map_of_mem (f := (·.2)) hmem)
    cases hskill : database.skill? k with
    | none => exact hx
    | some skill =>
      dsimp only
      split
      · next hdue =>
        refine (fitsInt32_pred_iff hx).mpr fun heq => ?_
        exact hspared ⟨k, skill, heq ▸ hmem, hskill, hdue⟩
      · exact hx

/-- The end of a battle strains a counter if its adjustment leads out of the range. -/
theorem leaves_finish_iff (h : l.InRange) (settings : Settings) (database : Database)
    (b : BattlerId) : (l.Leaves b fun t =>
      ⟨t.cooldown.mapValues fun id x => x + Ledger.battleAdjustment settings database id, ∅⟩) ↔
    (finish settings database b).Strains l := by
  refine leaves_iff h fun t ht => ?_
  -- no warmup is left
  refine (and_iff_left nofun).trans ?_
  rw [OrderedMap.forall_mem_values_mapValues]
  constructor
  · rintro hfits ⟨k, x, hmem, hout⟩
    exact hout (hfits k x hmem)
  · intro hin k x hmem
    exact Decidable.byContradiction fun hout => hin ⟨k, x, hmem, hout⟩

/-- An operation writes counters and keeps them in range, or it moves them on. -/
theorem keeps_or_moves (op : LedgerOp) (hop : op.Fits) (l : Ledger) :
    l.Keeps (op.apply l) ∧ ¬ op.Strains l ∨
    ∃ b f, op.apply l = l.moveOn b f ∧ (l.InRange → (l.Leaves b f ↔ op.Strains l)) := by
  cases op with
  | set settings b skill x => exact .inl ⟨Ledger.keeps_setCooldown hop l b skill, not_false⟩
  | add settings b skill x => exact .inl ⟨Ledger.keeps_addCooldown l b skill x, not_false⟩
  | raise settings b skill x => exact .inl ⟨Ledger.keeps_raiseCooldown hop l b skill, not_false⟩
  | warmups settings b known => exact .inl ⟨Ledger.keeps_startWarmups hop l b, not_false⟩
  | pay settings database b used known => exact .inl ⟨Ledger.keeps_pay hop l b known, not_false⟩
  | changes settings database b source known =>
    exact .inl ⟨Ledger.keeps_applyChanges l b source known, not_false⟩
  | script line c b =>
    refine .inl ⟨?_, not_false⟩
    unfold apply
    dsimp only
    split
    · next op hread => exact CooldownOp.keeps_run hread c { b with cooldowns := l }
    · exact .refl l
  | turn b => exact .inr ⟨b, _, rfl, fun h => leaves_turn_iff h b⟩
  | walk settings database b n =>
    exact .inr ⟨b, _, rfl, fun h => leaves_walk_iff h settings database b n⟩
  | finish settings database b =>
    exact .inr ⟨b, _, rfl, fun h => leaves_finish_iff h settings database b⟩

/-- An operation leaves a ledger in range exactly when it strains nothing. -/
theorem inRange_apply_iff (h : l.InRange) (hop : op.Fits) :
    (op.apply l).InRange ↔ ¬ op.Strains l := by
  rcases op.keeps_or_moves hop l with ⟨hkeeps, hspares⟩ | ⟨b, f, heq, hleaves⟩
  · exact iff_of_true (hkeeps.inRange h) hspares
  · rw [heq, Ledger.inRange_moveOn_iff h, hleaves h]

/-- A new overflow comes of strain and of nothing else. -/
theorem overflow_apply_iff (h : l.InRange) (hop : op.Fits) :
    (op.apply l).overflow = true ↔ l.overflow = true ∨ op.Strains l := by
  rcases op.keeps_or_moves hop l with ⟨hkeeps, hspares⟩ | ⟨b, f, heq, hleaves⟩
  · rw [hkeeps.overflow, or_iff_left hspares]
  · rw [heq, Ledger.overflow_moveOn_iff, hleaves h]

/-- An overflow is never forgotten. -/
theorem overflow_apply (hop : op.Fits) (h : l.overflow = true) :
    (op.apply l).overflow = true := by
  rcases op.keeps_or_moves hop l with ⟨hkeeps, -⟩ | ⟨b, f, heq, -⟩
  · rw [hkeeps.overflow, h]
  · rw [heq, Ledger.overflow_moveOn_iff]
    exact .inl h

/-! ## Operations in a row -/

/-- Some operation strains a counter of the ledger that the operations before it have left. -/
def Strained (ops : List LedgerOp) : Prop :=
  ∃ before op after, ops = before ++ op :: after ∧ op.Strains (run before)

/-- One more operation is done to what the others have made. -/
theorem run_append_singleton (ops : List LedgerOp) (op : LedgerOp) :
    run (ops ++ [op]) = op.apply (run ops) :=
  List.foldl_append

/-- What strains something is the last operation, or one before it. -/
theorem strained_append_singleton :
    Strained (ops ++ [op]) ↔ Strained ops ∨ op.Strains (run ops) := by
  constructor
  · rintro ⟨before, o, after, heq, hstrains⟩
    -- whether anything follows the operation that strains
    rcases List.eq_nil_or_concat after with rfl | ⟨init, last, rfl⟩
    · obtain ⟨hops, hop⟩ := List.append_inj' heq rfl
      cases hop
      exact .inr (hops ▸ hstrains)
    · refine .inl ⟨before, o, init, ?_, hstrains⟩
      rw [List.concat_eq_append, ← List.cons_append, ← List.append_assoc] at heq
      exact (List.append_inj' heq rfl).1
  · rintro (⟨before, o, after, rfl, hstrains⟩ | hstrains)
    · refine ⟨before, o, after ++ [op], ?_, hstrains⟩
      rw [List.append_assoc, List.cons_append]
    · exact ⟨ops, op, [], rfl, hstrains⟩

/-- Without strain the counters are in range, and none has left it. -/
theorem inRange_run (hops : ∀ op ∈ ops, op.Fits) (h : ¬ Strained ops) :
    (run ops).InRange ∧ (run ops).overflow = false := by
  induction ops using List.reverseRecOn with
  | nil => exact ⟨Ledger.inRange_empty, rfl⟩
  | append_singleton ops op ih =>
    rw [strained_append_singleton, not_or] at h
    obtain ⟨hrange, hoverflow⟩ := ih (fun o ho => hops o (List.mem_append_left _ ho)) h.1
    have hop : op.Fits := hops op (List.mem_append_right _ List.mem_cons_self)
    rw [run_append_singleton]
    refine ⟨(inRange_apply_iff hrange hop).mpr h.2, Bool.eq_false_iff.mpr fun hover => ?_⟩
    rcases (overflow_apply_iff hrange hop).mp hover with hover | hstrains
    · rw [hoverflow] at hover
      cases hover
    · exact h.2 hstrains

theorem overflow_run (hops : ∀ op ∈ ops, op.Fits) (h : Strained ops) :
    (run ops).overflow = true := by
  induction ops using List.reverseRecOn with
  | nil =>
    obtain ⟨before, op, after, heq, -⟩ := h
    exact absurd heq.symm (List.append_ne_nil_of_right_ne_nil _ (List.cons_ne_nil op after))
  | append_singleton ops op ih =>
    have hbefore : ∀ o ∈ ops, o.Fits := fun o ho => hops o (List.mem_append_left _ ho)
    have hop : op.Fits := hops op (List.mem_append_right _ List.mem_cons_self)
    rw [run_append_singleton]
    by_cases hstrained : Strained ops
    · exact overflow_apply hop (ih hbefore hstrained)
    · have hstrains : op.Strains (run ops) :=
        (strained_append_singleton.mp h).resolve_left hstrained
      exact (overflow_apply_iff (inRange_run hbefore hstrained).1 hop).mpr (.inr hstrains)

/-- **When counters stay in range.** Of operations on an empty ledger that are given values in
range, all leave every counter in range if and only if none of them strains one: no turn or step
takes a counter down that stands at the least value, and no battle ends with an adjustment that
leads out of the range. Otherwise the ledger notes the overflow. -/
theorem run_inRange_iff (ops : List LedgerOp) (hops : ∀ op ∈ ops, op.Fits) :
    ((∀ before, before <+: ops → (run before).InRange) ↔ ¬ Strained ops) ∧
    ((run ops).overflow = true ↔ Strained ops) := by
  refine ⟨⟨?_, ?_⟩, ?_, overflow_run hops⟩
  · rintro hrange ⟨before, op, after, rfl, hstrains⟩
    have hbefore : (run before).InRange := hrange before (List.prefix_append _ _)
    have hafter : (run (before ++ [op])).InRange :=
      hrange _ ⟨after, by rw [List.append_assoc, List.singleton_append]⟩
    have hop : op.Fits := hops op (List.mem_append_right _ List.mem_cons_self)
    rw [run_append_singleton] at hafter
    exact (inRange_apply_iff hbefore hop).mp hafter hstrains
  · rintro hspared before ⟨rest, rfl⟩
    refine (inRange_run (fun op hop => hops op (List.mem_append_left _ hop)) ?_).1
    rintro ⟨init, op, after, rfl, hstrains⟩
    refine hspared ⟨init, op, after ++ rest, ?_, hstrains⟩
    rw [List.append_assoc, List.cons_append]
  · intro hover
    refine Classical.byContradiction fun hspared => ?_
    rw [(inRange_run hops hspared).2] at hover
    cases hover

/-- A skill is used, and a turn ends. -/
theorem run_inRange_slash :
    let slash := Usable.ofNote 10 "Slash" 0 0 "<cooldown: 3>"
    let database := Database.insertSkill {} slash
    let ops : List LedgerOp := [.pay {} database (.actor 0) slash [slash], .turn (.actor 0)]
    (run ops).counter? (.actor 0) 10 = some 2 ∧ (run ops).InRange := by
  intro slash database ops
  have hops : ∀ op ∈ ops, op.Fits := by
    intro op hop
    rcases List.mem_cons.mp hop with rfl | hop
    · exact Usable.fits_ofNote ..
    · rw [List.mem_singleton.mp hop]
      trivial
  obtain ⟨hrange, hover⟩ := run_inRange_iff ops hops
  have hcalm : ¬ Strained ops := by
    rw [← hover]
    decide +kernel
  exact ⟨by decide +kernel, hrange.mpr hcalm ops (List.prefix_refl ops)⟩

/-- A cooldown is set to the least value, and a turn ends. -/
theorem run_least_turn :
    let slash := Usable.ofNote 10 "Slash" 0 0 ""
    let ops : List LedgerOp := [.set {} (.actor 0) slash (-2147483648), .turn (.actor 0)]
    (∀ op ∈ ops, op.Fits) ∧ (run ops).counter? (.actor 0) 10 = some (-2147483649) ∧
      (run ops).overflow = true ∧ ¬ (run ops).InRange := by
  intro slash ops
  refine ⟨?_, by decide +kernel, by decide +kernel, fun hrange => ?_⟩
  · intro op hop
    rcases List.mem_cons.mp hop with rfl | hop
    · exact (by decide : FitsInt32 (-2147483648))
    · rw [List.mem_singleton.mp hop]
      trivial
  · have htimers : (run ops).find? (.actor 0) = some ⟨⟨[(10, -2147483649)]⟩, ∅⟩ := by decide +kernel
    exact absurd (hrange _ _ htimers) (by decide)

end LedgerOp

end BattleScript
