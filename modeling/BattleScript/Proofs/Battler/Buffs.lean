import BattleScript.Proofs.Battler.Life
import Mathlib.Data.List.Induction
import Mathlib.Data.List.Infix
import Mathlib.Logic.Function.Iterate

/-!
# How long buffs last

A parameter of a battler has a buff, which is a level and a number of turns (`Buff`). What an
operation does to it depends on nothing but the operation and the buff itself
(`Battler.Op.onBuff`), but for one thing: the dead get no buffs, and whoever dies loses them all
(`Battler.Op.buff_cases`).

So it is enough to look at single buffs. The level stays within two of zero, and it is zero exactly
when no turns are left (`Buff.Timely`); and a buff that no operation on its parameter touches has
its level for as many ends of turns as it has turns, and then none (`Battler.buff_applyAll`).
`Battler.buff_lasts_its_turns` puts the two together.
-/

namespace BattleScript

/-- The buff of a parameter: its level, negative for a debuff, and the turns that it still lasts. -/
structure Buff where
  level : Int
  turns : Nat
  deriving DecidableEq, Repr

namespace Buff

/-- No buff. -/
def none : Buff := ⟨0, 0⟩

/-- The buff at another level, lasting at least the given turns unless the level is zero. -/
def settle (b : Buff) (level : Int) (turns : Nat) : Buff :=
  ⟨level, if level = 0 then 0 else max b.turns turns⟩

/-- A level more, if there is one. -/
def raise (b : Buff) (turns : Nat) : Buff :=
  b.settle (if b.level < Battler.maxBuffLevel then b.level + 1 else b.level) turns

/-- A level less, if there is one. -/
def lower (b : Buff) (turns : Nat) : Buff :=
  b.settle (if -Battler.maxBuffLevel < b.level then b.level - 1 else b.level) turns

/-- A turn less; a buff that had one turn left ends. -/
def pass (b : Buff) : Buff := ⟨if b.turns = 1 then 0 else b.level, b.turns - 1⟩

/-- The level is within two of zero, and it is zero exactly when no turns are left. -/
structure Timely (b : Buff) : Prop where
  low : -Battler.maxBuffLevel ≤ b.level
  high : b.level ≤ Battler.maxBuffLevel
  turns : b.level ≠ 0 ↔ 0 < b.turns

variable {b : Buff} {turns : Nat}

theorem timely_none : Timely none := by
  constructor <;> decide

/-- A buff that is settled within the bounds, for a turn at least, is timely. -/
theorem timely_settle (b : Buff) {level : Int} (hlow : -Battler.maxBuffLevel ≤ level)
    (hhigh : level ≤ Battler.maxBuffLevel) (hturns : 1 ≤ turns) :
    (b.settle level turns).Timely where
  low := hlow
  high := hhigh
  turns := by
    simp only [settle]
    split <;> omega

/-- Raising a timely buff stops at the upper bound. -/
theorem Timely.raise (h : b.Timely) (hturns : 1 ≤ turns) : (b.raise turns).Timely := by
  obtain ⟨hlow, hhigh, -⟩ := h
  refine timely_settle b ?_ ?_ hturns
  all_goals split <;> omega

/-- Lowering one stops at the lower bound. -/
theorem Timely.lower (h : b.Timely) (hturns : 1 ≤ turns) : (b.lower turns).Timely := by
  obtain ⟨hlow, hhigh, -⟩ := h
  refine timely_settle b ?_ ?_ hturns
  all_goals split <;> omega

/-- The end of a turn takes the level away together with the last turn. -/
theorem Timely.pass (h : b.Timely) : b.pass.Timely := by
  obtain ⟨hlow, hhigh, hturns⟩ := h
  unfold Buff.pass
  split
  · next hlast =>
    rw [hlast]
    exact timely_none
  · exact ⟨hlow, hhigh, by dsimp only; omega⟩

/-- The buff after a number of turns. -/
theorem iterate_pass (h : b.Timely) (k : Nat) :
    pass^[k] b = ⟨if k < b.turns then b.level else 0, b.turns - k⟩ := by
  have hturns := h.turns
  -- a timely buff has no level once its turns are used up
  induction k with
  | zero =>
    obtain ⟨level, turns⟩ := b
    rw [Function.iterate_zero, id_eq, mk.injEq]
    exact ⟨by dsimp only at hturns ⊢; split <;> omega, rfl⟩
  | succ k ih =>
    rw [Function.iterate_succ_apply', ih, Buff.pass, mk.injEq]
    exact ⟨by dsimp only; split <;> split <;> omega, by dsimp only; omega⟩

end Buff

namespace Battler

/-- The buff of a parameter. -/
def buff (x : Battler) (p : Param) : Buff := ⟨x.buffs.get p, x.buffTurns.get p⟩

namespace Op

/-- What the operation does to the buff of a parameter of the living. -/
def onBuff (p : Param) (b : Buff) : Op → Buff
  | addBuff q turns => if p = q then b.raise turns else b
  | addDebuff q turns => if p = q then b.lower turns else b
  | removeBuff q => if p = q then .none else b
  | endTurn => b.pass
  | gain _ _ | setImmortal _ | addState _ | removeState _ => b

/-- Buffs and debuffs are added for at least one turn. -/
def Lasts : Op → Prop
  | addBuff _ turns | addDebuff _ turns => 1 ≤ turns
  | gain _ _ | setImmortal _ | addState _ | removeState _ | removeBuff _ | endTurn => True

/-- The operation is one on the buff of the parameter. -/
def Touches (p : Param) : Op → Prop
  | addBuff q _ | addDebuff q _ | removeBuff q => p = q
  | gain _ _ | setImmortal _ | addState _ | removeState _ | endTurn => False

instance (op : Op) : Decidable op.Lasts := by cases op <;> unfold Lasts <;> infer_instance
instance (p : Param) (op : Op) : Decidable (op.Touches p) := by
  cases op <;> unfold Touches <;> infer_instance

variable {p : Param} {b : Buff} {op : Op}

/-- An operation that gives no buff without turns keeps a buff timely. -/
theorem timely_onBuff (h : b.Timely) (hop : op.Lasts) : (op.onBuff p b).Timely := by
  cases op with
  | addBuff q turns =>
    simp only [onBuff]
    split
    · exact h.raise hop
    · exact h
  | addDebuff q turns =>
    simp only [onBuff]
    split
    · exact h.lower hop
    · exact h
  | removeBuff q =>
    simp only [onBuff]
    split
    · exact Buff.timely_none
    · exact h
  | endTurn => exact h.pass
  | gain | setImmortal | addState | removeState => exact h

/-- What is done to other parameters, or to the battler itself, is no more to a buff than the end
of a turn is. -/
theorem onBuff_of_not_touches (hop : ¬ op.Touches p) :
    op.onBuff p b = if op = endTurn then b.pass else b := by
  cases op with
  | addBuff | addDebuff | removeBuff => exact if_neg hop
  | endTurn => rfl
  | gain | setImmortal | addState | removeState => rfl

end Op

variable {x : Battler} {p : Param}

/-! ## One operation -/

/-- Who was refreshed has the buffs it had, unless it died of it. -/
theorem buff_refresh (x : Battler) :
    (∀ p, x.refresh.buff p = x.buff p) ∨ (x.refresh.isDead ∧ ∀ p, x.refresh.buff p = .none) := by
  unfold refresh settleLife
  split
  · split
    · exact .inl fun p => rfl
    · refine .inr ⟨isDead_iff.mpr List.mem_cons_self, fun p => ?_⟩
      simp [buff, perish, Buff.none]
  · split <;> exact .inl fun p => rfl

/-- Giving one parameter another buff. -/
theorem buff_set (x : Battler) (p q : Param) (level : Int) (turns : Nat) :
    buff { x with buffs := x.buffs.set p level, buffTurns := x.buffTurns.set p turns } q =
      if q = p then ⟨level, turns⟩ else x.buff q := by
  simp only [buff, PerParam.get_set]
  split <;> rfl

/-- An operation that changes some fields and refreshes the battler does to its buffs what it did
before the refresh, unless it is the death of the battler. -/
theorem Op.buff_of_refresh {op : Op} {x y : Battler} (happly : op.apply x = y.refresh)
    (hy : ∀ p, y.buff p = op.onBuff p (x.buff p)) :
    (∀ p, (op.apply x).buff p = op.onBuff p (x.buff p)) ∨
    ((op.apply x).isDead ∧ ∀ p, (op.apply x).buff p = .none) := by
  rw [happly]
  exact (buff_refresh y).imp_left fun h p => (h p).trans (hy p)

/-- The living can be given a buff, of one parameter. -/
theorem Op.buff_of_settle {op : Op} {x : Battler} {p : Param} {level : Int} {turns : Nat}
    (happly : op.apply x = if x.isDead then x else x.settleBuff p level turns)
    (hp : op.onBuff p (x.buff p) = (x.buff p).settle level turns)
    (hother : ∀ q, q ≠ p → op.onBuff q (x.buff q) = x.buff q) :
    (∀ p, (op.apply x).buff p = op.onBuff p (x.buff p)) ∨
    ((op.apply x).isDead ∧ ∀ p, (op.apply x).buff p = .none) ∨
    (x.isDead ∧ op.apply x = x) := by
  by_cases dead : x.isDead
  · rw [if_pos dead] at happly
    exact .inr (.inr ⟨dead, happly⟩)
  · rw [if_neg dead] at happly
    refine (buff_of_refresh happly fun q => (buff_set x p q _ _).trans ?_).imp_right .inl
    by_cases hq : q = p
    · rw [if_pos hq, hq, hp]
      rfl
    · rw [if_neg hq, hother q hq]

/-- What an operation does to the buffs of a battler: to each of them what it does to a buff, or it
is the death of the battler and the end of all its buffs, or the battler is dead and nothing
happens. -/
theorem Op.buff_cases (op : Op) (x : Battler) :
    (∀ p, (op.apply x).buff p = op.onBuff p (x.buff p)) ∨
    ((op.apply x).isDead ∧ ∀ p, (op.apply x).buff p = .none) ∨
    (x.isDead ∧ op.apply x = x) := by
  cases op with
  | gain p n =>
    refine (buff_of_refresh rfl fun q => ?_).imp_right .inl
    cases p <;> rfl
  | setImmortal on => exact (buff_of_refresh rfl fun q => rfl).imp_right .inl
  | addState s =>
    simp only [apply, Battler.addState]
    split
    · exact .inl fun p => rfl
    · split
      · next hs =>
        split
        · exact .inl fun p => rfl
        · refine .inr (.inl ⟨isDead_iff.mpr (hs ▸ List.mem_cons_self), fun p => ?_⟩)
          simp [buff, perish, Buff.none]
      · split <;> exact .inl fun p => rfl
  | removeState s =>
    refine .inl fun p => ?_
    simp only [apply, Battler.removeState]
    split
    · dsimp only
      split <;> rfl
    · rfl
  | addBuff p turns => exact buff_of_settle rfl (if_pos rfl) fun q hq => if_neg hq
  | addDebuff p turns => exact buff_of_settle rfl (if_pos rfl) fun q hq => if_neg hq
  | removeBuff p => exact (buff_of_refresh rfl fun q => buff_set x p q 0 0).imp_right .inl
  | endTurn =>
    refine (buff_of_refresh rfl fun q => ?_).imp_right .inl
    simp only [buff, PerParam.get_ofFn, onBuff]
    rfl

/-- Who is alive before an operation and after it has had it done to all its buffs. -/
theorem Op.buff_apply {op : Op} (before : x.isAlive) (after : (op.apply x).isAlive) (p : Param) :
    (op.apply x).buff p = op.onBuff p (x.buff p) := by
  rcases op.buff_cases x with h | ⟨dead, -⟩ | ⟨dead, -⟩
  · exact h p
  · simp [isAlive, dead] at after
  · simp [isAlive, dead] at before

/-- Buffs stay timely under every operation that gives no buff without turns. -/
theorem Op.timely_apply (op : Op) (hop : op.Lasts) (hx : ∀ p, (x.buff p).Timely) (p : Param) :
    ((op.apply x).buff p).Timely := by
  rcases op.buff_cases x with h | ⟨-, h⟩ | ⟨-, h⟩
  · exact h p ▸ timely_onBuff (hx p) hop
  · exact h p ▸ Buff.timely_none
  · rw [h]
    exact hx p

/-! ## Any number of them -/

/-- So they do under any number of them. -/
theorem Op.timely_applyAll {ops : List Op} (hops : ∀ op ∈ ops, op.Lasts)
    (hx : ∀ p, (x.buff p).Timely) (p : Param) : ((applyAll x ops).buff p).Timely :=
  List.foldlRecOn (motive := fun y => ∀ p, (y.buff p).Timely) ops apply hx
    (fun _ hy op hop => timely_apply op (hops op hop) hy) p

/-- **A buff left alone passes with the turns.** Operations that the battler lives through, and none
of them on the parameter, take a turn off its buff for every end of a turn among them. -/
theorem buff_applyAll {later : List Op} (hlater : ∀ op ∈ later, ¬ op.Touches p)
    (alive : ∀ before, before <+: later → (Op.applyAll x before).isAlive) :
    (Op.applyAll x later).buff p = Buff.pass^[later.count .endTurn] (x.buff p) := by
  -- by the last operation, since the battler is known to be alive after every first part
  induction later using List.reverseRecOn with
  | nil => rfl
  | append_singleton later op ih =>
    have hinit : later <+: later ++ [op] := List.prefix_append later [op]
    have ih := ih (fun o ho => hlater o (List.mem_append_left [op] ho)) fun before h =>
      alive before (h.trans hinit)
    have hlast : Op.applyAll x (later ++ [op]) = op.apply (Op.applyAll x later) :=
      List.foldl_append
    have hstep : (op.apply (Op.applyAll x later)).buff p =
        op.onBuff p ((Op.applyAll x later).buff p) :=
      Op.buff_apply (alive later hinit) (hlast ▸ alive _ List.prefix_rfl) p
    have hop : ¬ op.Touches p := hlater op (List.mem_append_right later List.mem_cons_self)
    rw [hlast, hstep, ih, Op.onBuff_of_not_touches hop, List.count_append, List.count_singleton]
    by_cases hend : op = .endTurn
    · rw [if_pos hend, hend, ← Function.iterate_succ_apply' Buff.pass]
      rfl
    · rw [if_neg hend, if_neg (by simpa using hend), Nat.add_zero]

/-- Whoever is recruited has no buffs. -/
theorem buff_recruit (name : String) (dataId : Nat) (mhp mmp : Int) (deathState : Nat) (maxTp : Int)
    (p : Param) : (recruit name dataId mhp mmp deathState maxTp).buff p = .none := by
  cases p <;> rfl

/-- A buff or debuff of the living that leaves a level extends its turns. -/
theorem turns_of_buffed {y : Battler} {t : Nat} (alive : x.isAlive)
    (hy : y = x.addBuff p t ∨ y = x.addDebuff p t) (hlevel : y.buffs.get p ≠ 0) :
    y.buffTurns.get p = max (x.buffTurns.get p) t := by
  -- both are one operation that settles the buff at some level
  obtain ⟨op, level, rfl, hop⟩ : ∃ (op : Op) (level : Int), y = op.apply x ∧
      op.onBuff p (x.buff p) = (x.buff p).settle level t := by
    rcases hy with hy | hy
    · exact ⟨.addBuff p t, _, hy, if_pos rfl⟩
    · exact ⟨.addDebuff p t, _, hy, if_pos rfl⟩
  -- the operation did what it does to the buff, or the battler died of it and has none
  rcases op.buff_cases x with h | ⟨-, h⟩ | ⟨dead, -⟩
  · have hbuff : (op.apply x).buff p = (x.buff p).settle level t := (h p).trans hop
    have hlevel : level ≠ 0 := fun hzero => hlevel ((congrArg Buff.level hbuff).trans hzero)
    exact (congrArg Buff.turns hbuff).trans (if_neg hlevel)
  · exact absurd (congrArg Buff.level (h p)) hlevel
  · simp [isAlive, dead] at alive

/-- **Buffs last their turns.** Whatever is done to a battler that had no buffs, the buffs and
debuffs each for at least one turn: the level of every parameter lies between -2 and 2, and it is
other than zero exactly while turns are left. When a buff or debuff of the living leaves a level,
the turns are those asked for, or those that were left if these are more; the level then stays, as
long as nothing is done to that parameter and the battler lives, until so many turns have ended,
and is zero after that. -/
theorem buff_lasts_its_turns {start : Battler} (hstart : ∀ p, start.buff p = .none)
    {ops : List Op} (hops : ∀ op ∈ ops, op.Lasts) :
    let x := Op.applyAll start ops
    (∀ p, -2 ≤ x.buffs.get p ∧ x.buffs.get p ≤ 2 ∧ (x.buffs.get p ≠ 0 ↔ 0 < x.buffTurns.get p)) ∧
    ∀ (p : Param) (t : Nat) (y : Battler), x.isAlive → 1 ≤ t →
      (y = x.addBuff p t ∨ y = x.addDebuff p t) → y.buffs.get p ≠ 0 →
      y.buffTurns.get p = max (x.buffTurns.get p) t ∧
      ∀ later : List Op, (∀ op ∈ later, ¬ op.Touches p) →
        (∀ before, before <+: later → (Op.applyAll y before).isAlive) →
        (later.count .endTurn < y.buffTurns.get p →
          (Op.applyAll y later).buffs.get p = y.buffs.get p) ∧
        (y.buffTurns.get p ≤ later.count .endTurn → (Op.applyAll y later).buffs.get p = 0) := by
  intro x
  have hx : ∀ p, (x.buff p).Timely :=
    Op.timely_applyAll hops fun p => hstart p ▸ Buff.timely_none
  refine ⟨fun p => ⟨(hx p).low, (hx p).high, (hx p).turns⟩, ?_⟩
  intro p t y alive ht hy hlevel
  refine ⟨turns_of_buffed alive hy hlevel, fun later hlater hlives => ?_⟩
  have htimely : (y.buff p).Timely := by
    rcases hy with hy | hy
    · exact hy ▸ Op.timely_apply (.addBuff p t) ht hx p
    · exact hy ▸ Op.timely_apply (.addDebuff p t) ht hx p
  -- whether it is `y` or a later battler that is looked at, only the ends of turns count
  have hrun : (Op.applyAll y later).buffs.get p =
      if later.count .endTurn < y.buffTurns.get p then y.buffs.get p else 0 := by
    have h := (buff_applyAll hlater hlives).trans (Buff.iterate_pass htimely _)
    exact congrArg Buff.level h
  exact ⟨fun h => hrun.trans (if_pos h), fun h => hrun.trans (if_neg (Nat.not_lt.mpr h))⟩

/-- The attack of a battler that is immortal and has no HP is raised twice: the levels last for two
ends of turns, with a state added between them, and are gone after the third. -/
theorem buff_lasts_its_turns_attack :
    let start := recruit "Ann" 1 100 20 1 100
    let ops : List Op := [.setImmortal true, .gain .hp (-200), .addBuff .attack 2, .endTurn]
    let x := Op.applyAll start ops
    let y := x.addBuff .attack 3
    x.buffs.get .attack = 1 ∧ x.buffTurns.get .attack = 1 ∧
    y.buffs.get .attack = 2 ∧ y.buffTurns.get .attack = 3 ∧
    (Op.applyAll y [.endTurn, .addState 4, .endTurn]).buffs.get .attack = 2 ∧
    (Op.applyAll y [.endTurn, .addState 4, .endTurn, .endTurn]).buffs.get .attack = 0 := by
  intro start ops x y
  have hlevel : y.buffs.get .attack = 2 := by decide +kernel
  have hlives : ∀ before : List Op, before <+: [.endTurn, .addState 4, .endTurn, .endTurn] →
      (Op.applyAll y before).isAlive := by
    intro before h
    have hall : ∀ before ∈ ([.endTurn, .addState 4, .endTurn, .endTurn] : List Op).inits,
        (Op.applyAll y before).isAlive := by decide +kernel
    exact hall before ((List.mem_inits _ _).mpr h)
  have hops : ∀ op ∈ ops, op.Lasts := by decide
  obtain ⟨-, hrun⟩ := buff_lasts_its_turns (buff_recruit "Ann" 1 100 20 1 100) hops
  obtain ⟨hturns, hlater⟩ :=
    hrun .attack 3 y (by decide +kernel) (by decide) (.inl rfl) (by decide +kernel)
  have hthree : y.buffTurns.get .attack = 3 := hturns.trans (by decide +kernel)
  refine ⟨by decide +kernel, by decide +kernel, hlevel, hthree, ?_, ?_⟩
  · refine ((hlater [.endTurn, .addState 4, .endTurn] (by decide) fun before h => ?_).1 ?_).trans
      hlevel
    · exact hlives before (h.trans (List.prefix_append _ [Op.endTurn]))
    · rw [hthree]
      decide
  · refine (hlater [.endTurn, .addState 4, .endTurn, .endTurn] (by decide) hlives).2 ?_
    rw [hthree]
    decide

end Battler

end BattleScript
