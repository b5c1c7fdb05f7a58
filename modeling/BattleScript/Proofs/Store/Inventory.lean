import BattleScript.Proofs.OrderedMap
import BattleScript.Proofs.Scenario
import BattleScript.Proofs.Script.Amount
import BattleScript.Proofs.Standard.Dispatch
import BattleScript.Proofs.Standard.Untouched

/-!
# The inventory

Two forms of commands change the inventory: `GAIN` and `LOSE` with a thing, and `GOLD`. What such a
command does is a `Trade`: so many more or fewer of one thing, or so much more or less gold. Which
commands trade what is said by how they are written (`Command.Trades`), and what becomes of gold and
counts by `Trade.Settles`.

An inventory is `Orderly` if its gold and all of its counts are in their bounds and no thing has two
entries. This is the invariant: every trade keeps it (`Inventory.Orderly.trade`), and all other
commands leave the inventory as it is (`Chain.inventory_dispatch`). So it holds after any lines
whatever (`Chain.inventory_stays_orderly`).
-/

namespace BattleScript

/-! ## Counts and entries -/

namespace Inventory

variable {v : Inventory}

/-- Things are no gold. -/
@[simp] theorem gold_withHeld (v : Inventory) (kind : ItemKind) (m : OrderedMap Nat Int) :
    (v.withHeld kind m).gold = v.gold := by
  cases kind <;> rfl

/-- Other things of one kind change the counts of that kind only. -/
theorem count_withHeld (v : Inventory) (kind : ItemKind) (m : OrderedMap Nat Int) (j : ItemKind)
    (i : Nat) :
    (v.withHeld kind m).count j i = if j = kind then (m.find? i).getD 0 else v.count j i := by
  rw [count, held_withHeld]
  split <;> rfl

/-- A count of zero has no entry, and no entry counts as zero. -/
theorem getD_find?_write (m : OrderedMap Nat Int) (id : Nat) (n : Int) (i : Nat) :
    ((if n = 0 then m.erase id else m.insert id n).find? i).getD 0 =
      if i = id then n else (m.find? i).getD 0 := by
  split
  · next hn =>
    rw [OrderedMap.find?_erase]
    split
    · rw [hn, Option.getD_none]
    · rfl
  · rw [OrderedMap.find?_insert]
    split <;> rfl

/-- The count of a thing moves within its bounds, and no other count changes. -/
theorem count_gainItem (v : Inventory) (kind : ItemKind) (id : Nat) (x : Int) (j : ItemKind)
    (i : Nat) :
    (v.gainItem kind id x).count j i =
      if j = kind ∧ i = id then clampTo 0 maxItems (v.count kind id + x) else v.count j i := by
  rw [gainItem, clampTo_saturate (by decide) (by decide) (by decide), count_withHeld,
    getD_find?_write]
  -- the kind decides first, and within it the number of the thing
  by_cases hj : j = kind
  · subst hj
    by_cases hi : i = id
    · rw [if_pos rfl, if_pos hi, if_pos ⟨rfl, hi⟩]
    · rw [if_pos rfl, if_neg hi, if_neg fun h => hi h.2, count]
  · rw [if_neg hj, if_neg fun h => hj h.1]

/-- Gold and counts are in their bounds, an entry is never for nothing, and no thing has two. -/
structure Orderly (v : Inventory) : Prop where
  gold : 0 ≤ v.gold ∧ v.gold ≤ 99999999
  counts : ∀ kind, ∀ n ∈ (v.held kind).values, 1 ≤ n ∧ n ≤ 99
  distinct : ∀ kind, (v.held kind).keys.Nodup

namespace Orderly

/-- An empty inventory is in order. -/
theorem empty : Orderly {} where
  gold := by decide
  counts kind := by cases kind <;> exact List.forall_mem_nil _
  distinct kind := by cases kind <;> exact List.nodup_nil

/-- Other things of a kind, if they are in order, leave the inventory in order. -/
theorem withHeld (h : v.Orderly) {kind : ItemKind} {m : OrderedMap Nat Int}
    (hcounts : ∀ n ∈ m.values, 1 ≤ n ∧ n ≤ 99) (hdistinct : m.keys.Nodup) :
    (v.withHeld kind m).Orderly where
  gold := by
    rw [gold_withHeld]
    exact h.gold
  counts j := by
    rw [held_withHeld]
    split
    · exact hcounts
    · exact h.counts j
  distinct j := by
    rw [held_withHeld]
    split
    · exact hdistinct
    · exact h.distinct j

/-- Gaining or losing a thing leaves the inventory in order: a count of zero loses its entry. -/
theorem gainItem (h : v.Orderly) (kind : ItemKind) (id : Nat) (x : Int) :
    (v.gainItem kind id x).Orderly := by
  have hlow := le_clampTo (show 0 ≤ maxItems by decide) (saturate (v.count kind id + x))
  have hhigh := clampTo_le (show 0 ≤ maxItems by decide) (saturate (v.count kind id + x))
  rw [Inventory.gainItem]
  generalize clampTo 0 maxItems (saturate (v.count kind id + x)) = n at hlow hhigh ⊢
  split
  · exact h.withHeld (fun n hn => h.counts kind n (OrderedMap.mem_values_erase hn))
      (OrderedMap.nodup_keys_erase (h.distinct kind) id)
  · next hn =>
    have hentry : 1 ≤ n ∧ n ≤ 99 := ⟨by omega, hhigh⟩
    exact h.withHeld (OrderedMap.forall_mem_values_insert (h.counts kind) hentry)
      (OrderedMap.nodup_keys_insert (h.distinct kind) id n)

/-- Gold that moves within its bounds leaves the inventory in order. -/
theorem gainGold (h : v.Orderly) (x : Int) : (v.gainGold x).Orderly where
  gold := ⟨le_clampTo (by decide) _, clampTo_le (by decide) _⟩
  counts := h.counts
  distinct := h.distinct

end Orderly

end Inventory

/-! ## Trades -/

/-- What a command does to the inventory: to the count of one thing, or to the gold. -/
inductive Trade
  | things (kind : ItemKind) (id : Nat) (change : Int)
  | gold (change : Int)
  deriving DecidableEq, Repr

/-- The instruction for a trade. -/
def Trade.op : Trade → EffectOp
  | things kind id x => .gainItem kind id x
  | gold x => .gold x

/-- The inventory after a trade. -/
def Inventory.trade (v : Inventory) : Trade → Inventory
  | .things kind id x => v.gainItem kind id x
  | .gold x => v.gainGold x

/-- One inventory is the other after a trade, as far as gold and counts say. -/
def Trade.Settles : Trade → Inventory → Inventory → Prop
  | things kind id x, v, w =>
    w.gold = v.gold ∧ w.count kind id = clampTo 0 99 (v.count kind id + x) ∧
      ∀ j i, (j, i) ≠ (kind, id) → w.count j i = v.count j i
  | gold x, v, w =>
    w.gold = clampTo 0 99999999 (v.gold + x) ∧ ∀ j i, w.count j i = v.count j i

/-- A trade settles as it should: one count, or the gold, within its bounds. -/
theorem Trade.settles (t : Trade) (v : Inventory) : t.Settles v (v.trade t) := by
  cases t with
  | things kind id x =>
    refine ⟨Inventory.gold_withHeld v kind _, ?_, fun j i hji => ?_⟩
    · rw [Inventory.trade, Inventory.count_gainItem, if_pos ⟨rfl, rfl⟩]
      rfl
    · rw [Inventory.trade, Inventory.count_gainItem, if_neg]
      rintro ⟨rfl, rfl⟩
      exact hji rfl
  | gold x => exact ⟨clampTo_saturate (by decide) (by decide) (by decide) _, fun _ _ => rfl⟩

/-- **The invariant**: every trade keeps the inventory in order. -/
theorem Inventory.Orderly.trade {v : Inventory} (h : v.Orderly) (t : Trade) :
    (v.trade t).Orderly := by
  cases t with
  | things kind id x => exact h.gainItem kind id x
  | gold x => exact h.gainGold x

/-! ## How trades are written -/

/-- The words for things of a kind. -/
def ItemKind.words : ItemKind → List String
  | item => ["ITEM"]
  | weapon => ["WPN", "WEAPON"]
  | armor => ["ARM", "ARMOR", "ARMOUR"]

namespace Command

/-- The first argument states an amount, a positive integer that it opens with. -/
def StatesAmount (c : Command) (n : Int) : Prop :=
  ∃ arg, c.arg 0 = some arg ∧ Text.OpensWithInteger arg.toList n ∧ FitsInt32 n ∧ 1 ≤ n

/-- The amount of a command is what it states, and one if it states none. -/
inductive HasAmount (c : Command) : Int → Prop
  | stated {n : Int} (h : c.StatesAmount n) : HasAmount c n
  | single (h : ∀ n, ¬ c.StatesAmount n) : HasAmount c 1

/-- The command does a trade. The number of gold is a sign and digits of whatever script, but it
only counts up to the first digit beyond ASCII. -/
inductive Trades (c : Command) : Trade → Prop
  | gain {kind : ItemKind} {word numeral : String} {id : Nat} {n : Int} (hword : word ∈ kind.words)
    (hwords : c.words = ["GAIN", word, numeral]) (hid : Text.IsNumeral numeral.toList id)
    (hn : c.HasAmount n) : Trades c (.things kind id n)
  | lose {kind : ItemKind} {word numeral : String} {id : Nat} {n : Int} (hword : word ∈ kind.words)
    (hwords : c.words = ["LOSE", word, numeral]) (hid : Text.IsNumeral numeral.toList id)
    (hn : c.HasAmount n) : Trades c (.things kind id (-n))
  | gold {word : String} {negative : Bool} {ds : List Char} {x : Int}
    (hwords : c.words = ["GOLD", word]) (hsign : word.toList = Amount.signChar negative :: ds)
    (hne : ds ≠ []) (hds : ∀ d ∈ ds, Text.isDigit d) (hx : Text.OpensWithInteger word.toList x)
    (hfits : FitsInt32 x) : Trades c (.gold x)

end Command

namespace EffectOp

open Command

variable {c : Command} {op : EffectOp} {t : Trade}

/-! ## How trades are read -/

/-- The words for a kind of things. -/
theorem kindOfWord?_eq_some_iff {word : String} {kind : ItemKind} :
    kindOfWord? word = some kind ↔ word ∈ kind.words := by
  constructor
  · intro h
    unfold kindOfWord? at h
    split at h <;> cases h <;> decide
  · intro h
    cases kind <;> simp only [ItemKind.words, List.mem_cons, List.not_mem_nil, or_false] at h
    · rw [h, kindOfWord?]
    · rcases h with rfl | rfl <;> rfl
    · rcases h with rfl | rfl | rfl <;> rfl

/-- An amount that is stated is read from the first argument. -/
theorem statesAmount_iff {n : Int} :
    c.StatesAmount n ↔ (c.arg 0).bind Operand.int? = some n ∧ 1 ≤ n := by
  rw [Option.bind_eq_some_iff]
  constructor
  · rintro ⟨arg, harg, hopens, hfits, hn⟩
    exact ⟨⟨arg, harg, Operand.int?_eq_some_iff.mpr ⟨hopens, hfits⟩⟩, hn⟩
  · rintro ⟨⟨arg, harg, hread⟩, hn⟩
    obtain ⟨hopens, hfits⟩ := Operand.int?_eq_some_iff.mp hread
    exact ⟨arg, harg, hopens, hfits, hn⟩

/-- The amount that is read. -/
def amount (c : Command) : Int := max (((c.arg 0).bind Operand.int?).getD 1) 1

theorem amount_of_states {n : Int} (h : c.StatesAmount n) : amount c = n := by
  obtain ⟨hread, hn⟩ := statesAmount_iff.mp h
  rw [amount, hread, Option.getD_some, Int.max_eq_left hn]

/-- Zero and negative numbers are read, but state no amount. -/
theorem amount_of_not_states (h : ∀ n, ¬ c.StatesAmount n) : amount c = 1 := by
  rw [amount]
  cases hread : (c.arg 0).bind Operand.int? with
  | none => rfl
  | some n =>
    have hn : ¬ 1 ≤ n := fun hn => h n (statesAmount_iff.mpr ⟨hread, hn⟩)
    rw [Option.getD_some, Int.max_eq_right (by omega)]

/-- The amount is read as it is written. -/
theorem hasAmount_iff {n : Int} : c.HasAmount n ↔ n = amount c := by
  constructor
  · intro h
    cases h with
    | stated h => exact (amount_of_states h).symm
    | single h => exact (amount_of_not_states h).symm
  · rintro rfl
    -- an amount is stated, or the trade is of a single thing
    by_cases h : ∃ n, c.StatesAmount n
    · obtain ⟨n, hn⟩ := h
      rw [amount_of_states hn]
      exact .stated hn
    · have hnone : ∀ n, ¬ c.StatesAmount n := fun n hn => h ⟨n, hn⟩
      rw [amount_of_not_states hnone]
      exact .single hnone

/-- Things are traded by exactly the lines that are written so. -/
theorem gainItem?_eq_some_iff {kind : ItemKind} {id : Nat} {x : Int} :
    gainItem? c = some (.gainItem kind id x) ↔ c.Trades (.things kind id x) := by
  constructor
  · intro h
    unfold gainItem? at h
    split at h
    · next verb word numeral hwords =>
      simp only [Option.bind_eq_bind, Option.bind_eq_some_iff] at h
      obtain ⟨sign, hsign, kind, hkind, id, hid, hop⟩ := h
      cases hop
      have hword := kindOfWord?_eq_some_iff.mp hkind
      have hnumeral := Text.nat32?_eq_some_iff.mp hid
      have hn : c.HasAmount (amount c) := hasAmount_iff.mpr rfl
      -- the verb decides the sign of the amount, and nothing else
      unfold gainSign? at hsign
      split at hsign
      · cases hsign
        rw [Int.one_mul]
        exact .gain hword hwords hnumeral hn
      · cases hsign
        rw [Int.neg_mul, Int.one_mul]
        exact .lose hword hwords hnumeral hn
      · cases hsign
    · cases h
  · intro h
    cases h with
    | gain hword hwords hid hn =>
      simp [gainItem?, gainSign?, hwords, kindOfWord?_eq_some_iff.mpr hword,
        Text.nat32?_eq_some_iff.mpr hid, hasAmount_iff.mp hn, amount]
    | lose hword hwords hid hn =>
      simp [gainItem?, gainSign?, hwords, kindOfWord?_eq_some_iff.mpr hword,
        Text.nat32?_eq_some_iff.mpr hid, hasAmount_iff.mp hn, amount]

/-- Gold is traded by exactly the lines that are written so. -/
theorem gold?_eq_some_iff {x : Int} : gold? c = some (.gold x) ↔ c.Trades (.gold x) := by
  constructor
  · intro h
    unfold gold? at h
    split at h
    · next word hwords =>
      split at h
      · next negative ds hsign =>
        obtain ⟨_, hguard, hread⟩ := Option.bind_eq_some_iff.mp h
        obtain ⟨⟨hne, hds⟩, -⟩ := Option.ite_none_right_eq_some.mp hguard
        obtain ⟨x, hx, hop⟩ := Option.bind_eq_some_iff.mp hread
        cases hop
        obtain ⟨hopens, hfits⟩ := Operand.int?_eq_some_iff.mp hx
        exact .gold hwords (Amount.sign_eq_iff.mp hsign) hne (List.all_eq_true.mp hds) hopens hfits
      · cases h
    · cases h
  · rintro ⟨⟩
    next word negative ds hwords hsign hne hds hopens hfits =>
    -- the word is taken apart again as it was put together
    have hread : Text.sign word.toList = (some negative, ds) := Amount.sign_eq_iff.mpr hsign
    have hx : Operand.int? word = some x := Operand.int?_eq_some_iff.mpr ⟨hopens, hfits⟩
    unfold gold?
    split
    · next w hw =>
      cases hwords.symm.trans hw
      split
      · next s es hs =>
        cases hread.symm.trans hs
        exact Option.bind_eq_some_iff.mpr ⟨(), if_pos ⟨hne, List.all_eq_true.mpr hds⟩,
          Option.bind_eq_some_iff.mpr ⟨x, hx, rfl⟩⟩
      · next hs => exact absurd hread (hs _ _)
    · next hw => exact absurd hwords (hw _)

/-- A command is read as a trade if and only if it is written as that trade. -/
theorem ofCommand?_eq_op_iff : ofCommand? c = some t.op ↔ c.Trades t := by
  rw [ofCommand?_eq_some_iff]
  cases t with
  | things kind id x => exact gainItem?_eq_some_iff
  | gold x => exact gold?_eq_some_iff

/-! ## What effect commands do to the inventory -/

/-- What a trade does to a battle. -/
theorem run_op (t : Trade) (ctx : ActionContext) (b : Battle) :
    t.op.run ctx b = (.proceed, { b with inventory := b.inventory.trade t }) := by
  cases t <;> rfl

/-- Other instructions leave the inventory alone, also those that write to other stores. -/
theorem inventory_run (h : ∀ t : Trade, op ≠ t.op) (ctx : ActionContext) (b : Battle) :
    (op.run ctx b).2.inventory = b.inventory := by
  have hsame := (op.edits_run ctx b).sameBut
  -- of the commands for stores the others write to another store
  cases op with
  | gainItem kind id x => exact absurd rfl (h (.things kind id x))
  | gold x => exact absurd rfl (h (.gold x))
  | commonEvent id =>
    cases id with
    | none => rfl
    | some n =>
      simp only [run]
      split <;> rfl
  | switches first last change => cases change <;> rfl
  | assign id operator operand =>
    simp only [run]
    split <;> rfl
  | _ => exact (hsame.stores (by simp [touched, battlerAspects])).2.2.1

end EffectOp

/-! ## Every line -/

namespace Chain

variable {c : Command} {t : Trade}

/-- A trade changes the inventory, and nothing else. -/
theorem dispatch_of_trades (h : c.Trades t) (scene : Scene) :
    standard.dispatch c scene = (.proceed, { scene with
      battle := { scene.battle with inventory := scene.battle.inventory.trade t } }) := by
  rw [dispatch_effect (EffectOp.ofCommand?_eq_op_iff.mpr h), EffectOp.run_op]

/-- A command that does no trade, of whatever pack, leaves the inventory alone. -/
theorem inventory_dispatch (h : ∀ t, ¬ c.Trades t) (scene : Scene) :
    (standard.dispatch c scene).2.battle.inventory = scene.battle.inventory := by
  refine standard_cases
    (motive := fun out => out.2.battle.inventory = scene.battle.inventory) c scene rfl
    (fun op _ => ?_) (fun op hop => ?_) (fun op signal b _ hrun => ?_) (fun op _ => ?_)
    (fun op _ => ?_)
  -- the stores are no aspect of any pack but that of the effect commands
  · exact ((op.edits_run _ _).sameBut.stores (by decide)).2.2.1
  · refine EffectOp.inventory_run ?_ _ _
    rintro t rfl
    exact h t (EffectOp.ofCommand?_eq_op_iff.mp hop)
  · exact ((MotionOp.edits_run? hrun).sameBut.stores (by decide)).2.2.1
  · exact ((op.edits_run _ _).sameBut.stores (by decide)).2.2.1
  · exact ((op.edits_run _ _).sameBut.stores (by decide)).2.2.1

/-- No command brings an inventory out of order. -/
theorem orderly_dispatch (c : Command) {scene : Scene} (h : scene.battle.inventory.Orderly) :
    (standard.dispatch c scene).2.battle.inventory.Orderly := by
  by_cases htrade : ∃ t, c.Trades t
  · obtain ⟨t, ht⟩ := htrade
    rw [dispatch_of_trades ht]
    exact h.trade t
  · rw [inventory_dispatch fun t ht => htrade ⟨t, ht⟩]
    exact h

/-- **The inventory stays in order.** Whatever lines are run from an empty inventory, the gold is
from 0 to 99999999 afterwards, every entry has a count from 1 to 99, and no thing has two entries.
The next line, if it gains or loses things of a kind, changes their count by the amount it states,
cut to 0 to 99, and no other count nor the gold; if it is for gold, it changes the gold likewise,
and no count. Such a line changes nothing but the inventory, and any other line leaves the
inventory alone. -/
theorem inventory_stays_orderly (start : Scene) (hstart : start.battle.inventory = {})
    (lines : List String) :
    let scene := standard.dispatchAll lines start
    let v := scene.battle.inventory
    v.Orderly ∧
    (∀ line t, (Command.ofLine line).Trades t →
      ∃ w : Inventory,
        standard.dispatch (.ofLine line) scene =
          (.proceed, { scene with battle := { scene.battle with inventory := w } }) ∧
        t.Settles v w) ∧
    ∀ line, (∀ t, ¬ (Command.ofLine line).Trades t) →
      (standard.dispatch (.ofLine line) scene).2.battle.inventory = v := by
  intro scene v
  refine ⟨?_, fun line t ht => ?_, fun line hnone => inventory_dispatch hnone scene⟩
  · have hempty : start.battle.inventory.Orderly := hstart ▸ Inventory.Orderly.empty
    exact dispatchAll_keeps (I := fun scene => scene.battle.inventory.Orderly)
      (fun line _ h => orderly_dispatch (.ofLine line) h) lines hempty
  · exact ⟨v.trade t, dispatch_of_trades ht scene, t.settles v⟩

/-- Items up to the greatest count, a weapon that is not there to be lost, too much gold, and an
armor gained by a negative amount; then three of the items are lost, or a number is too great. -/
theorem inventory_stays_orderly_solo :
    let s := Scenario.solo
    let lines := ["gain item 7: 120", "lose wpn 7: 5", "gold +100000000", "gain armour 2: -6"]
    let scene := standard.dispatchAll lines ⟨s.battle, s.context⟩
    scene.battle.inventory.Orderly ∧
    (∃ w : Inventory,
      standard.dispatch (.ofLine "lose item 7: 3 of them") scene =
        (.proceed, { scene with battle := { scene.battle with inventory := w } }) ∧
      w.gold = 99999999 ∧ w.count .item 7 = 96 ∧ w.count .weapon 7 = 0 ∧ w.count .armor 2 = 1) ∧
    (standard.dispatch (.ofLine "gain item 4294967296") scene).2.battle.inventory =
      scene.battle.inventory := by
  intro s lines scene
  obtain ⟨horderly, htrade, hother⟩ := inventory_stays_orderly ⟨s.battle, s.context⟩ rfl lines
  have hthree : (Command.ofLine "lose item 7: 3 of them").StatesAmount 3 :=
    ⟨"3 of them", by decide +kernel, ⟨[], ['3'], " of them".toList, by decide, by decide,
      .unsigned (n := 3) (by decide), by decide⟩, by decide, by decide⟩
  have hseven : Text.IsNumeral "7".toList 7 := Text.isNumeral_iff.mpr (by decide)
  have hlose : (Command.ofLine "lose item 7: 3 of them").Trades (.things .item 7 (-3)) :=
    .lose List.mem_cons_self (by decide +kernel) hseven (.stated hthree)
  obtain ⟨w, hw, hgold, hown, hothers⟩ := htrade _ _ hlose
  have hbig : ∀ t, ¬ (Command.ofLine "gain item 4294967296").Trades t := by
    intro t ht
    have hread := EffectOp.ofCommand?_eq_op_iff.mpr ht
    have hunread : EffectOp.ofCommand? (.ofLine "gain item 4294967296") = none := by decide +kernel
    rw [hunread] at hread
    cases hread
  refine ⟨horderly, ⟨w, hw, ?_, ?_, ?_, ?_⟩, hother _ hbig⟩
  · rw [hgold]
    decide +kernel
  · rw [hown]
    decide +kernel
  · rw [hothers _ _ (by decide)]
    decide +kernel
  · rw [hothers _ _ (by decide)]
    decide +kernel

end Chain

end BattleScript
