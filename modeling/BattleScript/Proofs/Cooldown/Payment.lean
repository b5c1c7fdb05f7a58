import BattleScript.Cooldown.Ledger
import Mathlib.Order.Bounds.Defs

/-!
# Paying for a skill

Using a skill costs cooldowns: of all known skills, of those of a type, of single skills and of the
skill itself. `pay` goes through several tables for this, but what it does is one thing again and
again: it raises a counter to at least a given value. `charges` is the list of these raises, and
`pay_eq` says that to pay is to make them one after the other.

Raises have simple laws. After any number of them a counter is at most `m` if and only if it was
before and every raise of it is (`cooldown_foldl_le_iff`), so that a counter ends as the greatest of
its old value and the costs that apply to its skill (`Cost`), in whatever order they come. And a
raise that is covered by the counter changes nothing (`charge_of_covered`), so that paying once more
does not either.

The changes that an effect makes are listed in the same way, only that they are added (`additions`,
`applyChanges_eq`).
-/

namespace BattleScript

namespace Ledger

/-- A raise of the cooldown of a skill. -/
abbrev Charge := Usable × Int

/-- Raises a cooldown of a battler. -/
def charge (settings : Settings) (b : BattlerId) (l : Ledger) (c : Charge) : Ledger :=
  l.raiseCooldown settings b c.1 c.2

/-- What using a skill raises: the known skills by the global cost, those of a type by the cost of
the type, the skill itself and single skills by their costs, and again the skill itself by zero. -/
def charges (database : Database) (used : Usable) (known : List Usable) : List Charge :=
  known.map (·, used.cooldown.globalCooldown) ++
  used.cooldown.stypeCooldown.entries.flatMap (fun (stype, x) =>
    (known.filter (·.stypeId == stype)).map (·, x)) ++
  ((used.cooldown.cooldown.map fun x => (used.id, x)).toList ++
    used.cooldown.skillCooldown.entries).filterMap
      (fun (id, x) => (database.skill? id).map (·, x)) ++
  [(used, 0)]

/-- An addition to the cooldown of a skill of a battler. -/
def addition (settings : Settings) (b : BattlerId) (l : Ledger) (c : Charge) : Ledger :=
  l.addCooldown settings b c.1 c.2

/-- What an effect adds: its global change to the known skills, unless that is zero, the change of a
type to those of the type, and the changes of single skills. -/
def additions (database : Database) (source : Usable) (known : List Usable) : List Charge :=
  (if source.cooldown.globalChange = 0 then [] else known.map (·, source.cooldown.globalChange)) ++
  source.cooldown.stypeChange.entries.flatMap (fun (stype, x) =>
    (known.filter (·.stypeId == stype)).map (·, x)) ++
  source.cooldown.skillChange.entries.filterMap
    (fun (id, x) => (database.skill? id).map (·, x))

/-- The costs of using a skill that apply to the skill with number `s`. -/
inductive Cost (database : Database) (used : Usable) (known : List Usable) (s : Nat) : Int → Prop
  /-- The global cost, if the skill is known. -/
  | global {k : Usable} (hk : k ∈ known) (hs : k.id = s) :
      Cost database used known s used.cooldown.globalCooldown
  /-- The cost for the type of the skill, if the skill is known. -/
  | stype {k : Usable} {x : Int} (hk : k ∈ known) (hs : k.id = s)
      (hx : (k.stypeId, x) ∈ used.cooldown.stypeCooldown.entries) : Cost database used known s x
  /-- The own cost of the skill that is used. -/
  | own {x : Int} (hs : s = used.id) (hx : used.cooldown.cooldown = some x) :
      Cost database used known s x
  /-- The cost for the single skill, if there is such a skill. -/
  | single {k : Usable} {x : Int} (hk : database.skill? s = some k)
      (hx : (s, x) ∈ used.cooldown.skillCooldown.entries) : Cost database used known s x
  /-- The skill that is used is left with no negative cooldown. -/
  | least (hs : s = used.id) : Cost database used known s 0

variable {settings : Settings} {database : Database} {l : Ledger} {b : BattlerId}
  {used : Usable} {known : List Usable}

/-! ## Raises -/

/-- A raise is seen at its own skill, unless that bypasses cooldowns. -/
theorem cooldown_charge (settings : Settings) (l : Ledger) (b : BattlerId) (c : Charge) (s : Nat) :
    (l.charge settings b c).cooldown b s =
      if c.1.bypasses settings = false ∧ s = c.1.id then max c.2 (l.cooldown b s)
      else l.cooldown b s := by
  rw [charge, raiseCooldown, cooldown_setCooldown]
  by_cases hs : s = c.1.id
  · rw [hs]
    simp
  · simp [hs]

/-- After any number of raises, a counter is bounded by what bounds its old value and all raises of
it. -/
theorem cooldown_foldl_le_iff (cs : List Charge) (l : Ledger) (s : Nat) (m : Int) :
    (cs.foldl (charge settings b) l).cooldown b s ≤ m ↔
      l.cooldown b s ≤ m ∧ ∀ c ∈ cs, c.1.bypasses settings = false → s = c.1.id → c.2 ≤ m := by
  induction cs generalizing l with
  | nil => simp
  | cons c cs ih =>
    rw [List.foldl_cons, ih, cooldown_charge, List.forall_mem_cons, ← and_assoc]
    refine and_congr_left fun _ => ?_
    -- the first raise is one of this counter, or it is none of its concern
    split
    · next h =>
      rw [Int.max_le, and_comm]
      exact and_congr_right fun _ => ⟨fun hc _ _ => hc, fun hc => hc h.1 h.2⟩
    · next h => exact ⟨fun hl => ⟨hl, fun hb hs => absurd ⟨hb, hs⟩ h⟩, fun hl => hl.1⟩

/-- A raise that the counter of its skill has reached already, or that is of no effect on a skill
without cooldowns. -/
def Covered (settings : Settings) (b : BattlerId) (l : Ledger) (c : Charge) : Prop :=
  c.1.bypasses settings = true ∨ ∃ v, l.counter? b c.1.id = some v ∧ c.2 ≤ v

/-- A raise to what the counter has anyway changes nothing. -/
theorem charge_of_covered {c : Charge} (h : Covered settings b l c) :
    l.charge settings b c = l := by
  rcases h with hbypass | ⟨v, hv, hle⟩
  · rw [charge, raiseCooldown, setCooldown, if_pos hbypass]
  · have hcooldown : l.cooldown b c.1.id = v := congrArg (·.getD 0) hv
    rw [charge, raiseCooldown, hcooldown, Int.max_eq_right hle]
    exact setCooldown_eq_self hv

/-- A raise covers itself. -/
theorem covered_charge (l : Ledger) (c : Charge) :
    Covered settings b (l.charge settings b c) c := by
  cases hbypass : c.1.bypasses settings with
  | true => exact .inl hbypass
  | false =>
    refine .inr ⟨max c.2 (l.cooldown b c.1.id), ?_, Int.le_max_left _ _⟩
    rw [charge, raiseCooldown, counter?_setCooldown, if_pos ⟨hbypass, rfl, rfl⟩]

/-- What is covered stays so, since counters only rise. -/
theorem Covered.charge {c : Charge} (h : Covered settings b l c) (d : Charge) :
    Covered settings b (l.charge settings b d) c := by
  refine h.imp_right fun ⟨v, hv, hle⟩ => ?_
  rw [Ledger.charge, raiseCooldown, counter?_setCooldown]
  split
  · next hd =>
    have hcooldown : l.cooldown b d.1.id = v := by
      rw [← hd.2.2]
      exact congrArg (·.getD 0) hv
    exact ⟨_, rfl, by omega⟩
  · exact ⟨v, hv, hle⟩

/-- So it does under any number of raises. -/
theorem Covered.foldl {c : Charge} (h : Covered settings b l c) (cs : List Charge) :
    Covered settings b (cs.foldl (Ledger.charge settings b) l) c := by
  induction cs generalizing l with
  | nil => exact h
  | cons d cs ih => exact ih (h.charge d)

/-- After all raises, each of them is covered. -/
theorem covered_foldl {cs : List Charge} {c : Charge} (hc : c ∈ cs) (l : Ledger) :
    Covered settings b (cs.foldl (charge settings b) l) c := by
  induction cs generalizing l with
  | nil => cases hc
  | cons d cs ih =>
    rcases List.mem_cons.mp hc with rfl | hc
    · exact (covered_charge l c).foldl cs
    · exact ih hc _

/-- Raises that are all covered change nothing together. -/
theorem foldl_of_covered {cs : List Charge} (h : ∀ c ∈ cs, Covered settings b l c) :
    cs.foldl (charge settings b) l = l := by
  induction cs with
  | nil => rfl
  | cons c cs ih =>
    rw [List.foldl_cons, charge_of_covered (h c List.mem_cons_self)]
    exact ih fun d hd => h d (List.mem_cons_of_mem c hd)

/-! ## Payments -/

/-- Skills that are found by their numbers. -/
theorem foldl_byId (f : Ledger → Charge → Ledger) (es : List (Nat × Int)) (l : Ledger) :
    (es.filterMap fun (id, x) => (database.skill? id).map (·, x)).foldl f l =
      es.foldl (fun l e => match database.skill? e.1 with
        | some skill => f l (skill, e.2)
        | none => l) l := by
  rw [List.foldl_filterMap]
  refine congrArg (fun f => es.foldl f l) (funext fun l => funext fun e => ?_)
  obtain ⟨id, x⟩ := e
  dsimp only
  cases database.skill? id <;> rfl

/-- **To pay is to raise.** -/
theorem pay_eq (settings : Settings) (database : Database) (l : Ledger) (b : BattlerId)
    (used : Usable) (known : List Usable) :
    l.pay settings database b used known =
      (charges database used known).foldl (charge settings b) l := by
  have hraiseAll (skills : List Usable) (x : Int) (l : Ledger) :
      (skills.map (·, x)).foldl (charge settings b) l = l.raiseAll settings b skills x :=
    List.foldl_map
  -- the tables of the payment one by one, the skill that is used last
  rw [charges, List.foldl_append, List.foldl_append, List.foldl_append, hraiseAll,
    List.foldl_flatMap, foldl_byId]
  simp only [hraiseAll]
  rw [List.foldl_cons, List.foldl_nil, charge, raiseCooldown, Int.max_comm]
  rfl

/-- **What an effect changes is added.** -/
theorem applyChanges_eq (settings : Settings) (database : Database) (l : Ledger) (b : BattlerId)
    (source : Usable) (known : List Usable) :
    l.applyChanges settings database b source known =
      (additions database source known).foldl (addition settings b) l := by
  have haddAll (skills : List Usable) (x : Int) (l : Ledger) :
      (skills.map (·, x)).foldl (addition settings b) l = l.addAll settings b skills x :=
    List.foldl_map
  -- a global change of zero is left out on both sides
  have hglobal : (if source.cooldown.globalChange = 0 then []
      else known.map (·, source.cooldown.globalChange)).foldl (addition settings b) l =
      if source.cooldown.globalChange = 0 then l
      else l.addAll settings b known source.cooldown.globalChange := by
    split
    · rfl
    · exact haddAll known _ l
  rw [additions, List.foldl_append, List.foldl_append, hglobal, List.foldl_flatMap, foldl_byId]
  simp only [haddAll]
  rfl

/-- Where a charge comes from: what is known pays the global cost or that of a type, what the
database has pays the own cost or that of a single skill, and the used skill pays zero. -/
theorem of_mem_charges {c : Charge} (hc : c ∈ charges database used known) :
    (c.1 ∈ known ∧ (c.2 = used.cooldown.globalCooldown ∨
      c.2 ∈ used.cooldown.stypeCooldown.values)) ∨
    ((∃ n, database.skill? n = some c.1) ∧ (c.2 ∈ used.cooldown.cooldown ∨
      c.2 ∈ used.cooldown.skillCooldown.values)) ∨ c = (used, 0) := by
  simp only [charges, List.mem_append, List.mem_map, List.mem_flatMap, List.mem_filter,
    List.mem_singleton, List.mem_filterMap, Option.map_eq_some_iff, Option.mem_toList] at hc
  rcases hc with ((⟨k, hk, rfl⟩ | ⟨e, he, k, hk, rfl⟩) | ⟨e, he, k, hk, rfl⟩) | rfl
  · exact .inl ⟨hk, .inl rfl⟩
  · exact .inl ⟨hk.1, .inr (List.mem_map_of_mem he)⟩
  · rcases he with ⟨x, hx, rfl⟩ | he
    · exact .inr (.inl ⟨⟨_, hk⟩, .inl hx⟩)
    · exact .inr (.inl ⟨⟨_, hk⟩, .inr (List.mem_map_of_mem he)⟩)
  · exact .inr (.inr rfl)

/-- What an effect adds to is known or in the database. -/
theorem of_mem_additions {source : Usable} {c : Charge} (hc : c ∈ additions database source known) :
    c.1 ∈ known ∨ ∃ n, database.skill? n = some c.1 := by
  simp only [additions, List.mem_append, List.mem_flatMap, List.mem_map, List.mem_filter,
    List.mem_filterMap, Option.map_eq_some_iff] at hc
  rcases hc with (hc | ⟨e, -, k, hk, rfl⟩) | ⟨e, -, k, hk, rfl⟩
  · split at hc
    · cases hc
    · obtain ⟨k, hk, rfl⟩ := List.mem_map.mp hc
      exact .inl hk
  · exact .inl hk.1
  · exact .inr ⟨_, hk⟩

/-- What every raise keeps, a payment keeps. -/
theorem pay_keeps {I : Ledger → Prop}
    (step : ∀ {l} (skill : Usable) (x : Int), I l → I (l.setCooldown settings b skill x))
    (h : I l) : I (l.pay settings database b used known) := by
  rw [pay_eq]
  exact List.foldlRecOn _ _ h fun l hl c _ => step c.1 _ hl

/-- Paying once more changes nothing. -/
theorem pay_pay (settings : Settings) (database : Database) (l : Ledger) (b : BattlerId)
    (used : Usable) (known : List Usable) :
    (l.pay settings database b used known).pay settings database b used known =
      l.pay settings database b used known := by
  rw [pay_eq, pay_eq settings database l]
  exact foldl_of_covered fun c hc => covered_foldl hc l

/-! ## Which costs apply -/

/-- The database has the skill, with the same word about cooldowns. -/
def Listed (settings : Settings) (database : Database) (k : Usable) : Prop :=
  ∃ k', database.skill? k.id = some k' ∧ k'.bypasses settings = k.bypasses settings

/-- The skill with a number is free of cooldowns. -/
def bypassed (settings : Settings) (database : Database) (s : Nat) : Bool :=
  (database.skill? s).any (·.bypasses settings)

/-- For a listed skill, to ask the skill and to ask its number come to the same. -/
theorem bypassed_of_listed {k : Usable} (h : Listed settings database k) :
    bypassed settings database k.id = k.bypasses settings := by
  obtain ⟨k', hk', hbypass⟩ := h
  rw [bypassed, hk', Option.any_some, hbypass]

/-- Only skills of the database are charged. -/
theorem listed_of_mem_charges (hkeyed : database.Keyed) (hused : Listed settings database used)
    (hknown : ∀ k ∈ known, database.skill? k.id = some k) {c : Charge}
    (hc : c ∈ charges database used known) : Listed settings database c.1 := by
  rcases of_mem_charges hc with ⟨hk, -⟩ | ⟨⟨n, hn⟩, -⟩ | rfl
  · exact ⟨c.1, hknown c.1 hk, rfl⟩
  · exact ⟨c.1, by rw [hkeyed _ _ hn]; exact hn, rfl⟩
  · exact hused

/-- The charges of a skill are the costs that apply to it. -/
theorem mem_charges_iff (hkeyed : database.Keyed) (hused : Listed settings database used) {s : Nat}
    {x : Int} : (∃ k, (k, x) ∈ charges database used known ∧ s = k.id) ↔
      Cost database used known s x := by
  simp only [charges, List.mem_append, List.mem_map, List.mem_flatMap, List.mem_filter,
    List.mem_singleton, List.mem_filterMap, Option.map_eq_some_iff, Prod.mk.injEq,
    Option.mem_toList, Prod.exists, beq_iff_eq]
  -- the five tables of `charges` are the five kinds of costs
  constructor
  · rintro ⟨k, ((⟨_, hk, rfl, rfl⟩ | ⟨_, _, hx, _, ⟨hk, rfl⟩, rfl, rfl⟩) |
      ⟨_, _, hx, _, hk, rfl, rfl⟩) | ⟨rfl, rfl⟩, rfl⟩
    · exact .global hk rfl
    · exact .stype hk rfl hx
    · rcases hx with ⟨_, hx, rfl, rfl⟩ | hx
      · exact .own (hkeyed _ _ hk) hx
      · have hid := hkeyed _ _ hk
        subst hid
        exact .single hk hx
    · exact .least rfl
  · rintro (⟨hk, rfl⟩ | ⟨hk, rfl, hx⟩ | ⟨rfl, hx⟩ | ⟨hk, hx⟩ | rfl)
    · exact ⟨_, .inl (.inl (.inl ⟨_, hk, rfl, rfl⟩)), rfl⟩
    · exact ⟨_, .inl (.inl (.inr ⟨_, _, hx, _, ⟨hk, rfl⟩, rfl, rfl⟩)), rfl⟩
    · obtain ⟨k, hk, -⟩ := hused
      exact ⟨k, .inl (.inr ⟨_, _, .inl ⟨_, hx, rfl, rfl⟩, _, hk, rfl, rfl⟩), (hkeyed _ _ hk).symm⟩
    · exact ⟨_, .inl (.inr ⟨_, _, .inr hx, _, hk, rfl, rfl⟩), (hkeyed _ _ hk).symm⟩
    · exact ⟨_, .inr ⟨rfl, rfl⟩, rfl⟩

/-- A counter that may be reached by costs is bounded by what bounds its old value and the costs. -/
theorem cooldown_pay_le_iff (hkeyed : database.Keyed) (hused : Listed settings database used)
    (hknown : ∀ k ∈ known, database.skill? k.id = some k) {s : Nat}
    (hs : bypassed settings database s = false) (m : Int) :
    (l.pay settings database b used known).cooldown b s ≤ m ↔
      l.cooldown b s ≤ m ∧ ∀ x, Cost database used known s x → x ≤ m := by
  rw [pay_eq, cooldown_foldl_le_iff]
  refine and_congr_right fun _ => ?_
  -- costs are counted by number, charges are made skill by skill
  constructor
  · intro h x hx
    obtain ⟨k, hk, hks⟩ := (mem_charges_iff hkeyed hused).mpr hx
    have hlisted := listed_of_mem_charges hkeyed hused hknown hk
    exact h _ hk (by rw [← bypassed_of_listed hlisted, ← hks, hs]) hks
  · intro h c hc _ hcs
    exact h c.2 ((mem_charges_iff hkeyed hused).mp ⟨c.1, hc, hcs⟩)

/-- A skill without cooldowns keeps what it has. -/
theorem cooldown_pay_of_bypassed (hkeyed : database.Keyed) (hused : Listed settings database used)
    (hknown : ∀ k ∈ known, database.skill? k.id = some k) {s : Nat}
    (hs : bypassed settings database s = true) :
    (l.pay settings database b used known).cooldown b s = l.cooldown b s := by
  have hiff (m : Int) :
      (l.pay settings database b used known).cooldown b s ≤ m ↔ l.cooldown b s ≤ m := by
    rw [pay_eq, cooldown_foldl_le_iff]
    refine and_iff_left fun c hc hbypass hcs => ?_
    have hlisted := listed_of_mem_charges hkeyed hused hknown hc
    rw [hcs, bypassed_of_listed hlisted, hbypass] at hs
    cases hs
  exact Int.le_antisymm ((hiff _).mpr (Int.le_refl _)) ((hiff _).mp (Int.le_refl _))

/-- No payment lowers a counter. -/
theorem cooldown_le_pay (settings : Settings) (database : Database) (l : Ledger) (b : BattlerId)
    (used : Usable) (known : List Usable) (c : BattlerId) (s : Nat) :
    l.cooldown c s ≤ (l.pay settings database b used known).cooldown c s := by
  by_cases hc : c = b
  · subst hc
    rw [pay_eq]
    exact ((cooldown_foldl_le_iff _ l s _).mp (Int.le_refl _)).1
  · have hfind : (l.pay settings database b used known).find? c = l.find? c :=
      pay_keeps (I := fun l' => l'.find? c = l.find? c)
        (fun skill x h => (find?_setCooldown_of_ne settings _ hc skill x).trans h) rfl
    exact Int.le_of_eq (by rw [cooldown, cooldown, hfind])

/-! ## The order of the tables -/

/-- The skills cost the same, in another order. -/
structure Reordered (u v : Usable) : Prop where
  id : v.id = u.id
  bypass : v.cooldown.bypass = u.cooldown.bypass
  global : v.cooldown.globalCooldown = u.cooldown.globalCooldown
  own : v.cooldown.cooldown = u.cooldown.cooldown
  stypes : v.cooldown.stypeCooldown.entries.Perm u.cooldown.stypeCooldown.entries
  singles : v.cooldown.skillCooldown.entries.Perm u.cooldown.skillCooldown.entries

/-- The order may as well be changed back. -/
theorem Reordered.symm {u v : Usable} (h : Reordered u v) : Reordered v u :=
  ⟨h.id.symm, h.bypass.symm, h.global.symm, h.own.symm, h.stypes.symm, h.singles.symm⟩

/-- The same costs apply, in whatever order they are listed. -/
theorem Reordered.cost {u v : Usable} (h : Reordered u v) {s : Nat} {x : Int}
    (hx : Cost database u known s x) : Cost database v known s x := by
  cases hx with
  | global hk hs => exact h.global ▸ .global hk hs
  | stype hk hs hx => exact .stype hk hs (h.stypes.mem_iff.mpr hx)
  | own hs hx => exact .own (hs.trans h.id.symm) (h.own.trans hx)
  | single hk hx => exact .single hk (h.singles.mem_iff.mpr hx)
  | least hs => exact .least (hs.trans h.id.symm)

/-- What is listed does not depend on it either. -/
theorem Reordered.listed {u v : Usable} (h : Reordered u v) (hu : Listed settings database u) :
    Listed settings database v := by
  obtain ⟨k, hk, hbypass⟩ := hu
  refine ⟨k, h.id ▸ hk, hbypass.trans ?_⟩
  rw [Usable.bypasses, Usable.bypasses, h.bypass, h.id]

/-- The readings after a payment do not depend on the order of the costs. -/
theorem cooldown_pay_of_reordered (hkeyed : database.Keyed) (hused : Listed settings database used)
    (hknown : ∀ k ∈ known, database.skill? k.id = some k) {used' : Usable}
    (h : Reordered used used') (s : Nat) :
    (l.pay settings database b used' known).cooldown b s =
      (l.pay settings database b used known).cooldown b s := by
  have hused' : Listed settings database used' := h.listed hused
  cases hs : bypassed settings database s with
  | true =>
    rw [cooldown_pay_of_bypassed hkeyed hused' hknown hs,
      cooldown_pay_of_bypassed hkeyed hused hknown hs]
  | false =>
    have hiff (m : Int) : (l.pay settings database b used' known).cooldown b s ≤ m ↔
        (l.pay settings database b used known).cooldown b s ≤ m := by
      rw [cooldown_pay_le_iff hkeyed hused' hknown hs, cooldown_pay_le_iff hkeyed hused hknown hs]
      exact and_congr_right fun _ =>
        forall_congr' fun x => imp_congr_left ⟨h.symm.cost, h.cost⟩
    exact Int.le_antisymm ((hiff _).mpr (Int.le_refl _)) ((hiff _).mp (Int.le_refl _))

/-! ## What a payment leaves -/

/-- What has the same upper bounds as a number and the members of a set is the greatest of them. -/
theorem isGreatest_of_le_iff {v old : Int} {P : Int → Prop}
    (h : ∀ m, v ≤ m ↔ old ≤ m ∧ ∀ x, P x → x ≤ m) : IsGreatest {x | x = old ∨ P x} v := by
  obtain ⟨hold, hP⟩ := (h v).mp (Int.le_refl v)
  refine ⟨?_, ?_⟩
  · -- otherwise everything would be below v by one, and so would v
    refine Classical.byContradiction fun hv => ?_
    have hne : old ≠ v ∧ ¬ P v := ⟨fun ho => hv (.inl ho.symm), fun hp => hv (.inr hp)⟩
    have hlt : v ≤ v - 1 := by
      refine (h (v - 1)).mpr ⟨by have := hne.1; omega, fun x hx => ?_⟩
      have := hP x hx
      have hxv : x ≠ v := fun hxv => hne.2 (hxv ▸ hx)
      omega
    omega
  · rintro x (rfl | hx)
    · exact hold
    · exact hP x hx

/-- **A payment leaves every counter at its greatest cost.** A skill that is free of cooldowns keeps
its counter; any other one is left with the greatest of its old value and the costs that apply to
it. So no counter is lowered, the order of the cost tables is of no matter to what is read off the
ledger, and paying once more changes nothing. Warmups and the other battlers are left alone. -/
theorem pay_leaves_greatest_cost (settings : Settings) (database : Database) (l : Ledger)
    (b : BattlerId) (used : Usable) (known : List Usable) (hkeyed : database.Keyed)
    (hused : database.skill? used.id = some used)
    (hknown : ∀ k ∈ known, database.skill? k.id = some k) :
    let paid := l.pay settings database b used known
    (∀ s, (bypassed settings database s = true → paid.cooldown b s = l.cooldown b s) ∧
      (bypassed settings database s = false →
        IsGreatest {x | x = l.cooldown b s ∨ Cost database used known s x} (paid.cooldown b s))) ∧
    (∀ c s, l.cooldown c s ≤ paid.cooldown c s) ∧
    (∀ used', Reordered used used' → ∀ s,
      (l.pay settings database b used' known).cooldown b s = paid.cooldown b s) ∧
    paid.pay settings database b used known = paid ∧
    (∀ c s, paid.warmup c s = l.warmup c s) ∧
    ∀ c, c ≠ b → paid.find? c = l.find? c := by
  intro paid
  have hlisted : Listed settings database used := ⟨used, hused, rfl⟩
  refine ⟨fun s => ⟨?_, fun hs => ?_⟩, ?_, ?_, ?_, fun c s => ?_, fun c hc => ?_⟩
  · exact cooldown_pay_of_bypassed hkeyed hlisted hknown
  · exact isGreatest_of_le_iff (cooldown_pay_le_iff hkeyed hlisted hknown hs)
  · exact cooldown_le_pay settings database l b used known
  · exact fun used' h => cooldown_pay_of_reordered hkeyed hlisted hknown h
  · exact pay_pay settings database l b used known
  · exact pay_keeps (I := fun l' => l'.warmup c s = l.warmup c s)
      (fun skill x h => (warmup_setCooldown settings _ b c skill x s).trans h) rfl
  · exact pay_keeps (I := fun l' => l'.find? c = l.find? c)
      (fun skill x h => (find?_setCooldown_of_ne settings _ hc skill x).trans h) rfl

/-- A skill that costs another one 2 and all known ones 1 leaves the other one at 2, from -4 on. -/
theorem pay_leaves_greatest_cost_overlap :
    let fire : Usable := ⟨10, "Fire", 1, 0,
      { cooldown := { globalCooldown := 1, skillCooldown := .ofList [(11, 2)] } }⟩
    let ice : Usable := ⟨11, "Ice", 2, 0, {}⟩
    let database := (({} : Database).insertSkill fire).insertSkill ice
    let l := ({} : Ledger).setCooldown {} (.actor 0) ice (-4)
    IsGreatest {x | x = -4 ∨ Cost database fire [fire, ice] 11 x} 2 ∧
      (l.pay {} database (.actor 0) fire [fire, ice]).pay {} database (.actor 0) fire [fire, ice] =
        l.pay {} database (.actor 0) fire [fire, ice] := by
  intro fire ice database l
  have hkeyed : database.Keyed := (Database.keyed_empty.insertSkill fire).insertSkill ice
  have hknown : ∀ k ∈ [fire, ice], database.skill? k.id = some k := by
    intro k hk
    simp only [List.mem_cons, List.not_mem_nil, or_false] at hk
    rcases hk with rfl | rfl <;> rfl
  obtain ⟨hpaid, -, -, hagain, -⟩ :=
    pay_leaves_greatest_cost {} database l (.actor 0) fire [fire, ice] hkeyed rfl hknown
  have hold : l.cooldown (.actor 0) 11 = -4 := by decide
  have hnew : (l.pay {} database (.actor 0) fire [fire, ice]).cooldown (.actor 0) 11 = 2 := by
    decide
  have hgreatest := (hpaid 11).2 (by decide)
  rw [hold, hnew] at hgreatest
  exact ⟨hgreatest, hagain⟩

end Ledger

end BattleScript
