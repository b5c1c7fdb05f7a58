import BattleScript.Proofs.Battler.Pools
import BattleScript.Proofs.Scenario

/-!
# Battlers at the start of a battle

A battler is described freely: any HP, any TP, any states. It is made in steps. A battler in full
health gets the pools of its description, then its states one after the other, and only then, with
all others, the death state and the TP limit of the settings.

The order shows. HP and MP are brought under maxima that are known by then, and stay there. The TP
are not, since their limit comes later. States are given while state 1 still means death, whatever
the settings say; and no HP at the start are not yet a death. So a battler need not be `Sound`, and
`Scenario.start_sound_iff` says which descriptions make it so.

What the states do is settled by one invariant of giving them (`Battler.Received`): the HP are
gone and nothing but death is left as soon as death was among the states given, and until then all
of them are kept.
-/

namespace BattleScript

namespace Battler

/-- All pools are in range, and the battler is dead if and only if it has no HP. -/
structure Sound (x : Battler) : Prop where
  inRange : ∀ p, x.InRange p
  dead_iff : x.isDead ↔ x.hp = 0

/-! ## Giving states -/

/-- No states, no buffs, and mortal. -/
structure Untouched (x : Battler) : Prop where
  states : x.states = []
  buffs : x.buffs = .fill 0
  buffTurns : x.buffTurns = .fill 0
  mortal : x.immortal = false

/-- What becomes of a battler that is given states: its HP and its states, and nothing else. -/
def Received (x : Battler) (given : List Nat) (y : Battler) : Prop :=
  ∃ kept, y = { x with hp := if x.deathState ∈ given then 0 else x.hp, states := kept } ∧
    ∀ s, s ∈ kept ↔ if x.deathState ∈ given then s = x.deathState else s ∈ given

variable {x y : Battler} {given : List Nat}

theorem hasState_iff {s : Nat} : x.hasState s ↔ s ∈ x.states := List.contains_iff_mem

/-- A state that a battler has is not given to it again. -/
theorem addState_of_mem {s : Nat} (h : s ∈ x.states) : (x.addState s).2 = x := by
  rw [addState, if_pos (hasState_iff.mpr h)]

/-- The state of death kills the living. -/
theorem addState_deathState (alive : x.deathState ∉ x.states) (mortal : x.immortal = false) :
    (x.addState x.deathState).2 = { x.perish with states := [x.deathState] } := by
  rw [addState, if_neg (mt hasState_iff.mp alive), if_pos rfl, if_neg (by simp [mortal])]

/-- The living get any other state. -/
theorem addState_of_alive {s : Nat} (alive : x.deathState ∉ x.states) (hs : s ≠ x.deathState)
    (hnew : s ∉ x.states) : (x.addState s).2 = { x with states := x.states ++ [s] } := by
  rw [addState, if_neg (mt hasState_iff.mp hnew), if_neg hs,
    if_neg (mt isDead_iff.mp alive)]

/-- The dead get no states. -/
theorem addState_of_dead (h : x.deathState ∈ x.states) (s : Nat) : (x.addState s).2 = x := by
  by_cases hs : s ∈ x.states
  · exact addState_of_mem hs
  · have hne : s ≠ x.deathState := by
      rintro rfl
      exact hs h
    rw [addState, if_neg (mt hasState_iff.mp hs), if_neg hne, if_pos (isDead_iff.mpr h)]

/-- Whoever was given nothing has no states. -/
theorem received_nil (hx : x.Untouched) : Received x [] x := by
  refine ⟨[], ?_, fun s => ?_⟩
  · rw [if_neg List.not_mem_nil]
    exact hx.states ▸ rfl
  · rw [if_neg List.not_mem_nil]

/-- One more state is given: the dead take none, the state of death takes the HP and all other
states, and a state of the living is kept once. -/
theorem Received.addState (hx : x.Untouched) (h : Received x given y) (s : Nat) :
    Received x (given ++ [s]) (y.addState s).2 := by
  obtain ⟨kept, rfl, hmem⟩ := h
  have hlast (t : Nat) : t ∈ given ++ [s] ↔ t ∈ given ∨ t = s := by simp
  by_cases hd : x.deathState ∈ given
  · -- dead already
    have hdead : x.deathState ∈ kept := by rw [hmem, if_pos hd]
    have hd' : x.deathState ∈ given ++ [s] := (hlast _).mpr (.inl hd)
    rw [addState_of_dead hdead]
    refine ⟨kept, ?_, fun t => ?_⟩
    · rw [if_pos hd, if_pos hd']
    · rw [hmem, if_pos hd, if_pos hd']
  · simp only [if_neg hd] at hmem ⊢
    have halive : x.deathState ∉ kept := fun hdead => hd ((hmem _).mp hdead)
    let z : Battler := { x with states := kept }
    show Received x (given ++ [s]) (z.addState s).2
    by_cases hs : s = x.deathState
    · -- the state of death
      subst hs
      have hd' : x.deathState ∈ given ++ [x.deathState] := (hlast _).mpr (.inr rfl)
      have hdies : (z.addState x.deathState).2 = { z.perish with states := [x.deathState] } :=
        addState_deathState (x := z) halive hx.mortal
      refine ⟨[x.deathState], hdies.trans ?_, fun t => ?_⟩
      · rw [if_pos hd', perish, ← hx.buffs, ← hx.buffTurns]
      · rw [if_pos hd', List.mem_singleton]
    · have hd' : x.deathState ∉ given ++ [s] := by
        rw [hlast]
        rintro (hmem | heq)
        · exact hd hmem
        · exact hs heq.symm
      by_cases hgiven : s ∈ given
      · -- a state it has
        rw [addState_of_mem (x := z) ((hmem s).mpr hgiven)]
        refine ⟨kept, ?_, fun t => ?_⟩
        · rw [if_neg hd']
        · rw [hmem, if_neg hd', hlast]
          constructor
          · exact .inl
          · rintro (ht | rfl)
            · exact ht
            · exact hgiven
      · have hnew : s ∉ kept := fun hkept => hgiven ((hmem s).mp hkept)
        rw [addState_of_alive (x := z) halive hs hnew]
        refine ⟨kept ++ [s], ?_, fun t => ?_⟩
        · rw [if_neg hd']
        · rw [if_neg hd', hlast, List.mem_append, hmem, List.mem_singleton]

/-- **States are kept until death is among them.** -/
theorem received_foldl (hx : x.Untouched) (states : List Nat) :
    Received x states (states.foldl (fun y s => (y.addState s).2) x) := by
  have hrest (given rest : List Nat) {y : Battler} (h : Received x given y) :
      Received x (given ++ rest) (rest.foldl (fun y s => (y.addState s).2) y) := by
    induction rest generalizing given y with
    | nil => rwa [List.append_nil]
    | cons s rest ih =>
      rw [List.append_cons]
      exact ih _ (h.addState hx s)
  exact hrest [] states (received_nil hx)

end Battler

namespace BattlerSpec

/-- The battler that is described, before it gets its states. -/
def stateless (s : BattlerSpec) : Battler :=
  { Battler.fresh s.name s.dataId s.mhp s.mmp with
    hp := (s.hp.map (clampTo 0 (Battler.fresh s.name s.dataId s.mhp s.mmp).mhp)).getD (max s.mhp 1)
    mp := (s.mp.map (clampTo 0 (Battler.fresh s.name s.dataId s.mhp s.mmp).mmp)).getD (max s.mmp 0)
    tp := max s.tp 0
    skills := s.skills }

/-- The description leaves the battler no HP: it gives it state 1, or says so. -/
def Fallen (s : BattlerSpec) : Prop := 1 ∈ s.states ∨ ∃ hp, s.hp = some hp ∧ hp ≤ 0

/-- The battler begins with the state: of the states described all, unless state 1 is among them. -/
def Begins (s : BattlerSpec) (state : Nat) : Prop :=
  if 1 ∈ s.states then state = 1 else state ∈ s.states

instance (s : BattlerSpec) (state : Nat) : Decidable (s.Begins state) := by
  unfold Begins
  infer_instance

/-- A battler that is built is one without states to whom the states of its description were
given. -/
theorem received_build (s : BattlerSpec) : Battler.Received s.stateless s.states s.build :=
  Battler.received_foldl ⟨rfl, rfl, rfl, rfl⟩ s.states

/-- A battler in full health has the maximum of HP of its description, and one at least. -/
theorem mhp_fresh {s : BattlerSpec} (h : s.mhp ≤ int32Max) :
    (Battler.fresh s.name s.dataId s.mhp s.mmp).mhp = max s.mhp 1 :=
  Battler.mhp_recruit s.name s.dataId s.mmp 1 100 h

/-- Before any states, the battler has no HP only if it is described so. -/
theorem hp_stateless {s : BattlerSpec} (h : s.mhp ≤ int32Max) :
    0 ≤ s.stateless.hp ∧ s.stateless.hp ≤ max s.mhp 1 ∧
      (s.stateless.hp = 0 ↔ ∃ hp, s.hp = some hp ∧ hp ≤ 0) := by
  have hpos : 0 < max s.mhp 1 := by omega
  rw [stateless, mhp_fresh h]
  cases hhp : s.hp with
  | none =>
    show 0 ≤ max s.mhp 1 ∧ max s.mhp 1 ≤ max s.mhp 1 ∧ _
    refine ⟨by omega, Int.le_refl _, ?_⟩
    constructor
    · intro hzero
      have hzero : max s.mhp 1 = 0 := hzero
      omega
    · rintro ⟨hp, hsome, -⟩
      cases hsome
  | some hp =>
    refine ⟨le_clampTo (by omega) hp, clampTo_le (by omega) hp, ?_⟩
    -- they are zero if what the description asks for is not above zero
    have hiff : clampTo 0 (max s.mhp 1) hp = 0 ↔ hp ≤ 0 := clampTo_eq_lo_iff hpos
    constructor
    · exact fun hzero => ⟨hp, rfl, hiff.mp hzero⟩
    · rintro ⟨n, hsome, hle⟩
      cases hsome
      exact hiff.mpr hle

/-- Its maximum of MP is that of the description, and not below zero. -/
theorem mmp_fresh {s : BattlerSpec} (h : s.mmp ≤ int32Max) :
    (Battler.fresh s.name s.dataId s.mhp s.mmp).mmp = max s.mmp 0 := by
  have hbase : (Battler.fresh s.name s.dataId s.mhp s.mmp).params.get .maxMp = max s.mmp 0 := by
    simp [Battler.fresh]
  rw [Battler.mmp, Battler.param_of_unbuffed (PerParam.get_fill 0 _), hbase]
  have : (0 : Int) ≤ int32Max := by decide
  exact clampTo_of_mem (by omega) (by omega)

/-- Before any states, the MP lie between zero and that maximum. -/
theorem mp_stateless {s : BattlerSpec} (h : s.mmp ≤ int32Max) :
    0 ≤ s.stateless.mp ∧ s.stateless.mp ≤ max s.mmp 0 := by
  rw [stateless, mmp_fresh h]
  cases hmp : s.mp with
  | none => exact ⟨Int.le_max_right _ _, Int.le_refl _⟩
  | some mp => exact ⟨le_clampTo (by omega) mp, clampTo_le (by omega) mp⟩

/-- The battler that is described, by the rules of a game. -/
def enlist (s : BattlerSpec) (settings : Settings) : Battler :=
  { s.build with deathState := settings.deathState, maxTp := settings.maxTp }

/-- What a battler has at the start. -/
theorem enlist_spec {s : BattlerSpec} (hmhp : s.mhp ≤ int32Max) (hmmp : s.mmp ≤ int32Max)
    (settings : Settings) :
    (s.enlist settings).InRange .hp ∧ (s.enlist settings).InRange .mp ∧
      (s.enlist settings).tp = max s.tp 0 ∧ ((s.enlist settings).hp = 0 ↔ s.Fallen) ∧
      ((s.enlist settings).isDead ↔ s.Begins settings.deathState) := by
  obtain ⟨kept, hbuild, hmem⟩ := received_build s
  obtain ⟨hp_nonneg, hp_le, hp_zero⟩ := hp_stateless hmhp
  obtain ⟨mp_nonneg, mp_le⟩ := mp_stateless hmmp
  have hdeath : s.stateless.deathState = 1 := rfl
  rw [hdeath] at hbuild hmem
  -- the settings change neither pools nor parameters, so all of them are those of the description
  have hhp : (s.enlist settings).hp = if 1 ∈ s.states then 0 else s.stateless.hp := by
    rw [enlist, hbuild]
  have hmhp' : (s.enlist settings).mhp = max s.mhp 1 := by
    rw [enlist, hbuild]
    exact mhp_fresh hmhp
  have hmp : (s.enlist settings).mp = s.stateless.mp := by rw [enlist, hbuild]
  have hmmp' : (s.enlist settings).mmp = max s.mmp 0 := by
    rw [enlist, hbuild]
    exact mmp_fresh hmmp
  refine ⟨⟨?_, ?_⟩, ⟨?_, ?_⟩, ?_, ?_, ?_⟩
  · show 0 ≤ (s.enlist settings).hp
    rw [hhp]
    split <;> omega
  · show (s.enlist settings).hp ≤ (s.enlist settings).mhp
    rw [hhp, hmhp']
    split <;> omega
  · show 0 ≤ (s.enlist settings).mp
    rw [hmp]
    exact mp_nonneg
  · show (s.enlist settings).mp ≤ (s.enlist settings).mmp
    rw [hmp, hmmp']
    exact mp_le
  · rw [enlist, hbuild]
    rfl
  · rw [hhp, Fallen, ← hp_zero]
    split
    · next h1 => exact iff_of_true rfl (.inl h1)
    · next h1 => exact ⟨.inr, fun h => h.resolve_left h1⟩
  · have hstates : (s.enlist settings).states = kept := by rw [enlist, hbuild]
    rw [Battler.isDead_iff, hstates, hmem]
    rfl

end BattlerSpec

namespace Scenario

/-- The description of the battler at a place. -/
def spec? (s : Scenario) : BattlerId → Option BattlerSpec
  | .actor i => s.party[i]?
  | .enemy i => s.troop[i]?

/-- Every place has the battler that its description makes. -/
theorem get?_specs (s : Scenario) (id : BattlerId) :
    s.roster.get? id = (s.spec? id).map BattlerSpec.build := by
  cases id <;> simp [roster, Roster.get?, spec?]

/-- The battlers of the battle that is built are those described. -/
theorem get?_roster {s : Scenario} {b : Battle} {r : Runner} (h : s.build? = .ok (b, r))
    (id : BattlerId) : b.roster.get? id = (s.spec? id).map (·.enlist s.settings) := by
  have hb : b = s.battle.payCooldowns s.subject s.item := congrArg Prod.snd (build?_eq_ok h)
  have hroster : s.battle.roster = s.roster.withRules s.settings.deathState s.settings.maxTp := rfl
  rw [hb, Battle.roster_payCooldowns, hroster, Roster.withRules, Roster.get?_map, get?_specs,
    Option.map_map]
  rfl

/-- The user of a battle that is built is one of its battlers. -/
theorem exists_user {s : Scenario} {b : Battle} {r : Runner} (h : s.build? = .ok (b, r)) :
    ∃ u, b.roster.get? s.subject = some u := by
  have hsome : (s.roster.get? s.subject).isNone = false := by
    -- a scenario without its user is not built
    unfold build? at h
    split at h
    · cases h
    · split at h
      · cases h
      · next hsubject => exact Bool.eq_false_iff.mpr hsubject
  rw [get?_specs] at hsome
  rw [get?_roster h]
  cases hspec : s.spec? s.subject with
  | none => simp [hspec] at hsome
  | some spec => exact ⟨_, rfl⟩

/-- Nobody is immortal at the start. -/
theorem mortal_of_build {s : Scenario} {b : Battle} {r : Runner} (h : s.build? = .ok (b, r))
    {id : BattlerId} {x : Battler} (hx : b.roster.get? id = some x) : x.immortal = false := by
  rw [get?_roster h] at hx
  obtain ⟨spec, -, rfl⟩ := Option.map_eq_some_iff.mp hx
  obtain ⟨kept, hbuild, -⟩ := BattlerSpec.received_build spec
  rw [BattlerSpec.enlist, hbuild]
  rfl

/-- The description of a place is one of the descriptions. -/
theorem mem_of_spec? {s : Scenario} {id : BattlerId} {spec : BattlerSpec}
    (h : s.spec? id = some spec) : spec ∈ s.party ++ s.troop := by
  cases id with
  | actor i => exact List.mem_append_left _ (List.mem_of_getElem? h)
  | enemy i => exact List.mem_append_right _ (List.mem_of_getElem? h)

/-- **How battlers start.** Take a scenario with a TP limit that is not negative, and any battler
of the battle that is built from it. The battler goes by the rules of the settings, its HP and MP
are in range, and its TP are not negative. It is `Sound` if and only if its description gives it
no more TP than the limit, and leaves it no HP exactly if the death state of the settings is among
the states that it begins with. -/
theorem start_sound_iff {s : Scenario} {b : Battle} {r : Runner} (h : s.build? = .ok (b, r))
    (hmaxTp : 0 ≤ s.settings.maxTp)
    (hfits : ∀ spec ∈ s.party ++ s.troop, spec.mhp ≤ int32Max ∧ spec.mmp ≤ int32Max)
    {id : BattlerId} {x : Battler} (hx : b.roster.get? id = some x) :
    x.maxTp = s.settings.maxTp ∧ x.deathState = s.settings.deathState ∧
      x.InRange .hp ∧ x.InRange .mp ∧ 0 ≤ x.tp ∧
      ∃ spec, s.spec? id = some spec ∧ (x.hp = 0 ↔ spec.Fallen) ∧
        (x.isDead ↔ spec.Begins s.settings.deathState) ∧
        (x.Sound ↔ spec.tp ≤ s.settings.maxTp ∧
          (spec.Begins s.settings.deathState ↔ spec.Fallen)) := by
  rw [get?_roster h] at hx
  obtain ⟨spec, hspec, rfl⟩ := Option.map_eq_some_iff.mp hx
  obtain ⟨hmhp, hmmp⟩ := hfits spec (mem_of_spec? hspec)
  obtain ⟨hhp, hmp, htp, hzero, hdead⟩ := BattlerSpec.enlist_spec hmhp hmmp s.settings
  have htp_nonneg : 0 ≤ (spec.enlist s.settings).tp := by omega
  refine ⟨rfl, rfl, hhp, hmp, htp_nonneg, spec, hspec, hzero, hdead, ?_⟩
  -- HP and MP are in range in any case, so it comes down to the TP and to life and death
  constructor
  · intro hsound
    have hle : (spec.enlist s.settings).tp ≤ s.settings.maxTp := (hsound.inRange .tp).2
    refine ⟨by omega, ?_⟩
    rw [← hdead, ← hzero]
    exact hsound.dead_iff
  · rintro ⟨hle, hiff⟩
    have htp_le : (spec.enlist s.settings).tp ≤ s.settings.maxTp := by omega
    constructor
    · intro p
      cases p with
      | hp => exact hhp
      | mp => exact hmp
      | tp => exact ⟨htp_nonneg, htp_le⟩
    · rw [hdead, hzero]
      exact hiff

/-- A game in which state 5 means death, with one battler over the TP limit, one without HP, one
with the state of death, and one as it should be. -/
def assorted : Scenario where
  settings := { deathState := 5 }
  party := [{ name := "Ann", mhp := 10, tp := 200 }, { name := "Bob", mhp := 10, hp := some 0 },
    { name := "Cid", mhp := 10, states := [5] }, { name := "Dot", mhp := 10, states := [2] }]
  skills := [{ id := 1, name := "Rest" }]
  subject := .actor 3
  item := .skill 1

/-- Dot starts as a battler should. -/
theorem start_sound_iff_assorted :
    ∃ b r x, assorted.build? = .ok (b, r) ∧ 0 ≤ assorted.settings.maxTp ∧
      b.roster.get? (.actor 3) = some x ∧ x.Sound := by
  refine ⟨_, _, _, rfl, by decide, rfl, ?_⟩
  obtain ⟨-, -, -, -, -, spec, hspec, -, -, hsound⟩ :=
    start_sound_iff (s := assorted) rfl (by decide) (by decide)
      (show Roster.get? _ (.actor 3) = some _ from rfl)
  cases hspec
  -- Dot has HP, and state 2 is not the state of death
  refine hsound.mpr ⟨by decide, iff_of_false (by decide) ?_⟩
  rintro (hstate | ⟨hp, hhp, -⟩)
  · exact absurd hstate (by decide)
  · cases hhp

/-- Not every battler is sound at the start: one has more TP than the limit, one has no HP and does
not hold the death state, and one holds it and has all its HP. -/
theorem start_unsound_assorted :
    ∃ b r, assorted.build? = .ok (b, r) ∧ 0 ≤ assorted.settings.maxTp ∧
      (∃ x, b.roster.get? (.actor 0) = some x ∧ assorted.settings.maxTp < x.tp) ∧
      (∃ x, b.roster.get? (.actor 1) = some x ∧ x.hp = 0 ∧ ¬ x.isDead) ∧
      ∃ x, b.roster.get? (.actor 2) = some x ∧ x.isDead ∧ x.hp = 10 :=
  ⟨_, _, rfl, by decide, ⟨_, rfl, by decide⟩, ⟨_, rfl, by decide⟩, _, rfl, by decide⟩

end Scenario

end BattleScript
