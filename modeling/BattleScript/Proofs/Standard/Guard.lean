import BattleScript.Proofs.Collapse.Commands
import BattleScript.Proofs.Target.Commands

/-!
# Immortality guards life

Whoever is alive and immortal (`Battler.Stands`) stays so whatever is done to it, unless that is to
make it mortal (`Battler.Op.stands_apply`): the immortal are not given the state of death, and
without HP they are left as they are.

The commands for pools, buffs, states, immortality and collapse give their targets a treatment, one
after the other. What a treatment keeps of every single battler, it keeps of the one at a given
place (`Treatment.Does.has`). All other commands leave the battlers alone. So only two kinds of
lines can make a battler mortal, those for immortality that do not say that it is on and collapses
by force, and without them nobody who is immortal falls (`Battle.immortality_guards_life`).
-/

namespace BattleScript

/-! ## Battlers -/

namespace Battler

/-- The battler is alive and immortal. -/
structure Stands (x : Battler) : Prop where
  alive : x.isAlive
  immortal : x.immortal

namespace Stands

variable {x : Battler}

/-- Who stands is not dead. -/
theorem isDead_eq (h : x.Stands) : x.isDead = false := by
  simpa [isAlive] using h.alive

/-- Without the state of death a battler is alive. -/
theorem of_states (himmortal : x.immortal) (hstates : x.deathState ∉ x.states) : x.Stands where
  alive := by
    rw [isAlive, Bool.not_eq_true', Bool.eq_false_iff]
    exact fun dead => hstates (isDead_iff.mp dead)
  immortal := himmortal

/-- Who stands does not have the state of death. -/
theorem deathState_not_mem (h : x.Stands) : x.deathState ∉ x.states := fun hmem => by
  have dead : x.isDead := isDead_iff.mpr hmem
  rw [h.isDead_eq] at dead
  cases dead

/-- Refreshing brings it under its maxima and leaves it at that, even without HP. -/
theorem refresh (h : x.Stands) : x.refresh.Stands := by
  have hcap : x.capPools.Stands := ⟨h.alive, h.immortal⟩
  have hsettle : x.capPools.settleLife = x.capPools := by
    unfold settleLife
    rw [hcap.immortal, hcap.isDead_eq, Bool.true_or, if_pos rfl, if_neg Bool.false_ne_true,
      ite_self]
  rw [Battler.refresh, hsettle]
  exact hcap

end Stands

/-- **Only mortality endangers.** Every other operation leaves the battler alive and immortal. -/
theorem Op.stands_apply (op : Op) {x : Battler} (h : x.Stands) (hop : op ≠ .setImmortal false) :
    (op.apply x).Stands := by
  -- most operations end with a refresh, which leaves the immortal alive; death itself is refused
  cases op with
  | gain p n =>
    refine Stands.refresh ?_
    cases p <;> exact ⟨h.alive, h.immortal⟩
  | setImmortal on =>
    cases on with
    | false => exact absurd rfl hop
    | true => exact Stands.refresh ⟨h.alive, rfl⟩
  | addState s =>
    simp only [apply, Battler.addState]
    split
    · exact h
    · split
      · rw [if_pos h.immortal]
        exact h
      · next hs =>
        rw [if_neg (by simp [h.isDead_eq])]
        refine .of_states h.immortal fun hmem => ?_
        rcases List.mem_append.mp hmem with hmem | hmem
        · exact h.deathState_not_mem hmem
        · exact hs (List.mem_singleton.mp hmem).symm
  | removeState s =>
    have hdrop : x.deathState ∉ (x.dropState s).states :=
      fun hmem => h.deathState_not_mem (mem_states_dropState.mp hmem).1
    simp only [apply, Battler.removeState]
    split
    · dsimp only
      split <;> exact .of_states h.immortal hdrop
    · exact h
  | addBuff p turns =>
    simp only [apply, Battler.addBuff, h.isDead_eq]
    exact Stands.refresh ⟨h.alive, h.immortal⟩
  | addDebuff p turns =>
    simp only [apply, Battler.addDebuff, h.isDead_eq]
    exact Stands.refresh ⟨h.alive, h.immortal⟩
  | removeBuff | endTurn => exact Stands.refresh ⟨h.alive, h.immortal⟩

end Battler

open Battler (Op Stands)
open Battle (Calm Path)
open EffectOp (Progress applyBuff applyState settleProgress)

/-! ## Treatments -/

namespace EffectOp

/-- Changes of buffs and of states leave the battler standing. -/
theorem stands_applyBuff {change : BuffChange} {p : Param} {turns : Nat} {x y : Battler}
    {told : String} (hx : x.Stands) (h : applyBuff change p turns x = some (told, y)) :
    y.Stands := by
  cases change <;> simp only [applyBuff] at h <;> split at h <;> cases h
  · exact Op.stands_apply (.addBuff p turns) hx (by simp)
  · exact Op.stands_apply (.addDebuff p turns) hx (by simp)
  · exact Op.stands_apply (.removeBuff p) hx (by simp)
  · exact Op.stands_apply (.removeBuff p) hx (by simp)

theorem stands_applyState {add : Bool} {s : Nat} {x y : Battler} {told : String} (hx : x.Stands)
    (h : applyState add s x = some (told, y)) : y.Stands := by
  simp only [applyState] at h
  split at h
  · cases h
    exact Op.stands_apply (.addState s) hx (by simp)
  · split at h <;> cases h
    exact Op.stands_apply (.removeState s) hx (by simp)

end EffectOp

namespace Treatment

variable {P : Battler → Prop} {f g : Treatment}

/-- What is true of a battler is true of it after the treatment. -/
def Keeps (P : Battler → Prop) (f : Treatment) : Prop := ∀ id x, P x → P (f id x).battler

/-- Two treatments in a row keep what each of them keeps. -/
theorem Keeps.andThen (hf : f.Keeps P) (hg : g.Keeps P) : (f.andThen g).Keeps P :=
  fun id x hx => hg id _ (hf id x hx)

theorem keeps_buff (change : BuffChange) (p : Param) (turns : Nat) (report : Bool) :
    (buff change p turns report).Keeps Stands := by
  intro id x hx
  rw [buff]
  cases happly : applyBuff change p turns x with
  | none => exact hx
  | some change => exact EffectOp.stands_applyBuff hx happly

theorem keeps_state (add report : Bool) (s : Nat) : (state add report s).Keeps Stands := by
  intro id x hx
  rw [state]
  cases happly : applyState add s x with
  | none => exact hx
  | some change => exact EffectOp.stands_applyState hx happly

/-- Several states are given one after the other. -/
theorem keeps_states (add report : Bool) (ss : List Nat) :
    (states add report ss).Keeps Stands := by
  induction ss with
  | nil => exact fun _ _ hx => hx
  | cons s ss ih => exact (keeps_state add report s).andThen ih

theorem keeps_pool (p : Pool) (amount : Amount) (report : Bool) (v : Variables) :
    (pool p amount report v).Keeps Stands :=
  fun _ _ hx => Op.stands_apply (.gain p _) hx (by simp)

/-- Nobody collapses who is alive. -/
theorem keeps_collapse : (collapse false).Keeps Stands := by
  intro id x hx
  simp only [collapse, Bool.false_eq_true, if_false, hx.isDead_eq]
  exact hx

/-- Being made immortal again does no harm. -/
theorem keeps_immortal : (immortal true).Keeps Stands := by
  intro id x hx
  have hset : (x.setImmortal true).Stands :=
    Op.stands_apply (.setImmortal true) hx (by decide)
  simp only [immortal, hset.isDead_eq, Bool.and_false, Bool.false_eq_true, if_false]
  exact hset

end Treatment

/-! ## Battles -/

/-- There is a battler at the place of whom this is true. -/
def Battle.Has (b : Battle) (id : BattlerId) (P : Battler → Prop) : Prop :=
  ∃ x, b.roster.get? id = some x ∧ P x

section Has

variable {b b' : Battle} {id : BattlerId} {P : Battler → Prop}

/-- What a battle has depends on the roster only. -/
theorem Battle.Has.of_roster (h : b.Has id P) (hroster : b'.roster = b.roster) : b'.Has id P := by
  rw [Has, hroster]
  exact h

/-- A way without any stop leaves the battlers alone. -/
theorem Battle.Has.of_path (h : b.Has id P) (path : Path id b [] b') : b'.Has id P := by
  cases path with
  | arrived calm => exact h.of_roster calm.roster

/-- **A treatment keeps what it keeps of every single battler**, whoever else is treated. -/
theorem Treatment.Does.has {f : Treatment} {ids : List BattlerId} {acc acc' : Progress}
    (hdoes : f.Does ids acc acc') (hf : f.Keeps P) (h : acc.1.Has id P) : acc'.1.Has id P := by
  obtain ⟨x, hx, hP⟩ := h
  refine ⟨_, ?_, Function.Iterate.rec P hP (hf id) (ids.count id)⟩
  rw [hdoes.roster, Treatment.get?_roster, hx]
  rfl

/-- Work on the targets of a command, if there are any. -/
theorem Battle.Has.group {f : Variables → Treatment} {one : Progress → BattlerId → Progress}
    (h : b.Has id P) (hone : ∀ acc j, (f acc.1.variables).Does [j] acc (one acc j))
    (hf : ∀ v, (f v).Keeps P) (group : List BattlerId) :
    (settleProgress (group.foldl one (b, false))).Has id P := by
  have hdoes : (f b.variables).Does group (b, false) (group.foldl one (b, false)) :=
    Treatment.does_foldl (fun acc => acc) (fun acc j hacc => hacc ▸ hone acc j) rfl group
  have hcalm : Calm id (group.foldl one (b, false)).1
      (settleProgress (group.foldl one (b, false))) :=
    .refreshStatus _ _
  exact (hdoes.has (hf b.variables) h).of_roster hcalm.roster

/-- Work on targets that is never told of. -/
theorem Battle.Has.each {f : Treatment} {one : Battle → BattlerId → Battle} (h : b.Has id P)
    (hone : ∀ b j, f.Does [j] (b, false) (one b j, false)) (hf : f.Keeps P)
    (group : List BattlerId) : (group.foldl one b).Has id P := by
  have hdoes : f.Does group (b, false) (group.foldl one b, false) :=
    Treatment.does_foldl (fun b => (b, false)) (fun b j _ => hone b j) rfl group
  exact hdoes.has hf h

end Has

/-! ## Commands -/

section Commands

variable {b : Battle} {id : BattlerId}

/-- A control command leaves the battler standing unless it makes somebody mortal. -/
theorem ControlOp.stands_run {op : ControlOp} (hop : ∀ target, op ≠ .immortal target false)
    (c : ActionContext) (h : b.Has id Stands) : (op.run c b).2.Has id Stands := by
  have path : Path id b (op.way c b) (op.run c b).2 := op.path_run c b
  cases op with
  | immortal target on =>
    cases on with
    | false => exact absurd rfl (hop target)
    | true => exact h.each (Treatment.does_immortal true) Treatment.keeps_immortal _
  | _ => exact h.of_path path

/-- An effect command leaves it standing unless it is a collapse by force. -/
theorem EffectOp.stands_run {op : EffectOp} (hop : ∀ target, op ≠ .collapse target true)
    (c : ActionContext) (h : b.Has id Stands) : (op.run c b).2.Has id Stands := by
  have path : Path id b (op.way c b) (op.run c b).2 := op.path_run c b
  -- those that treat battlers by what the treatment keeps, the others do not reach them
  cases op with
  | buff change param target turns report =>
    cases param with
    | none => exact h.of_path path
    | some p =>
      simp only [run]
      split
      · exact h
      · exact h.group (f := fun _ => .buff change p turns report)
          (Treatment.does_buff change p turns report)
          (fun _ => Treatment.keeps_buff change p turns report) _
  | state add states target report =>
    simp only [run]
    split
    · exact h
    · exact h.group (f := fun _ => .states add report states)
        (Treatment.does_states add report states)
        (fun _ => Treatment.keeps_states add report states) _
  | pool p amount target report =>
    cases amount with
    | none => exact h.of_path path
    | some a =>
      simp only [run]
      split
      · exact h
      · exact h.group (Treatment.does_pool p a report) (Treatment.keeps_pool p a report) _
  | collapse target force =>
    cases force with
    | true => exact absurd rfl (hop target)
    | false => exact h.each (Treatment.does_collapse false) Treatment.keeps_collapse _
  | _ => exact h.of_path path

end Commands

/-! ## Lines -/

/-- The command makes nobody mortal: one for immortality says that it is on, and one for collapses
is without force. To say nothing is to say that immortality is off. -/
structure Command.Harmless (c : Command) : Prop where
  immortal : c.words = ["IMMORTAL"] → (c.arg 1).map Text.keyword ∈ [some "TRUE", some "ON"]
  collapse : c.words = ["COLLAPSE"] → c.argIs 1 "FORCE" = false

section Lines

variable {c : Command}

instance (c : Command) : Decidable c.Harmless :=
  decidable_of_iff
    ((c.words = ["IMMORTAL"] → (c.arg 1).map Text.keyword ∈ [some "TRUE", some "ON"]) ∧
      (c.words = ["COLLAPSE"] → c.argIs 1 "FORCE" = false))
    ⟨fun h => ⟨h.1, h.2⟩, fun h => ⟨h.immortal, h.collapse⟩⟩

/-- Only this word is for immortality, and the second argument says whether it is on. -/
theorem ControlOp.words_of_immortal {target : Option String} {on : Bool}
    (h : ofCommand? c = some (.immortal target on)) :
    c.words = ["IMMORTAL"] ∧ on = ((c.arg 1).bind Operand.bool?).getD false := by
  unfold ofCommand? at h
  split at h
  all_goals cases h
  next hw => exact ⟨hw, rfl⟩

/-- Only this word is for a collapse. -/
theorem EffectOp.words_of_collapse {target : Option String} {force : Bool}
    (h : ofCommand? c = some (.collapse target force)) :
    c.words = ["COLLAPSE"] ∧ force = c.argIs 1 "FORCE" := by
  have hphrase : phrase? c = some (.collapse target force) := ofCommand?_eq_some_iff.mp h
  unfold phrase? at hphrase
  split at hphrase
  all_goals cases hphrase
  next hw => exact ⟨hw, rfl⟩

namespace Command.Harmless

/-- A harmless line makes nobody mortal. -/
theorem not_mortal (h : c.Harmless) {op : ControlOp} (hop : ControlOp.ofCommand? c = some op)
    (target : Option String) : op ≠ .immortal target false := by
  rintro rfl
  obtain ⟨hwords, hon⟩ := ControlOp.words_of_immortal hop
  have hvalue := h.immortal hwords
  cases harg : c.arg 1 with
  | none => simp [harg] at hvalue
  | some v =>
    rw [harg, Option.bind_some, Operand.bool?] at hon
    rw [harg, Option.map_some, List.mem_pair, Option.some.injEq, Option.some.injEq] at hvalue
    rcases hvalue with hv | hv <;> rw [hv] at hon <;> cases hon

/-- A harmless line forces nobody to collapse. -/
theorem not_forced (h : c.Harmless) {op : EffectOp} (hop : EffectOp.ofCommand? c = some op)
    (target : Option String) : op ≠ .collapse target true := by
  rintro rfl
  obtain ⟨hwords, hforce⟩ := EffectOp.words_of_collapse hop
  rw [h.collapse hwords] at hforce
  cases hforce

end Command.Harmless

/-- A harmless command leaves whoever is alive and immortal so. -/
theorem Chain.stands_dispatch {id : BattlerId} (harmless : c.Harmless) {scene : Scene}
    (h : scene.battle.Has id Stands) : (standard.dispatch c scene).2.battle.Has id Stands := by
  have path : Path id scene.battle (c.way scene) (standard.dispatch c scene).2.battle :=
    path_standard c scene
  -- what is neither a control nor an effect command has a way without stops
  unfold Command.way at path
  cases hcontrol : ControlOp.ofCommand? c with
  | some op =>
    rw [dispatch_control hcontrol]
    exact ControlOp.stands_run (harmless.not_mortal hcontrol) _ h
  | none =>
    cases heffect : EffectOp.ofCommand? c with
    | some op =>
      rw [dispatch_effect heffect]
      exact EffectOp.stands_run (harmless.not_forced heffect) _ h
    | none =>
      rw [hcontrol, heffect] at path
      exact h.of_path path

end Lines

/-! ## Whatever happens -/

namespace Battle

/-- What happens to a battle: a line is run in some context, a frame passes, or a turn ends. -/
inductive Happening
  | line (c : ActionContext) (text : String)
  | frame
  | turn

/-- The battle after something has happened. -/
def after (b : Battle) : Happening → Battle
  | .line c text => (Chain.standard.dispatch (.ofLine text) ⟨b, c⟩).2.battle
  | .frame => b.advance
  | .turn => b.endTurn

/-- A line that happens is harmless. -/
def Happening.Harmless : Happening → Prop
  | .line _ text => (Command.ofLine text).Harmless
  | .frame | .turn => True

instance (h : Happening) : Decidable h.Harmless := by
  cases h <;> unfold Happening.Harmless <;> infer_instance

variable {b : Battle} {id : BattlerId}

/-- The end of a turn passes through the battlers, and does each of them no harm. -/
theorem Has.endTurn (h : b.Has id Stands) : b.endTurn.Has id Stands := by
  refine List.foldlRecOn (motive := fun b : Battle => b.Has id Stands) _ _ h fun b h j _ => ?_
  obtain ⟨x, hx, hstands⟩ := h
  have hpass : x.updateBuffTurns.Stands := Op.stands_apply .endTurn hstands (by simp)
  rw [Has, Roster.get?_modify, hx]
  split
  · exact ⟨_, rfl, hpass⟩
  · exact ⟨_, rfl, hstands⟩

/-- Nothing harmless fells it. -/
theorem Has.after (h : b.Has id Stands) {happening : Happening} (harmless : happening.Harmless) :
    (b.after happening).Has id Stands := by
  cases happening with
  | line c text => exact Chain.stands_dispatch harmless h
  | frame => exact h.of_roster rfl
  | turn => exact h.endTurn

/-- **Immortality guards life.** Take a battle with a battler that is alive and immortal, and let
any lines be run through the standard chain, in any contexts, with frames and ends of turns between
them. If every line for immortality says `true` or `on`, and none asks for a collapse by force, the
battler is alive and immortal at the end: however low its HP have fallen, and whatever states and
buffs were changed. -/
theorem immortality_guards_life {x : Battler} (hx : b.roster.get? id = some x) (alive : x.isAlive)
    (immortal : x.immortal) {happenings : List Happening}
    (harmless : ∀ h ∈ happenings, h.Harmless) :
    ∃ y, (happenings.foldl after b).roster.get? id = some y ∧ y.isAlive ∧ y.immortal := by
  have hstart : b.Has id Stands := ⟨x, hx, alive, immortal⟩
  have hend : (happenings.foldl after b).Has id Stands :=
    List.foldlRecOn (motive := fun b => b.Has id Stands) happenings after hstart
      fun _ h happening hmem => h.after (harmless happening hmem)
  obtain ⟨y, hy, hstands⟩ := hend
  exact ⟨y, hy, hstands.alive, hstands.immortal⟩

/-- Ann is immortal. She loses all her HP, is given the state of death, is made immortal once more
and told to collapse, while a frame passes and a turn ends: she is alive without HP. -/
theorem immortality_guards_life_ann :
    let ann : Battler := { Battler.fresh "Ann" 1 100 0 with immortal := true }
    let b : Battle := .ofRoster {} ⟨[ann], []⟩ {} {}
    let c : ActionContext := ⟨.actor 0, [], .skill 1⟩
    let happenings : List Happening :=
      [.line c "hp -500: user", .frame, .line c "add state 1: user", .turn,
        .line c "immortal: user, on", .line c "collapse: user"]
    (∀ h ∈ happenings, h.Harmless) ∧
      ∃ y, (happenings.foldl after b).roster.get? (.actor 0) = some y ∧ y.isAlive ∧ y.immortal ∧
        y.hp = 0 := by
  intro ann b c happenings
  have harmless : ∀ h ∈ happenings, h.Harmless := by decide +kernel
  have hann : b.roster.get? (.actor 0) = some ann := rfl
  obtain ⟨y, hy, alive, immortal⟩ :=
    immortality_guards_life hann (by decide) (by decide) harmless
  have hhp : ((happenings.foldl after b).roster.get? (.actor 0)).map (·.hp) = some 0 := by
    decide +kernel
  rw [hy] at hhp
  exact ⟨harmless, y, hy, alive, immortal, Option.some.inj hhp⟩

end Battle

end BattleScript
