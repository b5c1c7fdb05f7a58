import BattleScript.Battle
import BattleScript.Proofs.Battler.Life
import BattleScript.Proofs.Collapse.Moments
import Mathlib.Data.List.Chain

/-!
# Ways from battle to battle

A battler that has collapsed bears a mark, and as long as it bears the mark nobody asks for its
collapse again. `Battler.KeepsMark` says what every operation on a battler does about the mark: it
takes it only from a battler that comes back to life. So from one moment of a battle to the next a
battler goes in one of two ways (`Battle.Passes`): its collapse is not asked for and, as long as
it is dead, it keeps its mark; or it is dead without a mark, its collapse is asked for, and it
gets one.

`Battle.Path` is a number of moments that lead from one battle to another in such ways.
-/

namespace BattleScript

/-! ## The mark of a battler -/

namespace Battler

/-- If the second battler is dead, it bears the mark of collapse if and only if the first one
does. -/
def KeepsMark (x y : Battler) : Prop := y.isDead → y.collapsed = x.collapsed

variable {x y : Battler}

theorem KeepsMark.refl (x : Battler) : KeepsMark x x := fun _ => rfl

/-- To settle life and death gives no mark, and takes it from whoever comes back. -/
theorem keepsMark_settleLife (x : Battler) : KeepsMark x x.settleLife := by
  unfold settleLife
  split
  · split <;> exact fun _ => rfl
  · split
    · exact fun dead => absurd dead (not_isDead_dropState x)
    · exact .refl x

/-- The mark is lost only by coming back to life. -/
theorem keepsMark_refresh (h : y.collapsed = x.collapsed) : KeepsMark x y.refresh := by
  intro dead
  have hcap : y.capPools.collapsed = x.collapsed := h
  rw [← hcap]
  exact keepsMark_settleLife y.capPools dead

theorem keepsMark_gain (x : Battler) (p : Pool) (n : Int) : KeepsMark x (x.gain p n) :=
  keepsMark_refresh (by cases p <;> rfl)

theorem keepsMark_setImmortal (x : Battler) (on : Bool) : KeepsMark x (x.setImmortal on) :=
  keepsMark_refresh rfl

/-- To give a state, even that of death, is not to collapse. -/
theorem keepsMark_addState (x : Battler) (s : Nat) : KeepsMark x (x.addState s).2 := by
  intro _
  unfold addState
  repeat' split
  all_goals rfl

/-- Whoever loses the state of death is alive and needs no mark; any other state is of no account.
-/
theorem keepsMark_removeState (x : Battler) (s : Nat) : KeepsMark x (x.removeState s).2 := by
  unfold removeState
  split
  · dsimp only
    split
    · next hs =>
      subst hs
      exact fun dead => absurd dead (not_isDead_dropState x)
    · exact fun _ => rfl
  · exact .refl x

theorem keepsMark_addBuff (x : Battler) (p : Param) (turns : Nat) :
    KeepsMark x (x.addBuff p turns) := by
  unfold addBuff
  split
  · exact .refl x
  · exact keepsMark_refresh rfl

theorem keepsMark_addDebuff (x : Battler) (p : Param) (turns : Nat) :
    KeepsMark x (x.addDebuff p turns) := by
  unfold addDebuff
  split
  · exact .refl x
  · exact keepsMark_refresh rfl

theorem keepsMark_removeBuff (x : Battler) (p : Param) : KeepsMark x (x.removeBuff p) :=
  keepsMark_refresh rfl

theorem keepsMark_updateBuffTurns (x : Battler) : KeepsMark x x.updateBuffTurns :=
  keepsMark_refresh rfl

end Battler

open Battler (KeepsMark)

/-- The request is for the collapse of a battler. -/
def StageRequest.isCollapseOf {α : Type} (id : BattlerId) : StageRequest α → Bool
  | .collapse j => j = id
  | _ => false

namespace Battle

/-- How often the collapse of a battler was asked for. -/
def collapses (b : Battle) (id : BattlerId) : Nat :=
  b.stage.history.countP (·.isCollapseOf id)

variable {id : BattlerId} {b b' : Battle}

/-- A request is counted if it asks for the collapse of the battler. -/
theorem collapses_request (b : Battle) (r : StageRequest Float) :
    (b.request r).collapses id = b.collapses id + if r.isCollapseOf id then 1 else 0 :=
  Array.countP_push

/-- The battlers and the collapses that were asked for are the same. -/
structure Calm (id : BattlerId) (b b' : Battle) : Prop where
  roster : b'.roster = b.roster
  asked : b'.collapses id = b.collapses id

namespace Calm

theorem refl (b : Battle) : Calm id b b := ⟨rfl, rfl⟩

theorem trans {b'' : Battle} (h : Calm id b b') (h' : Calm id b' b'') : Calm id b b'' :=
  ⟨h'.roster.trans h.roster, h'.asked.trans h.asked⟩

theorem request (b : Battle) {r : StageRequest Float} (h : r.isCollapseOf id = false) :
    Calm id b (b.request r) :=
  ⟨rfl, by simp [collapses_request, h]⟩

/-- A number of requests, none of which asks for the collapse. -/
theorem requests (b : Battle) {rs : List (StageRequest Float)}
    (h : ∀ r ∈ rs, r.isCollapseOf id = false) : Calm id b (b.requests rs) := by
  induction rs generalizing b with
  | nil => exact .refl b
  | cons r rs ih =>
    have hrest := ih (b.request r) fun q hq => h q (List.mem_cons_of_mem r hq)
    exact (request b (h r List.mem_cons_self)).trans hrest

theorem showResult (b : Battle) (j : BattlerId) (message : String) :
    Calm id b (b.showResult j message) :=
  request b rfl

theorem refreshStatus (b : Battle) (refresh : Bool) : Calm id b (b.refreshStatus refresh) := by
  unfold Battle.refreshStatus
  split
  · exact request b rfl
  · exact refl b

end Calm

/-- What may become of a battler from one moment to the next: nobody asks for its collapse, and it
keeps its mark while it is dead; or its collapse is asked for while it is dead, and it is marked. -/
inductive Passes (id : BattlerId) (b b' : Battle) : Prop
  | quiet (asked : b'.collapses id = b.collapses id)
      (lives : ∀ x, b.roster.get? id = some x → ∃ y, b'.roster.get? id = some y ∧ KeepsMark x y)
  | collapse {x : Battler} (asked : b'.collapses id = b.collapses id + 1)
      (hx : b.roster.get? id = some x) (dead : x.isDead) (standing : x.collapsed = false)
      (marked : b'.roster.get? id = some { x with collapsed := true })

/-- A battler that is written is seen at its own place only. -/
theorem get?_withBattler {j : BattlerId} {x : Battler} (hx : b.roster.get? j = some x)
    (y : Battler) (i : BattlerId) :
    (b.withBattler j y).roster.get? i = if i = j then some y else b.roster.get? i := by
  rw [withBattler, Roster.get?_modify]
  split
  · next h => rw [h, hx]; rfl
  · rfl

/-- Replacing a battler twice is replacing it once. -/
theorem withBattler_withBattler (b : Battle) (j : BattlerId) (y z : Battler) :
    (b.withBattler j y).withBattler j z = b.withBattler j z := by
  cases j <;> simp [withBattler, Roster.modify, List.modify_modify_eq, Function.comp_def]

namespace Passes

theorem of_calm (h : Calm id b b') : Passes id b b' :=
  .quiet h.asked fun x hx => ⟨x, h.roster ▸ hx, .refl x⟩

theorem calm_left {b₀ : Battle} (calm : Calm id b₀ b) (h : Passes id b b') : Passes id b₀ b' := by
  cases h with
  | quiet asked lives => exact .quiet (asked.trans calm.asked) (calm.roster ▸ lives)
  | collapse asked hx dead standing marked =>
    exact .collapse (calm.asked ▸ asked) (calm.roster ▸ hx) dead standing marked

theorem calm_right {b₁ : Battle} (h : Passes id b b') (calm : Calm id b' b₁) : Passes id b b₁ := by
  cases h with
  | quiet asked lives => exact .quiet (calm.asked.trans asked) (calm.roster ▸ lives)
  | collapse asked hx dead standing marked =>
    exact .collapse (calm.asked.trans asked) hx dead standing (calm.roster ▸ marked)

/-- An operation on some battler. -/
theorem of_battler {j : BattlerId} {x y : Battler} (hx : b.roster.get? j = some x)
    (keeps : KeepsMark x y) : Passes id b (b.withBattler j y) := by
  refine .quiet rfl fun z hz => ?_
  rw [get?_withBattler hx]
  split
  · next hj =>
    subst hj
    cases hx.symm.trans hz
    exact ⟨y, rfl, keeps⟩
  · exact ⟨z, hz, .refl z⟩

/-- A collapse of some battler. -/
theorem of_collapse {j : BattlerId} {x : Battler} (hx : b.roster.get? j = some x) (dead : x.isDead)
    (standing : x.collapsed = false) :
    Passes id b ((b.withBattler j { x with collapsed := true }).request (.collapse j)) := by
  have hroster (r : StageRequest Float) (c : Battle) : (c.request r).roster = c.roster := rfl
  -- it is this battler, or another one that is none of its concern
  by_cases hj : j = id
  · subst hj
    refine .collapse ?_ hx dead standing ?_
    · simp [collapses_request, StageRequest.isCollapseOf]
      rfl
    · rw [hroster, get?_withBattler hx, if_pos rfl]
  · refine .quiet ?_ fun z hz => ⟨z, ?_, .refl z⟩
    · simp [collapses_request, StageRequest.isCollapseOf, hj]
      rfl
    · rw [hroster, get?_withBattler hx, if_neg (Ne.symm hj)]
      exact hz

end Passes

/-- The battle with a battler that collapses if it is dead and has not yet. -/
def noteDeath (b : Battle) (j : BattlerId) (x : Battler) : Battle :=
  if x.isDead then
    if x.markCollapsed.1 then (b.withBattler j x.markCollapsed.2).request (.collapse j)
    else b.withBattler j x.markCollapsed.2
  else b.withBattler j x

/-- To write a battler first makes no difference to noting its death, which writes it anyway. -/
theorem noteDeath_withBattler (b : Battle) (j : BattlerId) (x : Battler) :
    (b.withBattler j x).noteDeath j x = b.noteDeath j x := by
  simp only [noteDeath, withBattler_withBattler]

/-- To note a death asks for the collapse of whoever has not collapsed yet. -/
theorem passes_noteDeath {j : BattlerId} {x : Battler} (hx : b.roster.get? j = some x) :
    Passes id b (b.noteDeath j x) := by
  unfold noteDeath
  split
  · next dead =>
    unfold Battler.markCollapsed
    cases hc : x.collapsed with
    | true => exact .of_battler hx (.refl x)
    | false => exact .of_collapse hx dead hc
  · exact .of_battler hx (.refl x)

/-- The battles lead from one battle to another. -/
inductive Path (id : BattlerId) : Battle → List Battle → Battle → Prop
  | arrived {b b' : Battle} (calm : Calm id b b') : Path id b [] b'
  | pass {b b' b'' : Battle} {bs : List Battle} (pass : Passes id b b') (rest : Path id b' bs b'') :
    Path id b (b' :: bs) b''

namespace Path

variable {b'' : Battle} {bs cs : List Battle}

theorem calm_left (calm : Calm id b b') (h : Path id b' bs b'') : Path id b bs b'' := by
  cases h with
  | arrived calm' => exact .arrived (calm.trans calm')
  | pass pass rest => exact .pass (pass.calm_left calm) rest

theorem trans (h : Path id b bs b') (h' : Path id b' cs b'') : Path id b (bs ++ cs) b'' := by
  induction h with
  | arrived calm => exact h'.calm_left calm
  | pass pass _ ih => exact .pass pass (ih h')

theorem single (pass : Passes id b b') : Path id b [b'] b' := .pass pass (.arrived (.refl b'))

theorem calm_right (h : Path id b bs b') (calm : Calm id b' b'') : Path id b bs b'' := by
  simpa using h.trans (.arrived calm)

/-- Work on one thing after another leads along the battles on its way. -/
theorem along {α β : Type} {battle : β → Battle} {way : β → α → List Battle} {work : β → α → β}
    (step : ∀ acc x, Path id (battle acc) (way acc x) (battle (work acc x))) (acc : β)
    (xs : List α) :
    Path id (battle acc) (BattleScript.along way work acc xs) (battle (xs.foldl work acc)) := by
  induction xs generalizing acc with
  | nil => exact .arrived (.refl _)
  | cons x xs ih => exact (step acc x).trans (ih (work acc x))

theorem afterEach {α β : Type} {battle : β → Battle} {work : β → α → β}
    (step : ∀ acc x, Passes id (battle acc) (battle (work acc x))) (acc : β) (xs : List α) :
    Path id (battle acc) (BattleScript.afterEach battle work acc xs)
      (battle (xs.foldl work acc)) := by
  have hsingle (acc : β) (x : α) :
      Path id (battle acc) [battle (work acc x)] (battle (work acc x)) := single (step acc x)
  exact along hsingle acc xs

/-- The moments of a path, with its start before them, pass one to the next. -/
theorem isChain (h : Path id b bs b') : List.IsChain (Passes id) (b :: bs) := by
  induction h with
  | arrived => exact .singleton _
  | pass pass _ ih => exact .cons_cons pass ih

end Path

end Battle

end BattleScript
