import BattleScript.Target.Resolve
import Mathlib.Data.List.Basic

/-!
# Targeting from the other side

A battle looks the same from both sides. `mirror` swaps the party and the troop of a roster, and
with them the places of a context. A specifier that is relative to the user then means the mirror
images of the same battlers, one that names a side means those of the other side (`SideRef.mirror`),
and one that spans both sides means the same battlers in another order, since the party still comes
before the troop.
-/

namespace BattleScript

/-- The same position on the other side. -/
def BattlerId.mirror : BattlerId → BattlerId
  | .actor i => .enemy i
  | .enemy i => .actor i

/-- The battlers with their sides swapped. -/
def Roster.mirror (r : Roster) : Roster := ⟨r.troop, r.party⟩

/-- The context of the same action with the sides swapped. -/
def ActionContext.mirror (c : ActionContext) : ActionContext :=
  { c with subject := c.subject.mirror, targets := c.targets.map BattlerId.mirror }

/-- What means the same side once the sides are swapped. -/
def SideRef.mirror : SideRef → SideRef
  | .fixed side => .fixed side.opposite
  | .friends => .friends
  | .opponents => .opponents

namespace BattlerId

@[simp] theorem mirror_mirror (id : BattlerId) : id.mirror.mirror = id := by cases id <;> rfl

theorem mirror_inj {id j : BattlerId} : id.mirror = j.mirror ↔ id = j := by
  constructor
  · intro h
    rw [← mirror_mirror id, h, mirror_mirror]
  · exact congrArg mirror

@[simp] theorem side_mirror (id : BattlerId) : id.mirror.side = id.side.opposite := by
  cases id <;> rfl

theorem on_opposite (s : Side) (i : Nat) : on s.opposite i = (on s i).mirror := by cases s <;> rfl

end BattlerId

/-- What is relative to the user turns with it, what names a side is swapped. -/
theorem SideRef.resolve_mirror (side : SideRef) (c : ActionContext) :
    side.mirror.resolve c.mirror.subject.side = (side.resolve c.subject.side).opposite := by
  have hsubject : c.mirror.subject.side = c.subject.side.opposite := c.subject.side_mirror
  rw [hsubject]
  cases side <;> rfl

/-! ## The mirror image of a roster -/

namespace Roster

variable (r : Roster)

@[simp] theorem get?_mirror (id : BattlerId) : r.mirror.get? id.mirror = r.get? id := by
  cases id <;> rfl

@[simp] theorem isAlive_mirror (id : BattlerId) : r.mirror.isAlive id.mirror = r.isAlive id := by
  rw [isAlive, isAlive, get?_mirror]

/-- The members of a side are the images of those of the other, in the same order. -/
theorem members_mirror (s : Side) :
    r.mirror.members s.opposite = (r.members s).map BattlerId.mirror := by
  have hlength : (r.mirror.battlers s.opposite).length = (r.battlers s).length := by
    cases s <;> rfl
  rw [members, members, hlength, List.map_map]
  exact List.map_congr_left fun i _ => BattlerId.on_opposite s i

/-- The living of a side are the images of the living of the other, and so are the dead. -/
theorem ofLife_mirror (s : Side) (life : Life) :
    r.mirror.ofLife s.opposite life = (r.ofLife s life).map BattlerId.mirror := by
  cases life with
  | any => exact r.members_mirror s
  | alive =>
    simp only [ofLife, aliveMembers, members_mirror, List.filter_map]
    simp [Function.comp_def]
  | dead =>
    simp only [ofLife, deadMembers, members_mirror, List.filter_map]
    simp [Function.comp_def]

/-- A place is found at the same number on the other side. -/
theorem slot?_mirror (s : Side) (n : Nat) :
    r.mirror.slot? s.opposite n = (r.slot? s n).map BattlerId.mirror := by
  rw [slot?, slot?, members_mirror]
  split
  · rfl
  · exact List.getElem?_map

/-- The party of the mirror image is listed first, and so all places come in another order. -/
theorem all_mirror_perm : r.mirror.all.Perm (r.all.map BattlerId.mirror) := by
  have hactor : r.mirror.members .actor = (r.members .enemy).map BattlerId.mirror :=
    r.members_mirror .enemy
  have henemy : r.mirror.members .enemy = (r.members .actor).map BattlerId.mirror :=
    r.members_mirror .actor
  rw [all, all, hactor, henemy, List.map_append]
  exact List.perm_append_comm

/-- What holds of a place if and only if it holds of its mirror image picks out the same places of
both rosters. -/
theorem filter_all_mirror_perm {p q : BattlerId → Bool} (h : ∀ id, q id.mirror = p id) :
    (r.mirror.all.filter q).Perm ((r.all.filter p).map BattlerId.mirror) := by
  have hpq : q ∘ BattlerId.mirror = p := funext h
  have hperm := r.all_mirror_perm.filter q
  rwa [List.filter_map, hpq] at hperm

end Roster

namespace ActionContext

variable (c : ActionContext)

theorem mirror_eq_subject (id : BattlerId) : id.mirror = c.mirror.subject ↔ id = c.subject :=
  BattlerId.mirror_inj

/-- The focus is that of the images. -/
theorem focus_mirror : c.mirror.focus = c.focus.map BattlerId.mirror :=
  distinct_map BattlerId.mirror_inj.mp (c.subject :: c.targets)

theorem mirror_mem_focus (id : BattlerId) : id.mirror ∈ c.mirror.focus ↔ id ∈ c.focus := by
  rw [c.focus_mirror]
  exact List.mem_map_of_injective fun _ _ => BattlerId.mirror_inj.mp

end ActionContext

/-! ## Specifiers -/

namespace TargetSpec

variable (c : ActionContext) (r : Roster)

/-- The group of a side becomes that of the other side. -/
theorem resolve_group_mirror (side : SideRef) (life : Life) (notUser : Bool) :
    (group side.mirror life notUser).resolve c.mirror r.mirror =
      ((group side life notUser).resolve c r).map BattlerId.mirror := by
  rw [resolve, resolve, side.resolve_mirror, r.ofLife_mirror, List.filter_map]
  congr 1
  -- the images are of the same places; what is left is the test for the user
  refine List.filter_congr fun id _ => ?_
  simp [c.mirror_eq_subject]

/-- The place of a side becomes that of the other side. -/
theorem resolve_slot_mirror (side : SideRef) (n : Nat) :
    (slot side.mirror n).resolve c.mirror r.mirror =
      ((slot side n).resolve c r).map BattlerId.mirror := by
  rw [resolve, resolve, side.resolve_mirror, r.slot?_mirror]
  exact Option.toList_map ..

/-- **Both sides target alike.** Swap the sides of a roster and of a context. What is relative to
the user then means the mirror images of the same battlers, in the same order; the groups and
positions of a side mean those of what the other side's meant; and what spans the sides means the
same battlers, in some order. -/
theorem sides_target_alike :
    let image (spec : TargetSpec) := (spec.resolve c r).map BattlerId.mirror
    let mirrored (spec : TargetSpec) := spec.resolve c.mirror r.mirror
    (∀ life notUser,
      mirrored (group .friends life notUser) = image (group .friends life notUser) ∧
      mirrored (group .opponents life notUser) = image (group .opponents life notUser)) ∧
    (∀ n,
      mirrored (slot .friends n) = image (slot .friends n) ∧
      mirrored (slot .opponents n) = image (slot .opponents n)) ∧
    (mirrored user = image user ∧ mirrored targets = image targets ∧
      mirrored focus = image focus) ∧
    (∀ side life notUser, mirrored (group (.fixed side) life notUser) =
      image (group (.fixed side.opposite) life notUser)) ∧
    (∀ side n, mirrored (slot (.fixed side) n) = image (slot (.fixed side.opposite) n)) ∧
    ((mirrored allAlive).Perm (image allAlive) ∧ (mirrored allMembers).Perm (image allMembers) ∧
      (mirrored allDead).Perm (image allDead) ∧ (mirrored allNotUser).Perm (image allNotUser) ∧
      (mirrored notFocus).Perm (image notFocus)) := by
  -- to name a side in the mirror is to name the other one here
  have hfixed (side : Side) : SideRef.fixed side = (SideRef.fixed side.opposite).mirror := by
    rw [SideRef.mirror, Side.opposite_opposite]
  refine ⟨?_, ?_, ⟨rfl, rfl, c.focus_mirror⟩, ?_, ?_, ?_⟩
  · intro life notUser
    exact ⟨resolve_group_mirror c r .friends life notUser,
      resolve_group_mirror c r .opponents life notUser⟩
  · intro n
    exact ⟨resolve_slot_mirror c r .friends n, resolve_slot_mirror c r .opponents n⟩
  · intro side life notUser
    rw [hfixed]
    exact resolve_group_mirror c r _ life notUser
  · intro side n
    rw [hfixed]
    exact resolve_slot_mirror c r _ n
  · -- across both sides the party still comes first, so the order is another one
    refine ⟨?_, r.all_mirror_perm, ?_, ?_, ?_⟩
    · exact r.filter_all_mirror_perm r.isAlive_mirror
    · exact r.filter_all_mirror_perm fun id => by rw [r.isAlive_mirror]
    · exact r.filter_all_mirror_perm fun id => by simp [c.mirror_eq_subject]
    · exact r.filter_all_mirror_perm fun id => by simp [c.mirror_mem_focus]

end TargetSpec

end BattleScript
