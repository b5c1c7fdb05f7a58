import BattleScript.Target.Resolve
import Mathlib.Data.List.Basic

/-!
# The laws of target specifiers

The branches of `TargetSpec.resolve` are written one by one; this is how they hang together.

- Whatever does not quote the context gives a part of the roster, in the order of the roster
  (`TargetSpec.resolve_sublist`); the order is `BattlerId.Before`.
- The living and the dead of a side make up the side (`TargetSpec.perm_alive_dead`), the groups of
  the whole roster are those of both sides one behind the other, and a position of a side is a
  position in its group.
- The focus is all that the context quotes, and what is not in focus is the rest of the roster.

`TargetSpec.resolution_laws` puts them together.
-/

namespace BattleScript

/-- The order of a roster: the party before the troop, and on each side from the first position
on. -/
def BattlerId.Before : BattlerId → BattlerId → Prop
  | .actor i, .actor j => i < j
  | .actor _, .enemy _ => True
  | .enemy _, .actor _ => False
  | .enemy i, .enemy j => i < j

theorem BattlerId.Before.ne {id j : BattlerId} (h : id.Before j) : id ≠ j := by
  rintro rfl
  cases id <;> exact Nat.lt_irrefl _ h

/-! ## The places of a roster -/

namespace Roster

variable (r : Roster)

/-- The members of a side are the places of that side where somebody is. -/
theorem mem_members {s : Side} {id : BattlerId} :
    id ∈ r.members s ↔ id.side = s ∧ (r.get? id).isSome := by
  cases s <;> cases id <;> simp [members, battlers, get?, BattlerId.on, BattlerId.side]

theorem mem_all {id : BattlerId} : id ∈ r.all ↔ (r.get? id).isSome := by
  rw [all, List.mem_append, mem_members, mem_members]
  cases id <;> simp [BattlerId.side]

/-- The members of a side are listed in order. -/
theorem pairwise_members (s : Side) : (r.members s).Pairwise BattlerId.Before := by
  rw [members, List.pairwise_map]
  refine List.pairwise_lt_range.imp fun h => ?_
  cases s <;> exact h

/-- The places of a roster are listed in its order. -/
theorem pairwise_all : r.all.Pairwise BattlerId.Before := by
  rw [all, List.pairwise_append]
  refine ⟨r.pairwise_members .actor, r.pairwise_members .enemy, fun id hid j hj => ?_⟩
  -- all of the party comes before all of the troop
  cases id with
  | enemy i => cases (r.mem_members.mp hid).1
  | actor i =>
    cases j with
    | actor j => cases (r.mem_members.mp hj).1
    | enemy j => trivial

/-- What is listed in order is listed once. -/
theorem nodup_all : r.all.Nodup := r.pairwise_all.imp BattlerId.Before.ne

theorem members_sublist_all (s : Side) : (r.members s).Sublist r.all := by
  cases s with
  | actor => exact List.sublist_append_left _ _
  | enemy => exact List.sublist_append_right _ _

theorem ofLife_sublist_members (s : Side) (life : Life) :
    (r.ofLife s life).Sublist (r.members s) := by
  cases life with
  | alive | dead => exact List.filter_sublist
  | any => exact List.Sublist.refl _

theorem ofLife_alive (s : Side) : r.ofLife s .alive = (r.members s).filter r.isAlive := rfl

theorem ofLife_dead (s : Side) : r.ofLife s .dead = (r.members s).filter (!r.isAlive ·) := rfl

/-- A position of a side is a member of it. -/
theorem mem_members_of_slot? {s : Side} {n : Nat} {id : BattlerId} (h : r.slot? s n = some id) :
    id ∈ r.members s := by
  unfold slot? at h
  split at h
  · cases h
  · exact List.mem_of_getElem? h

/-- A character that is found is in the party. -/
theorem mem_all_of_findActor {n : Nat} {id : BattlerId} (h : r.findActor n = some id) :
    id ∈ r.all := by
  obtain ⟨i, hi, rfl⟩ := Option.map_eq_some_iff.mp h
  have hlt : i < r.party.length := (List.findIdx?_eq_some_iff_findIdx_eq.mp hi).1
  rw [mem_all]
  simpa [get?] using hlt

end Roster

/-! ## Specifiers -/

namespace TargetSpec

variable (c : ActionContext) (r : Roster)

/-- What does not quote the context is a part of the roster, in its order. -/
theorem resolve_sublist {spec : TargetSpec} (huser : spec ≠ .user) (hfocus : spec ≠ .focus)
    (htargets : spec ≠ .targets) : (spec.resolve c r).Sublist r.all := by
  -- by the way in which each kind of specifier selects from the roster
  cases spec with
  | user => exact absurd rfl huser
  | targets => exact absurd rfl htargets
  | focus => exact absurd rfl hfocus
  | group side life notUser =>
    exact List.filter_sublist.trans
      ((r.ofLife_sublist_members _ life).trans (r.members_sublist_all _))
  | slot side n =>
    rw [resolve]
    cases h : r.slot? (side.resolve c.subject.side) n with
    | none => exact List.nil_sublist _
    | some id =>
      have hmember := r.mem_members_of_slot? h
      exact List.singleton_sublist.mpr ((r.members_sublist_all _).subset hmember)
  | character n =>
    rw [resolve]
    cases h : r.findActor n with
    | none => exact List.nil_sublist _
    | some id => exact List.singleton_sublist.mpr (r.mem_all_of_findActor h)
  | allMembers => exact List.Sublist.refl _
  | allAlive | allDead | allNotUser | notFocus => exact List.filter_sublist

theorem nodup_focus : (focus.resolve c r).Nodup := nodup_distinct _

/-- In focus are the user and the targets, whether they are in the roster or not. -/
theorem mem_focus {id : BattlerId} :
    id ∈ focus.resolve c r ↔ id = c.subject ∨ id ∈ c.targets := by
  show id ∈ distinct (c.subject :: c.targets) ↔ id = c.subject ∨ id ∈ c.targets
  rw [mem_distinct, List.mem_cons]

theorem resolve_group (side : SideRef) (life : Life) :
    (group side life false).resolve c r = r.ofLife (side.resolve c.subject.side) life := by
  simp [resolve]

theorem mem_group_any (side : SideRef) {id : BattlerId} :
    id ∈ (group side .any false).resolve c r ↔
      id.side = side.resolve c.subject.side ∧ (r.get? id).isSome := by
  rw [resolve_group]
  exact r.mem_members

theorem mem_group_alive (side : SideRef) {id : BattlerId} :
    id ∈ (group side .alive false).resolve c r ↔
      id ∈ (group side .any false).resolve c r ∧ r.isAlive id := by
  rw [resolve_group, resolve_group]
  exact List.mem_filter

/-- Not counting the user is leaving it out. -/
theorem resolve_group_notUser (side : SideRef) (life : Life) :
    (group side life true).resolve c r =
      ((group side life false).resolve c r).filter (· ≠ c.subject) := by
  rw [resolve_group, resolve]
  simp

/-- Nobody of a side is both alive and dead. -/
theorem disjoint_alive_dead (side : SideRef) :
    ((group side .alive false).resolve c r).Disjoint ((group side .dead false).resolve c r) := by
  rw [resolve_group, resolve_group, Roster.ofLife_alive, Roster.ofLife_dead]
  intro id halive hdead
  have h := (List.mem_filter.mp halive).2
  have h' := (List.mem_filter.mp hdead).2
  rw [h] at h'
  cases h'

/-- Everybody of a side is alive or dead. -/
theorem perm_alive_dead (side : SideRef) :
    ((group side .alive false).resolve c r ++ (group side .dead false).resolve c r).Perm
      ((group side .any false).resolve c r) := by
  rw [resolve_group, resolve_group, resolve_group]
  exact List.filter_append_perm r.isAlive _

/-- A position of a side is a position in its group, counted from one. -/
theorem resolve_slot_succ (side : SideRef) (n : Nat) :
    (slot side (n + 1)).resolve c r = (((group side .any false).resolve c r)[n]?).toList := by
  rw [resolve_group]
  rfl

/-- The living of the whole roster are those of the party and then those of the troop. -/
theorem resolve_allAlive :
    allAlive.resolve c r = (group (.fixed .actor) .alive false).resolve c r ++
      (group (.fixed .enemy) .alive false).resolve c r := by
  rw [resolve_group, resolve_group]
  exact List.filter_append ..

theorem resolve_allDead :
    allDead.resolve c r = (group (.fixed .actor) .dead false).resolve c r ++
      (group (.fixed .enemy) .dead false).resolve c r := by
  rw [resolve_group, resolve_group]
  exact List.filter_append ..

theorem resolve_allMembers :
    allMembers.resolve c r = (group (.fixed .actor) .any false).resolve c r ++
      (group (.fixed .enemy) .any false).resolve c r := by
  rw [resolve_group, resolve_group]
  rfl

/-- All but the user are the living without it. -/
theorem resolve_allNotUser :
    allNotUser.resolve c r = (allAlive.resolve c r).filter (· ≠ c.subject) := by
  rw [resolve, resolve, List.filter_filter]
  simp only [Bool.and_comm]

/-- Not in focus is whoever is there and is not quoted. -/
theorem mem_notFocus {id : BattlerId} :
    id ∈ notFocus.resolve c r ↔ (r.get? id).isSome ∧ id ∉ focus.resolve c r := by
  show id ∈ r.all.filter (· ∉ c.focus) ↔ (r.get? id).isSome ∧ id ∉ c.focus
  rw [List.mem_filter, r.mem_all, decide_eq_true_iff]

/-- **The laws of resolution.**

What does not quote the context gives places of the roster, each at most once and in the order of
the roster; the user and the focus have no repetitions either, and the focus are the user and the
targets. The whole group of a side is the side, and the living and the dead are two parts of it that
make it up; the form without the user is the group less the user, and a position is that element of
the whole group, or nobody. The groups of the roster are those of the party followed by those of the
troop. Focus and what is not in focus have nobody in common and cover the roster. -/
theorem resolution_laws :
    let members (side : SideRef) (life : Life) (notUser : Bool) :=
      (group side life notUser).resolve c r
    (∀ spec : TargetSpec, spec ≠ .user → spec ≠ .focus → spec ≠ .targets →
      (∀ id ∈ spec.resolve c r, (r.get? id).isSome) ∧
      (spec.resolve c r).Nodup ∧
      (spec.resolve c r).Pairwise BattlerId.Before) ∧
    ((user.resolve c r).Nodup ∧ (focus.resolve c r).Nodup ∧
      ∀ id, id ∈ focus.resolve c r ↔ id = c.subject ∨ id ∈ c.targets) ∧
    (∀ side,
      (∀ id, id ∈ members side .any false ↔
        id.side = side.resolve c.subject.side ∧ (r.get? id).isSome) ∧
      (∀ id, id ∈ members side .alive false ↔ id ∈ members side .any false ∧ r.isAlive id) ∧
      (members side .alive false).Disjoint (members side .dead false) ∧
      (members side .alive false ++ members side .dead false).Perm (members side .any false) ∧
      (∀ life, members side life true = (members side life false).filter (· ≠ c.subject)) ∧
      (slot side 0).resolve c r = [] ∧
      ∀ n, (slot side (n + 1)).resolve c r = ((members side .any false)[n]?).toList) ∧
    (allAlive.resolve c r =
        members (.fixed .actor) .alive false ++ members (.fixed .enemy) .alive false ∧
      allDead.resolve c r =
        members (.fixed .actor) .dead false ++ members (.fixed .enemy) .dead false ∧
      allMembers.resolve c r =
        members (.fixed .actor) .any false ++ members (.fixed .enemy) .any false ∧
      allNotUser.resolve c r = (allAlive.resolve c r).filter (· ≠ c.subject)) ∧
    (focus.resolve c r).Disjoint (notFocus.resolve c r) ∧
    ∀ id, (r.get? id).isSome → id ∈ focus.resolve c r ∨ id ∈ notFocus.resolve c r := by
  intro members
  refine ⟨?_, ⟨List.pairwise_singleton _ _, nodup_focus c r, fun id => mem_focus c r⟩,
    ?_, ?_, ?_, ?_⟩
  · intro spec huser hfocus htargets
    -- all three follow from being a part of the roster in its order
    have hsub := resolve_sublist c r huser hfocus htargets
    exact ⟨fun id hid => r.mem_all.mp (hsub.subset hid), hsub.nodup r.nodup_all,
      r.pairwise_all.sublist hsub⟩
  · intro side
    exact ⟨fun id => mem_group_any c r side, fun id => mem_group_alive c r side,
      disjoint_alive_dead c r side, perm_alive_dead c r side, resolve_group_notUser c r side, rfl,
      resolve_slot_succ c r side⟩
  · exact ⟨resolve_allAlive c r, resolve_allDead c r, resolve_allMembers c r,
      resolve_allNotUser c r⟩
  · intro id hid hnot
    exact ((mem_notFocus c r).mp hnot).2 hid
  · intro id hid
    by_cases hfocus : id ∈ focus.resolve c r
    · exact .inl hfocus
    · exact .inr ((mem_notFocus c r).mpr ⟨hid, hfocus⟩)

/-- An enemy acts on Ann twice and on somebody who is not there. -/
theorem resolution_laws_crowd :
    let r : Roster :=
      ⟨[.fresh "Ann" 1 10 0, .fresh "Bob" 2 10 0], [.fresh "Bat" 1 10 0, .fresh "Rat" 2 10 0]⟩
    let c : ActionContext := ⟨.enemy 0, [.actor 0, .actor 0, .actor 9], .skill 1⟩
    notFocus.resolve c r = [.actor 1, .enemy 1] ∧
      (notFocus.resolve c r).Pairwise BattlerId.Before ∧ (r.get? (.actor 0)).isSome ∧
      (.actor 0 ∈ focus.resolve c r ∨ .actor 0 ∈ notFocus.resolve c r) := by
  intro r c
  obtain ⟨hparts, -, -, -, -, hcover⟩ := resolution_laws c r
  obtain ⟨-, -, hordered⟩ := hparts .notFocus (by decide) (by decide) (by decide)
  exact ⟨by decide, hordered, by decide, hcover (.actor 0) (by decide)⟩

end TargetSpec

end BattleScript
