import BattleScript.Battle
import Mathlib.Data.List.Perm.Basic
import Mathlib.Logic.Function.Iterate

/-!
# Treating battlers in turn

A treatment says what is done to a battler, by its place: what becomes of the battler, and what
else comes of it, which is asked of the stage or noted in the battle (`Mark`). What it does
depends on that one battler alone.

So battlers can be treated in any order. Two treatments at different places do not see each other
(`one_comm`, `marksOf_one_of_ne`), two at the same place can be swapped without anybody noticing.
Hence the battlers after a list of treatments are the same for every order of the list, and the
marks are the same up to their order (`roster_perm`, `marks_perm`); and a battler was treated as
often as its place is listed (`get?_roster`).
-/

namespace BattleScript

namespace Roster

/-- Changes of other battlers are not seen. -/
theorem get?_modify_of_ne (r : Roster) {i j : BattlerId} (h : j ≠ i) (g : Battler → Battler) :
    (r.modify i g).get? j = r.get? j := by
  rw [get?_modify, if_neg h]

theorem get?_modify_self (r : Roster) (i : BattlerId) (g : Battler → Battler) :
    (r.modify i g).get? i = (r.get? i).map g := by
  rw [get?_modify, if_pos rfl]

/-- Changes at different places do not see each other. -/
theorem modify_comm (r : Roster) {i j : BattlerId} (h : i ≠ j) (g g' : Battler → Battler) :
    (r.modify i g).modify j g' = (r.modify j g').modify i g := by
  refine ext_get? fun k => ?_
  by_cases hi : k = i
  · subst hi
    rw [get?_modify_of_ne _ h, get?_modify_self, get?_modify_self, get?_modify_of_ne _ h]
  · rw [get?_modify_of_ne _ hi]
    by_cases hj : k = j
    · subst hj
      rw [get?_modify_self, get?_modify_self, get?_modify_of_ne _ hi]
    · rw [get?_modify_of_ne _ hj, get?_modify_of_ne _ hj, get?_modify_of_ne _ hi]

/-- Only what is done to the battler at the place counts. -/
theorem modify_const (r : Roster) {i : BattlerId} {x : Battler} (hx : r.get? i = some x)
    (g : Battler → Battler) : (r.modify i fun _ => g x) = r.modify i g := by
  refine ext_get? fun k => ?_
  by_cases hi : k = i
  · subst hi
    rw [get?_modify_self, get?_modify_self, hx]
    rfl
  · rw [get?_modify_of_ne _ hi, get?_modify_of_ne _ hi]

/-- A place without a battler cannot be changed. -/
theorem modify_of_none (r : Roster) {i : BattlerId} (hx : r.get? i = none)
    (g : Battler → Battler) : r.modify i g = r := by
  refine ext_get? fun k => ?_
  by_cases hi : k = i
  · subst hi
    rw [get?_modify_self, hx]
    rfl
  · rw [get?_modify_of_ne _ hi]

/-- A battler that is replaced by itself does not change. -/
theorem modify_same (r : Roster) {i : BattlerId} {x : Battler} (hx : r.get? i = some x) :
    (r.modify i fun _ => x) = r := by
  refine ext_get? fun k => ?_
  by_cases hi : k = i
  · subst hi
    rw [get?_modify_self, hx]
    rfl
  · rw [get?_modify_of_ne _ hi]

/-- A battler is changed as often as its place is listed. -/
theorem get?_foldl_modify (g : BattlerId → Battler → Battler) (ids : List BattlerId) (r : Roster)
    (j : BattlerId) :
    (ids.foldl (fun r id => r.modify id (g id)) r).get? j =
      (r.get? j).map (g j)^[ids.count j] := by
  induction ids generalizing r with
  | nil => simp
  | cons id ids ih =>
    rw [List.foldl_cons, ih, List.count_cons]
    -- the first place counts if it is the one that is asked for
    by_cases hj : j = id
    · subst hj
      rw [get?_modify_self, Option.map_map, beq_self_eq_true, if_pos rfl, Function.iterate_succ]
    · have hne : (id == j) = false := beq_false_of_ne (Ne.symm hj)
      rw [get?_modify_of_ne _ hj, hne]
      rfl

end Roster

/-- What comes of a treatment besides the battler. -/
inductive Mark
  /-- The stage is asked for something. -/
  | ask (r : StageRequest Float)
  /-- The status has to be shown anew. -/
  | refresh
  /-- A rule could not be applied. -/
  | breach
  deriving Repr

namespace Mark

/-- What the stage is asked. -/
def request? : Mark → Option (StageRequest Float)
  | ask r => some r
  | refresh | breach => none

/-- Whether the status has to be shown anew. -/
def isRefresh : Mark → Bool
  | refresh => true
  | ask _ | breach => false

/-- Whether a rule could not be applied. -/
def isBreach : Mark → Bool
  | breach => true
  | ask _ | refresh => false

/-- The requests among marks. -/
def requests (marks : List Mark) : List (StageRequest Float) := marks.filterMap request?

theorem requests_append (marks marks' : List Mark) :
    requests (marks ++ marks') = requests marks ++ requests marks' :=
  List.filterMap_append

end Mark

/-- A battler after a treatment, and what else came of it. -/
structure Treated where
  battler : Battler
  marks : List Mark := []
  deriving Repr

/-- What is done to a battler, by its place. -/
abbrev Treatment := BattlerId → Battler → Treated

namespace Treatment

variable (f : Treatment) (r : Roster)

/-- The battlers after one of them was treated. -/
def one (id : BattlerId) : Roster := r.modify id fun x => (f id x).battler

/-- The battlers after some of them were treated in turn. -/
def roster (ids : List BattlerId) : Roster := ids.foldl f.one r

/-- The marks of the treatment of one battler. -/
def marksOf (id : BattlerId) : List Mark := ((r.get? id).map fun x => (f id x).marks).getD []

/-- The marks of treating some in turn. -/
def marks (r : Roster) : List BattlerId → List Mark
  | [] => []
  | id :: ids => f.marksOf r id ++ marks (f.one r id) ids

/-- A treatment after another one. -/
def andThen (g : Treatment) : Treatment := fun id x =>
  let t := f id x
  let u := g id t.battler
  ⟨u.battler, t.marks ++ u.marks⟩

/-- Every battler was treated as often as its place is listed. -/
theorem get?_roster (ids : List BattlerId) (j : BattlerId) :
    (f.roster r ids).get? j = (r.get? j).map (fun x => (f j x).battler)^[ids.count j] :=
  Roster.get?_foldl_modify (fun id x => (f id x).battler) ids r j

variable {i j : BattlerId} {ids ids' : List BattlerId}

/-- Treatments at different places do not see each other. -/
theorem one_comm (h : i ≠ j) : f.one (f.one r i) j = f.one (f.one r j) i :=
  r.modify_comm h _ _

/-- The treatment of another battler is not seen. -/
theorem marksOf_one_of_ne (h : j ≠ i) : f.marksOf (f.one r i) j = f.marksOf r j := by
  rw [marksOf, one, Roster.get?_modify_of_ne _ h, marksOf]

/-- The battlers do not depend on the order in which they were treated. -/
theorem roster_perm (h : ids.Perm ids') : f.roster r ids = f.roster r ids' := by
  refine Roster.ext_get? fun j => ?_
  rw [get?_roster, get?_roster, h.count_eq]

/-- The marks come in another order, and are otherwise the same. -/
theorem marks_perm (h : ids.Perm ids') : (f.marks r ids).Perm (f.marks r ids') := by
  -- on the permutation; only a swap of two places has something to show
  induction h generalizing r with
  | nil => exact .refl _
  | cons id _ ih => exact (ih (f.one r id)).append_left _
  | swap i j ids =>
    by_cases hne : i = j
    · subst hne
      exact .refl _
    · -- both see the same battler, whichever goes first
      show (f.marksOf r j ++ (f.marksOf (f.one r j) i ++ f.marks (f.one (f.one r j) i) ids)).Perm
        (f.marksOf r i ++ (f.marksOf (f.one r i) j ++ f.marks (f.one (f.one r i) j) ids))
      rw [f.marksOf_one_of_ne r hne, f.marksOf_one_of_ne r (Ne.symm hne), f.one_comm r hne,
        ← List.append_assoc, ← List.append_assoc]
      exact List.perm_append_comm.append_right _
  | trans _ _ ih ih' => exact (ih r).trans (ih' r)

end Treatment

end BattleScript
