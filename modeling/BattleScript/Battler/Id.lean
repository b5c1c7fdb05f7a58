/-!
# Sides and places

A battle has two sides, the actors of the party and the enemies of the troop. A battler is known by
its place: its side and its position there, counted from zero and shown counted from one.
-/

namespace BattleScript

/-- The two sides of a battle. -/
inductive Side
  | actor
  | enemy
  deriving DecidableEq, Repr

/-- The other side. -/
def Side.opposite : Side → Side
  | .actor => .enemy
  | .enemy => .actor

/-- To change sides twice is to stay. -/
@[simp] theorem Side.opposite_opposite (s : Side) : s.opposite.opposite = s := by cases s <;> rfl

/-- The place of a battler. -/
inductive BattlerId
  | actor (index : Nat)
  | enemy (index : Nat)
  deriving DecidableEq, Repr

namespace BattlerId

/-- The side of the place. -/
def side : BattlerId → Side
  | .actor _ => .actor
  | .enemy _ => .enemy

/-- The position on the side, from zero. -/
def index : BattlerId → Nat
  | .actor i => i
  | .enemy i => i

/-- The place at a position of a side. -/
def on : Side → Nat → BattlerId
  | .actor, i => .actor i
  | .enemy, i => .enemy i

@[simp] theorem side_on (s : Side) (i : Nat) : (on s i).side = s := by cases s <;> rfl
@[simp] theorem index_on (s : Side) (i : Nat) : (on s i).index = i := by cases s <;> rfl
@[simp] theorem on_side_index (id : BattlerId) : on id.side id.index = id := by cases id <;> rfl

/-- Whether the place is in the party. -/
def isActor (id : BattlerId) : Bool := id.side = .actor

/-- Whether the place is in the troop. -/
def isEnemy (id : BattlerId) : Bool := id.side = .enemy

/-- How a place is shown. -/
def label : BattlerId → String
  | .actor i => "actor " ++ toString (i + 1)
  | .enemy i => "enemy " ++ toString (i + 1)

end BattlerId

/-- A list without its repetitions, first occurrences kept. -/
def distinct {α : Type} [DecidableEq α] (xs : List α) : List α :=
  xs.foldl (fun seen x => if x ∈ seen then seen else seen ++ [x]) []

/-- A list without repetitions is kept. -/
theorem distinct_eq_self {α : Type} [DecidableEq α] {xs : List α} (h : xs.Nodup) :
    distinct xs = xs := by
  -- by induction on the rest, behind whatever was seen before
  have hfold (seen : List α) (hseen : (seen ++ xs).Nodup) :
      xs.foldl (fun seen x => if x ∈ seen then seen else seen ++ [x]) seen = seen ++ xs := by
    clear h
    induction xs generalizing seen with
    | nil => simp
    | cons x xs ih =>
      have hnew : x ∉ seen := fun hmem =>
        (List.nodup_append.mp hseen).2.2 _ hmem _ List.mem_cons_self rfl
      have hrest : (seen ++ [x] ++ xs).Nodup := by rwa [← List.append_cons]
      rw [List.foldl_cons, if_neg hnew, ih _ hrest, ← List.append_cons]
  exact hfold [] h

/-- Only repetitions are dropped. -/
theorem mem_distinct {α : Type} [DecidableEq α] {x : α} {xs : List α} :
    x ∈ distinct xs ↔ x ∈ xs := by
  have hfold (seen : List α) :
      x ∈ xs.foldl (fun seen y => if y ∈ seen then seen else seen ++ [y]) seen ↔
        x ∈ seen ∨ x ∈ xs := by
    -- what was seen before is general, since it grows with every element
    induction xs generalizing seen with
    | nil => simp
    | cons y xs ih =>
      rw [List.foldl_cons, ih]
      split <;> grind
  rw [distinct, hfold, or_iff_right List.not_mem_nil]

/-- Nothing that is left repeats. -/
theorem nodup_distinct {α : Type} [DecidableEq α] (xs : List α) : (distinct xs).Nodup := by
  refine List.foldlRecOn xs _ List.nodup_nil fun seen hseen x _ => ?_
  split
  · exact hseen
  · next hnew =>
    rw [List.nodup_append]
    refine ⟨hseen, List.pairwise_singleton _ _, fun y hy z hz => ?_⟩
    rw [List.mem_singleton.mp hz]
    exact fun heq => hnew (heq ▸ hy)

/-- An injection keeps apart what is apart. -/
theorem distinct_map {α β : Type} [DecidableEq α] [DecidableEq β] {f : α → β}
    (hf : ∀ {x y}, f x = f y → x = y) (xs : List α) :
    distinct (xs.map f) = (distinct xs).map f := by
  have hmem (seen : List α) (x : α) : f x ∈ seen.map f ↔ x ∈ seen := by
    constructor
    · intro h
      obtain ⟨y, hy, heq⟩ := List.mem_map.mp h
      exact hf heq ▸ hy
    · exact List.mem_map_of_mem
  rw [distinct, distinct, List.foldl_map, ← List.foldl_hom (List.map f), List.map_nil]
  intro seen x
  simp only [hmem]
  split
  · rfl
  · rw [List.map_append, List.map_singleton]

end BattleScript
