import BattleScript.Note.Decode
import BattleScript.Settings

/-!
# Skills and items

The database of a game: what can be used in an action, under its number. The scripts of an entry may
be those of another one: `sequence?` follows copy references until one is missing or would repeat.

Each step of that walk visits a reference that was not visited before and that the database holds,
so the references still unvisited bound it.
-/

namespace BattleScript

/-- A skill or item that can be used. -/
structure Usable where
  id : Nat
  name : String
  stypeId : Nat
  animationId : Nat
  notes : Notes
  deriving DecidableEq, Repr

namespace Usable

/-- A skill or item from its note text. -/
def ofNote (id : Nat) (name : String) (stypeId animationId : Nat) (note : String) : Usable :=
  ⟨id, name, stypeId, animationId, Notes.ofString note⟩

/-- Its cooldown rules. -/
def cooldown (u : Usable) : CooldownRules := u.notes.cooldown

/-- Whether it is free of cooldowns, by its own notes or by the settings. -/
def bypasses (u : Usable) (settings : Settings) : Bool :=
  u.cooldown.bypass || settings.cooldownBypass.contains u.id

end Usable

/-- The skills and items of a game. -/
structure Database where
  skills : OrderedMap Nat Usable := ∅
  items : OrderedMap Nat Usable := ∅
  deriving DecidableEq, Repr

namespace Database

/-- The database with one more skill. -/
def insertSkill (d : Database) (u : Usable) : Database :=
  { d with skills := d.skills.insert u.id u }

/-- The database with one more item. -/
def insertItem (d : Database) (u : Usable) : Database :=
  { d with items := d.items.insert u.id u }

/-- The skill with a number. -/
def skill? (d : Database) (id : Nat) : Option Usable := d.skills.find? id

/-- The entry that a reference names. -/
def find? (d : Database) : ItemRef → Option Usable
  | .skill id => d.skills.find? id
  | .item id => d.items.find? id

/-- The references that name an entry. -/
def refs (d : Database) : List ItemRef :=
  d.skills.keys.map .skill ++ d.items.keys.map .item

/-- Every skill stands under its own number. -/
def Keyed (d : Database) : Prop := ∀ id u, d.skill? id = some u → u.id = id

theorem keyed_empty : ({} : Database).Keyed := by
  intro id u h
  cases h

/-- Adding a skill keeps this, since it is added under its own number. -/
theorem Keyed.insertSkill {d : Database} (h : d.Keyed) (u : Usable) : (d.insertSkill u).Keyed := by
  intro id v hv
  have hfind : (d.insertSkill u).skill? id = if id = u.id then some u else d.skill? id :=
    OrderedMap.find?_insert ..
  rw [hfind] at hv
  split at hv
  · next hid =>
    cases hv
    exact hid.symm
  · exact h id v hv

theorem Keyed.insertItem {d : Database} (h : d.Keyed) (u : Usable) : (d.insertItem u).Keyed := h

/-- A number with an entry is among the keys. -/
theorem mem_keys_of_find? {m : OrderedMap Nat Usable} {k : Nat} {u : Usable}
    (h : m.find? k = some u) : k ∈ m.keys := by
  obtain ⟨es⟩ := m
  simp only [OrderedMap.find?, OrderedMap.keys] at h ⊢
  induction es with
  | nil => simp [OrderedMap.findIn] at h
  | cons e es ih =>
    by_cases hk : e.1 = k
    · simp [hk]
    · simp only [OrderedMap.findIn, if_neg hk] at h
      exact List.mem_cons_of_mem _ (ih h)

/-- Whatever a reference finds, the reference is one of those that the database holds. -/
theorem mem_refs_of_find? {d : Database} {r : ItemRef} {u : Usable} (h : d.find? r = some u) :
    r ∈ d.refs := by
  cases r with
  | skill id => exact List.mem_append_left _ (List.mem_map_of_mem (mem_keys_of_find? h))
  | item id => exact List.mem_append_right _ (List.mem_map_of_mem (mem_keys_of_find? h))

/-- The references that name an entry and were not visited. -/
def unvisited (d : Database) (seen : List ItemRef) : List ItemRef :=
  d.refs.filter (· ∉ seen)

/-- Each visit to an entry leaves fewer of them: this is what bounds a walk along copies. -/
theorem unvisited_cons_lt {d : Database} {seen : List ItemRef} {r : ItemRef}
    (hr : r ∈ d.refs) (hs : r ∉ seen) :
    (d.unvisited (r :: seen)).length < (d.unvisited seen).length := by
  have h : d.unvisited (r :: seen) = (d.unvisited seen).filter (· ≠ r) := by
    simp only [unvisited, List.filter_filter]
    congr 1; funext x
    by_cases hx : x = r <;> simp [hx]
  rw [h]
  exact List.length_filter_lt_length_iff_exists.2
    ⟨r, List.mem_filter.2 ⟨hr, by simpa using hs⟩, by simp⟩

/-- The entry at the end of the copy chain from `entry`, when the references in `seen` were
visited. -/
def copySource (d : Database) (entry : Usable) (seen : List ItemRef) : Usable :=
  match entry.notes.copy with
  | none => entry
  | some next =>
    if _hs : next ∈ seen then entry
    else match _hf : d.find? next with
      | none => entry
      | some copied => d.copySource copied (next :: seen)
termination_by (d.unvisited seen).length
decreasing_by exact unvisited_cons_lt (mem_refs_of_find? _hf) _hs

/-- A copy of something new that exists is followed. -/
theorem copySource_of_fresh {d : Database} {u copied : Usable} {next : ItemRef}
    {seen : List ItemRef} (hcopy : u.notes.copy = some next) (hseen : next ∉ seen)
    (hnext : d.find? next = some copied) :
    d.copySource u seen = d.copySource copied (next :: seen) := by
  rw [copySource, hcopy]
  simp only [dif_neg hseen]
  split
  · next h =>
    rw [hnext] at h
    cases h
  · next v h =>
    rw [hnext] at h
    cases h
    rfl

/-- A copy of something that was visited or is missing ends the chain. -/
theorem copySource_of_stop {d : Database} {u : Usable} {seen : List ItemRef}
    (h : ∀ next, u.notes.copy = some next → d.find? next = none ∨ next ∈ seen) :
    d.copySource u seen = u := by
  rw [copySource]
  split
  · rfl
  · next next hcopy =>
    split
    · rfl
    · next hseen =>
      -- it was not visited, so it is missing
      have hnext : d.find? next = none := (h next hcopy).resolve_right hseen
      split
      · rfl
      · next hfound =>
        rw [hnext] at hfound
        cases hfound

/-- Induction along copies: the chain stops at an entry, or it takes a step to the copied one. -/
theorem copy_induction (d : Database) {motive : Usable → List ItemRef → Prop}
    (stop : ∀ u seen, (∀ next, u.notes.copy = some next → d.find? next = none ∨ next ∈ seen) →
      motive u seen)
    (step : ∀ u seen next copied, u.notes.copy = some next → next ∉ seen →
      d.find? next = some copied → motive copied (next :: seen) → motive u seen)
    (u : Usable) (seen : List ItemRef) : motive u seen := by
  induction u, seen using copySource.induct d with
  | case1 u seen hcopy =>
    refine stop u seen fun next hnext => ?_
    rw [hcopy] at hnext
    cases hnext
  | case2 u seen next hcopy hseen =>
    refine stop u seen fun next' hnext => ?_
    rw [hcopy] at hnext
    cases hnext
    exact .inr hseen
  | case3 u seen next hcopy _ hmissing =>
    refine stop u seen fun next' hnext => ?_
    rw [hcopy] at hnext
    cases hnext
    exact .inl hmissing
  | case4 u seen next hcopy hseen copied hcopied ih =>
    exact step u seen next copied hcopy hseen hcopied ih

/-- An entry that copies none is the end of its chain. -/
theorem copySource_of_none {d : Database} {entry : Usable} (h : entry.notes.copy = none)
    (seen : List ItemRef) : d.copySource entry seen = entry := by
  rw [copySource, h]

/-- The scripts of an action with the given entry: its own, or those of the entry at the end of its
copy chain. -/
def sequence? (d : Database) (r : ItemRef) : Option ActionSequence :=
  (d.find? r).map fun entry => (d.copySource entry [r]).notes.sequence

end Database

end BattleScript
