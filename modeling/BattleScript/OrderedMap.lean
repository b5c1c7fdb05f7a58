/-!
# Maps in order of insertion

Stores, ledgers and rule tables are shown in the order in which their keys first came in. Writing a
key that is present keeps its place; removing one closes the gap.

The view of a map is `find?`, with one equation per operation: `find?_insert`, `find?_erase`,
`find?_modify`, `find?_mapValues`. The order is seen through `keys`.
-/

namespace BattleScript

/-- Pairs of a key and its value, in order of first insertion. -/
structure OrderedMap (κ ν : Type) where
  entries : List (κ × ν)
  deriving DecidableEq, Repr

namespace OrderedMap

variable {κ ν : Type}

/-- The map without entries. -/
def empty : OrderedMap κ ν := ⟨[]⟩

instance : Inhabited (OrderedMap κ ν) := ⟨empty⟩
instance : EmptyCollection (OrderedMap κ ν) := ⟨empty⟩

/-- The keys in order. -/
def keys (m : OrderedMap κ ν) : List κ := m.entries.map (·.1)

/-- The values in order of their keys. -/
def values (m : OrderedMap κ ν) : List ν := m.entries.map (·.2)

/-- Every value replaced by a function of its key and itself. -/
def mapValues (f : κ → ν → ν) (m : OrderedMap κ ν) : OrderedMap κ ν :=
  ⟨m.entries.map fun e => (e.1, f e.1 e.2)⟩

variable [DecidableEq κ]

/-- The value at a key in a list of entries. -/
def findIn (k : κ) : List (κ × ν) → Option ν
  | [] => none
  | e :: es => if e.1 = k then some e.2 else findIn k es

/-- The entries after writing a key. -/
def insertIn (k : κ) (v : ν) : List (κ × ν) → List (κ × ν)
  | [] => [(k, v)]
  | e :: es => if e.1 = k then (k, v) :: es else e :: insertIn k v es

/-- The value at a key. -/
def find? (m : OrderedMap κ ν) (k : κ) : Option ν := findIn k m.entries

/-- Whether the key has a value. -/
def contains (m : OrderedMap κ ν) (k : κ) : Bool := (m.find? k).isSome

/-- Writes a value at a key. -/
def insert (m : OrderedMap κ ν) (k : κ) (v : ν) : OrderedMap κ ν := ⟨insertIn k v m.entries⟩

/-- Removes a key. -/
def erase (m : OrderedMap κ ν) (k : κ) : OrderedMap κ ν := ⟨m.entries.filter (·.1 ≠ k)⟩

/-- Changes the value at a key, if there is one. -/
def modify (m : OrderedMap κ ν) (k : κ) (f : ν → ν) : OrderedMap κ ν :=
  ⟨m.entries.map fun e => if e.1 = k then (e.1, f e.2) else e⟩

/-- The map of a list of writes, in their order. -/
def ofList (es : List (κ × ν)) : OrderedMap κ ν := es.foldl (fun m e => m.insert e.1 e.2) empty

@[simp] theorem find?_empty (k : κ) : (empty : OrderedMap κ ν).find? k = none := rfl

/-- A value that is written is found at its own key, and the other keys find what they found. -/
theorem find?_insert (m : OrderedMap κ ν) (k : κ) (v : ν) (j : κ) :
    (m.insert k v).find? j = if j = k then some v else m.find? j := by
  obtain ⟨es⟩ := m
  simp only [find?, insert]
  induction es with
  | nil => simp [insertIn, findIn, eq_comm]
  | cons e es ih =>
    simp only [insertIn]
    by_cases h : e.1 = k
    · -- the first entry is that of the key and is replaced, or it is not and the rest is written
      by_cases hj : j = k <;> simp_all [findIn, eq_comm]
    · by_cases hj : e.1 = j
      · simp_all [findIn]
      · simp [h, hj, findIn, ih]

/-- What is found after a key was written is what was written, or was found before. -/
theorem eq_or_find?_of_insert {m : OrderedMap κ ν} {k j : κ} {v w : ν}
    (h : (m.insert k v).find? j = some w) : w = v ∨ m.find? j = some w := by
  rw [find?_insert] at h
  split at h
  · exact .inl (Option.some.inj h).symm
  · exact .inr h

/-- A key that is removed finds nothing, and the other keys find what they found. -/
theorem find?_erase (m : OrderedMap κ ν) (k j : κ) :
    (m.erase k).find? j = if j = k then none else m.find? j := by
  obtain ⟨es⟩ := m
  simp only [find?, erase]
  induction es with
  | nil => simp [findIn]
  | cons e es ih =>
    by_cases h : e.1 = k
    · by_cases hj : j = k <;> simp_all [findIn, eq_comm]
    · by_cases hj : e.1 = j
      · simp_all [findIn]
      · -- an entry that stays, of neither key
        have : decide (e.1 ≠ k) = true := by simp [h]
        rw [List.filter_cons, if_pos this]
        simp only [findIn, if_neg hj]
        exact ih

/-- A change is seen at its own key, if there is something to change. -/
theorem find?_modify (m : OrderedMap κ ν) (k : κ) (f : ν → ν) (j : κ) :
    (m.modify k f).find? j = if j = k then (m.find? j).map f else m.find? j := by
  obtain ⟨es⟩ := m
  simp only [find?, modify]
  induction es with
  | nil => simp [findIn]
  | cons e es ih =>
    by_cases h : e.1 = k <;> by_cases hj : e.1 = j <;> simp_all [findIn]

/-- Values that are all replaced are found as what replaced them. -/
theorem find?_mapValues (m : OrderedMap κ ν) (f : κ → ν → ν) (j : κ) :
    (m.mapValues f).find? j = (m.find? j).map (f j) := by
  obtain ⟨es⟩ := m
  simp only [find?, mapValues]
  induction es with
  | nil => simp [findIn]
  | cons e es ih => by_cases hj : e.1 = j <;> simp_all [findIn]

/-- A change of a value leaves the keys and their order alone. -/
@[simp] theorem keys_modify (m : OrderedMap κ ν) (k : κ) (f : ν → ν) :
    (m.modify k f).keys = m.keys := by
  simp only [keys, modify, List.map_map]
  congr 1; funext e; by_cases h : e.1 = k <;> simp [h]

omit [DecidableEq κ] in
@[simp] theorem keys_mapValues (m : OrderedMap κ ν) (f : κ → ν → ν) :
    (m.mapValues f).keys = m.keys := by
  simp [keys, mapValues]

/-- Writing a key adds it at the end, or leaves the keys as they are. -/
theorem keys_insert (m : OrderedMap κ ν) (k : κ) (v : ν) :
    (m.insert k v).keys = if k ∈ m.keys then m.keys else m.keys ++ [k] := by
  obtain ⟨es⟩ := m
  simp only [keys, insert]
  induction es with
  | nil => simp [insertIn]
  | cons e es ih =>
    by_cases h : e.1 = k
    · simp [insertIn, h]
    · have hk : k ≠ e.1 := fun hk => h hk.symm
      by_cases hm : k ∈ es.map (·.1) <;> simp_all [insertIn]

/-- Writing the value that a key has changes nothing. -/
theorem insert_eq_self {m : OrderedMap κ ν} {k : κ} {v : ν} (h : m.find? k = some v) :
    m.insert k v = m := by
  obtain ⟨es⟩ := m
  simp only [find?, insert, mk.injEq] at h ⊢
  induction es with
  | nil => cases h
  | cons e es ih =>
    by_cases hk : e.1 = k
    · simp only [findIn, if_pos hk, Option.some.injEq] at h
      rw [insertIn, if_pos hk, ← hk, ← h]
    · simp only [findIn, if_neg hk] at h
      rw [insertIn, if_neg hk, ih h]

/-- A new key is written at the end. -/
theorem insert_of_not_mem {m : OrderedMap κ ν} {k : κ} (h : k ∉ m.keys) (v : ν) :
    m.insert k v = ⟨m.entries ++ [(k, v)]⟩ := by
  obtain ⟨es⟩ := m
  rw [insert, mk.injEq]
  induction es with
  | nil => rfl
  | cons e es ih =>
    obtain ⟨hne, hes⟩ := List.ne_and_not_mem_of_not_mem_cons h
    rw [insertIn, if_neg (Ne.symm hne), ih hes, List.cons_append]

/-- Entries with keys of their own are written one behind the other. -/
theorem foldl_insert {es : List (κ × ν)} {m : OrderedMap κ ν}
    (h : (m.keys ++ es.map (·.1)).Nodup) :
    es.foldl (fun m e => m.insert e.1 e.2) m = ⟨m.entries ++ es⟩ := by
  induction es generalizing m with
  | nil => simp
  | cons e es ih =>
    have hnew : e.1 ∉ m.keys := fun hmem =>
      (List.nodup_append.mp h).2.2 _ hmem _ List.mem_cons_self rfl
    have hkeys : (m.insert e.1 e.2).keys = m.keys ++ [e.1] := by rw [keys_insert, if_neg hnew]
    have hrest : ((m.insert e.1 e.2).keys ++ es.map (·.1)).Nodup := by
      rwa [hkeys, ← List.append_cons]
    rw [List.foldl_cons, ih hrest, insert_of_not_mem hnew, List.append_assoc, List.singleton_append]

/-- A map is that of its entries. -/
theorem ofList_entries {m : OrderedMap κ ν} (h : m.keys.Nodup) : ofList m.entries = m :=
  foldl_insert h

end OrderedMap

end BattleScript
