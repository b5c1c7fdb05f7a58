import BattleScript.OrderedMap

/-!
# Entries, keys and values

What the operations on a map do to its entries, seen as a list. A key that is written or removed
is the only one whose entry changes, so an entry of the map after that is the one that was written
or an entry from before (`OrderedMap.mem_entries_insert`, `OrderedMap.mem_entries_erase`), and
what holds of every value goes on to hold (`OrderedMap.forall_mem_values_insert`,
`OrderedMap.mem_values_erase`). Nor do keys begin to repeat (`OrderedMap.nodup_keys_insert`,
`OrderedMap.nodup_keys_erase`); and while they do not, the entries are what is found.
-/

namespace BattleScript

namespace OrderedMap

variable {κ ν : Type}

/-! ## Every value at once -/

theorem values_mapValues (m : OrderedMap κ ν) (f : ν → ν) :
    (m.mapValues fun _ v => f v).values = m.values.map f := by
  simp [mapValues, values]

/-- What holds of all values that were replaced is a property of the entries before. -/
theorem forall_mem_values_mapValues {m : OrderedMap κ ν} {g : κ → ν → ν} {P : ν → Prop} :
    (∀ v ∈ (m.mapValues g).values, P v) ↔ ∀ k v, (k, v) ∈ m.entries → P (g k v) := by
  simp only [values, mapValues, List.map_map, List.forall_mem_map, Function.comp_apply,
    Prod.forall]

variable [DecidableEq κ] {m : OrderedMap κ ν} {k : κ} {v w : ν}

/-! ## One value changed -/

/-- What a change of a value leaves alone is the same in all values. -/
theorem map_entries_modify {μ : Type} (m : OrderedMap κ ν) (k : κ) {f : ν → ν} {g : ν → μ}
    (h : ∀ v, g (f v) = g v) :
    ((m.modify k f).entries.map fun e => (e.1, g e.2)) = m.entries.map fun e => (e.1, g e.2) := by
  simp only [modify, List.map_map]
  refine List.map_congr_left fun e _ => ?_
  simp only [Function.comp_apply]
  split
  · rw [h]
  · rfl

/-- After a change every value is one from before, or a changed one. -/
theorem mem_values_modify {f : ν → ν} (h : w ∈ (m.modify k f).values) :
    ∃ v ∈ m.values, w = v ∨ w = f v := by
  simp only [modify, values, List.map_map, List.mem_map, Function.comp_apply] at h
  obtain ⟨e, he, rfl⟩ := h
  refine ⟨e.2, List.mem_map_of_mem he, ?_⟩
  split
  · exact .inr rfl
  · exact .inl rfl

/-! ## Keys written -/

/-- What is written is the only new entry. -/
theorem mem_entries_insert {e : κ × ν} (h : e ∈ (m.insert k v).entries) :
    e = (k, v) ∨ e ∈ m.entries := by
  obtain ⟨es⟩ := m
  simp only [insert] at h ⊢
  induction es with
  | nil => exact .inl (List.mem_singleton.mp h)
  | cons d es ih =>
    -- the entry that is written takes the place of the old one, or comes at the end
    rw [insertIn] at h
    split at h
    · exact (List.mem_cons.mp h).imp_right (List.mem_cons_of_mem d)
    · rcases List.mem_cons.mp h with rfl | h
      · exact .inr List.mem_cons_self
      · exact (ih h).imp_right (List.mem_cons_of_mem d)

/-- A value after a write is the one that was written, or one from before. -/
theorem mem_values_insert (h : w ∈ (m.insert k v).values) : w = v ∨ w ∈ m.values := by
  obtain ⟨e, he, rfl⟩ := List.mem_map.mp h
  rcases mem_entries_insert he with rfl | he
  · exact .inl rfl
  · exact .inr (List.mem_map_of_mem he)

/-- What holds of every value and of the one that is written holds of every value after that. -/
theorem forall_mem_values_insert {P : ν → Prop} (hm : ∀ x ∈ m.values, P x) (hv : P v) :
    ∀ x ∈ (m.insert k v).values, P x := by
  intro x hx
  rcases mem_values_insert hx with rfl | hx
  · exact hv
  · exact hm x hx

/-- To write a key makes none repeat. -/
theorem nodup_keys_insert (hm : m.keys.Nodup) (k : κ) (v : ν) : (m.insert k v).keys.Nodup := by
  rw [keys_insert]
  split
  · exact hm
  · next hnew => simpa [List.nodup_append, hm] using fun j hj (hjk : j = k) => hnew (hjk ▸ hj)

/-! ## Keys removed -/

/-- What is left are the entries of the other keys. -/
theorem mem_entries_erase {e : κ × ν} : e ∈ (m.erase k).entries ↔ e ∈ m.entries ∧ e.1 ≠ k := by
  rw [erase, List.mem_filter, decide_eq_true_eq]

theorem mem_values_erase (h : w ∈ (m.erase k).values) : w ∈ m.values := by
  obtain ⟨e, he, rfl⟩ := List.mem_map.mp h
  exact List.mem_map_of_mem (mem_entries_erase.mp he).1

/-- To remove a key makes none repeat. -/
theorem nodup_keys_erase (hm : m.keys.Nodup) (k : κ) : (m.erase k).keys.Nodup :=
  hm.sublist (List.filter_sublist.map _)

/-! ## Keys that are found -/

/-- What is found is an entry. -/
theorem mem_entries_of_find? (h : m.find? k = some v) : (k, v) ∈ m.entries := by
  obtain ⟨es⟩ := m
  simp only [find?] at h ⊢
  induction es with
  | nil => cases h
  | cons e es ih =>
    rw [findIn] at h
    split at h
    · next hk =>
      cases h
      rw [← hk]
      exact List.mem_cons_self
    · exact List.mem_cons_of_mem e (ih h)

theorem mem_values_of_find? (h : m.find? k = some v) : v ∈ m.values :=
  List.mem_map_of_mem (mem_entries_of_find? h)

/-- As long as no key repeats, every entry is found. -/
theorem find?_of_mem_entries (hm : m.keys.Nodup) (h : (k, v) ∈ m.entries) :
    m.find? k = some v := by
  obtain ⟨es⟩ := m
  simp only [keys, find?] at hm h ⊢
  induction es with
  | nil => cases h
  | cons e es ih =>
    obtain ⟨hnew, hes⟩ := List.nodup_cons.mp hm
    rw [findIn]
    -- the first entry is found at once; any other has another key than the first
    rcases List.mem_cons.mp h with rfl | h
    · exact if_pos rfl
    · have hk : e.1 ≠ k := by
        rintro rfl
        exact hnew (List.mem_map_of_mem (f := (·.1)) h)
      rw [if_neg hk]
      exact ih hes h

/-- What holds of some value holds of one that is found. -/
theorem exists_mem_values_iff (hm : m.keys.Nodup) {P : ν → Prop} :
    (∃ v ∈ m.values, P v) ↔ ∃ k v, m.find? k = some v ∧ P v := by
  constructor
  · rintro ⟨v, hv, hP⟩
    obtain ⟨e, he, rfl⟩ := List.mem_map.mp hv
    exact ⟨e.1, e.2, find?_of_mem_entries hm he, hP⟩
  · rintro ⟨k, v, hfind, hP⟩
    exact ⟨v, mem_values_of_find? hfind, hP⟩

end OrderedMap

end BattleScript
