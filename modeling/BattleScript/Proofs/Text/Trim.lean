import BattleScript.Text.Blank

/-!
# Trimming

Where a text has no blank at an end, trimming leaves that end alone. So a text that begins and ends
with characters that are no blanks is trimmed already (`trim_eq_self`), and whatever begins with
such characters begins with them still when it was trimmed (`trim_append`).
-/

namespace BattleScript.Text

variable {c : Char} {cs : List Char}

/-! ## The front of a text

What a predicate holds of is taken as far as it goes, and dropped as far. -/

section Front

variable {p : Char → Bool} {front : List Char}

/-- A front that ends where the predicate does is what is taken. -/
theorem takeWhile_append_of_head (hfront : ∀ c ∈ front, p c) (hcs : ∀ c ∈ cs.head?, p c = false) :
    (front ++ cs).takeWhile p = front := by
  rw [List.takeWhile_append_of_pos hfront]
  cases cs with
  | nil => simp
  | cons c cs => simp [hcs c rfl]

/-- What follows such a front is what is left when it is dropped. -/
theorem dropWhile_append_of_head (hfront : ∀ c ∈ front, p c) (hcs : ∀ c ∈ cs.head?, p c = false) :
    (front ++ cs).dropWhile p = cs := by
  rw [List.dropWhile_append_of_pos hfront]
  cases cs with
  | nil => rfl
  | cons c cs => simp [hcs c rfl]

/-- What is left does not begin with what was dropped. -/
theorem head_dropWhile (h : c ∈ (cs.dropWhile p).head?) : p c = false := by
  have hhead := List.head?_dropWhile_not p cs
  rwa [Option.mem_def.mp h] at hhead

end Front

/-! ## Blanks at the ends -/

theorem trimStart_cons (h : isBlank c = false) : trimStart (c :: cs) = c :: cs := by
  rw [trimStart, List.dropWhile_cons_of_neg (by simp [h])]

theorem trimStart_blank (h : isBlank c) : trimStart (c :: cs) = trimStart cs := by
  rw [trimStart, List.dropWhile_cons_of_pos h, trimStart]

/-- What is trimmed at the start are blanks. -/
theorem exists_append_trimStart (cs : List Char) :
    ∃ bs : List Char, (∀ c ∈ bs, isBlank c) ∧ bs ++ trimStart cs = cs :=
  ⟨cs.takeWhile isBlank, List.all_eq_true.mp List.all_takeWhile, List.takeWhile_append_dropWhile⟩

/-- A text that begins with no blank is not trimmed in front. -/
theorem trimStart_append {w : List Char} (h : w.head?.any fun c => !isBlank c) :
    trimStart (w ++ cs) = w ++ cs := by
  cases w with
  | nil => cases h
  | cons c w => exact trimStart_cons (by simpa using h)

theorem trimEnd_cons (h : isBlank c = false) : trimEnd (c :: cs) = c :: trimEnd cs := by
  rw [trimEnd]
  split
  · next hcs => simp [hcs, h]
  · next hcs => rw [hcs]

theorem trim_cons (h : isBlank c = false) : trim (c :: cs) = c :: trimEnd cs := by
  rw [trim, trimStart_cons h, trimEnd_cons h]

/-- Characters that are no blanks stay in front of what is trimmed after them. -/
theorem trimEnd_append {w : List Char} (h : ∀ c ∈ w, isBlank c = false) :
    trimEnd (w ++ cs) = w ++ trimEnd cs := by
  induction w with
  | nil => rfl
  | cons c w ih =>
    obtain ⟨hc, hw⟩ := List.forall_mem_cons.mp h
    rw [List.cons_append, trimEnd_cons hc, ih hw, List.cons_append]

/-- Whatever is trimmed at the end comes after the last character that is no blank. -/
theorem trimEnd_append_cons (h : isBlank c = false) (cs rest : List Char) :
    trimEnd (cs ++ c :: rest) = cs ++ c :: trimEnd rest := by
  induction cs with
  | nil => exact trimEnd_cons h
  | cons d cs ih =>
    rw [List.cons_append, trimEnd, ih]
    cases cs <;> rfl

/-- A text that ends with no blank is not trimmed at its end. -/
theorem trimEnd_concat (h : isBlank c = false) : trimEnd (cs ++ [c]) = cs ++ [c] :=
  trimEnd_append_cons h cs []

/-- A text that neither begins nor ends with a blank is trimmed. -/
theorem trim_eq_self {d : Char} (hc : isBlank c = false) (hd : isBlank d = false) :
    trim (c :: (cs ++ [d])) = c :: (cs ++ [d]) := by
  rw [trim_cons hc, trimEnd_concat hd]

/-- What begins with characters that are no blanks still does when it was trimmed. -/
theorem trim_append {w : List Char} (hw : w ≠ []) (h : ∀ c ∈ w, isBlank c = false) :
    trim (w ++ cs) = w ++ trimEnd cs := by
  obtain ⟨c, w, rfl⟩ := List.exists_cons_of_ne_nil hw
  obtain ⟨hc, hw⟩ := List.forall_mem_cons.mp h
  rw [List.cons_append, trim_cons hc, trimEnd_append hw, List.cons_append]

end BattleScript.Text
