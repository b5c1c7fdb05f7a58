/-!
# Splitting text

Text is worked on as a list of characters. `splitOn p` cuts it at every character that satisfies
`p`, keeping empty pieces; `cut p` cuts it at the first such character only.

* `intercalate_splitOn`: the pieces of a split, joined by the separator, are the text.
* `splitOn_join`: pieces that hold no separator are what the text joined from them is split into.
* `not_mem_of_mem_splitOn`: no piece holds a separator.
-/

namespace BattleScript.Text

/-- The pieces between the characters that satisfy `p`; there is always one more piece than there
are such characters. -/
def splitOn (p : Char → Bool) : List Char → List (List Char)
  | [] => [[]]
  | c :: cs => if p c then [] :: splitOn p cs else (splitOn p cs).modifyHead (c :: ·)

/-- There is always a piece, if only an empty one. -/
theorem splitOn_ne_nil (p : Char → Bool) (cs : List Char) : splitOn p cs ≠ [] := by
  induction cs with
  | nil => simp [splitOn]
  | cons c cs ih =>
    unfold splitOn
    split
    · simp
    · cases h : splitOn p cs with
      | nil => exact absurd h ih
      | cons => simp

/-- No piece holds a separator. -/
theorem not_mem_of_mem_splitOn {p : Char → Bool} {cs w : List Char} (h : w ∈ splitOn p cs) :
    ∀ c ∈ w, p c = false := by
  induction cs generalizing w with
  | nil => simp_all [splitOn]
  | cons c cs ih =>
    unfold splitOn at h
    split at h
    · -- a separator opens an empty piece; any other character goes into the first one
      rcases List.mem_cons.1 h with rfl | h
      · simp
      · exact ih h
    · cases hs : splitOn p cs with
      | nil => exact absurd hs (splitOn_ne_nil p cs)
      | cons u us =>
        rw [hs] at h ih
        rcases List.mem_cons.1 h with rfl | h
        · intro d hd
          rcases List.mem_cons.1 hd with rfl | hd
          · simp_all
          · exact ih List.mem_cons_self d hd
        · exact ih (List.mem_cons_of_mem _ h)

/-- The text before the first character that satisfies `p`, and the text after it if there is
one. -/
def cut (p : Char → Bool) : List Char → List Char × Option (List Char)
  | [] => ([], none)
  | c :: cs => if p c then ([], some cs) else ((cut p cs).map (c :: ·) id)

/-- The pieces put back together with one separator between neighbours. -/
def join (sep : List Char) (pieces : List (List Char)) : List Char := sep.intercalate pieces

/-- The pieces of a split, joined by the separator, are the text. -/
theorem intercalate_splitOn (sep : Char) (cs : List Char) :
    join [sep] (splitOn (· == sep) cs) = cs := by
  unfold join
  induction cs with
  | nil => simp [splitOn, List.intercalate]
  | cons c cs ih =>
    unfold splitOn
    cases h : splitOn (· == sep) cs with
    | nil => exact absurd h (splitOn_ne_nil _ cs)
    | cons w ws =>
      rw [h] at ih
      -- a separator opens an empty piece, any other character goes into the first one
      by_cases hc : c = sep
      · subst hc
        simp_all [List.intercalate]
      · cases ws <;> simp_all [List.intercalate]

/-- A text without a separator is a single piece. -/
theorem splitOn_of_not_mem {sep : Char} {w : List Char} (h : sep ∉ w) :
    splitOn (· == sep) w = [w] := by
  induction w with
  | nil => rfl
  | cons c w ih =>
    obtain ⟨hc, hw⟩ := List.ne_and_not_mem_of_not_mem_cons h
    rw [splitOn, if_neg (by simpa using Ne.symm hc), ih hw]
    rfl

/-- A text up to its first separator is the first piece. -/
theorem splitOn_append {sep : Char} {w : List Char} (h : sep ∉ w) (cs : List Char) :
    splitOn (· == sep) (w ++ sep :: cs) = w :: splitOn (· == sep) cs := by
  induction w with
  | nil => simp [splitOn]
  | cons c w ih =>
    obtain ⟨hc, hw⟩ := List.ne_and_not_mem_of_not_mem_cons h
    rw [List.cons_append, splitOn, if_neg (by simpa using Ne.symm hc), ih hw]
    rfl

/-- Pieces that hold no separator are what the text joined from them is split into. -/
theorem splitOn_join {sep : Char} {pieces : List (List Char)} (hne : pieces ≠ [])
    (h : ∀ w ∈ pieces, sep ∉ w) : splitOn (· == sep) (join [sep] pieces) = pieces := by
  unfold join
  induction pieces with
  | nil => exact absurd rfl hne
  | cons w ws ih =>
    obtain ⟨hw, hws⟩ := List.forall_mem_cons.mp h
    cases ws with
    | nil => simpa using splitOn_of_not_mem hw
    | cons u us =>
      have hjoin : [sep].intercalate (w :: u :: us) = w ++ sep :: [sep].intercalate (u :: us) := by
        simp [List.intercalate]
      rw [hjoin, splitOn_append hw, ih (List.cons_ne_nil u us) hws]

end BattleScript.Text
