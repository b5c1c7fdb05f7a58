import BattleScript.Proofs.Text.Trim
import BattleScript.Script.Command

/-!
# Reading what was put together

A text that was put together from pieces is taken apart into them again. All there is to know of
words follows from one equation, that the words on both sides of a blank are read apart
(`words_append`): blanks at the ends do not matter (`words_trim`), and every character that is no
blank is in some word (`exists_word_of_mem`).

A line with a name, a colon and a clause is read as a command with the words of the name and the
arguments of the clause (`Command.ofLine_append`).
-/

namespace BattleScript.Text

variable {p : Char → Bool} {c : Char} {cs : List Char} {ws : List (List Char)}

/-! ## Pieces -/

/-- Both sides of a separator are split apart. -/
theorem splitOn_append_cons (hc : p c) (xs ys : List Char) :
    splitOn p (xs ++ c :: ys) = splitOn p xs ++ splitOn p ys := by
  induction xs with
  | nil => simp [splitOn, hc]
  | cons x xs ih =>
    rw [List.cons_append, splitOn, splitOn, ih]
    split
    · rfl
    · cases hx : splitOn p xs with
      | nil => exact absurd hx (splitOn_ne_nil p xs)
      | cons piece pieces => rfl

/-- A text without separators is one piece. -/
theorem splitOn_eq_singleton (h : ∀ c ∈ cs, p c = false) : splitOn p cs = [cs] := by
  induction cs with
  | nil => rfl
  | cons c cs ih =>
    obtain ⟨hc, hcs⟩ := List.forall_mem_cons.mp h
    rw [splitOn, if_neg (by simp [hc]), ih hcs]
    rfl

theorem join_cons_cons (c : Char) (w u : List Char) (us : List (List Char)) :
    join [c] (w :: u :: us) = w ++ c :: join [c] (u :: us) := by
  rw [join, List.intercalate_cons_cons, List.append_assoc]
  rfl

@[simp] theorem join_singleton (sep w : List Char) : join sep [w] = w :=
  List.intercalate_singleton

/-- What is in a text of pieces is in a piece, or separates them. -/
theorem mem_join {sep d : Char} (h : d ∈ join [sep] ws) : d = sep ∨ ∃ w ∈ ws, d ∈ w := by
  induction ws with
  | nil => simp [join] at h
  | cons w ws ih =>
    cases ws with
    | nil => exact .inr ⟨w, List.mem_cons_self, join_singleton [sep] w ▸ h⟩
    | cons u us =>
      rw [join_cons_cons, List.mem_append, List.mem_cons] at h
      rcases h with h | h | h
      · exact .inr ⟨w, List.mem_cons_self, h⟩
      · exact .inl h
      · rcases ih h with h | ⟨v, hv, hd⟩
        · exact .inl h
        · exact .inr ⟨v, List.mem_cons_of_mem w hv, hd⟩

/-- What is in a piece is in the text of the pieces. -/
theorem mem_join_of_mem {sep d : Char} {w : List Char} (hw : w ∈ ws) (hd : d ∈ w) :
    d ∈ join [sep] ws := by
  induction ws with
  | nil => cases hw
  | cons u us ih =>
    cases us with
    | nil =>
      rw [join_singleton, ← List.mem_singleton.mp hw]
      exact hd
    | cons v vs =>
      rw [join_cons_cons, List.mem_append, List.mem_cons]
      rcases List.mem_cons.mp hw with rfl | hw
      · exact .inl hd
      · exact .inr (.inr (ih hw))

/-- What is no separator is in some piece. -/
theorem exists_piece_of_mem (hmem : c ∈ cs) (hc : p c = false) : ∃ w ∈ splitOn p cs, c ∈ w := by
  obtain ⟨xs, ys, rfl⟩ := List.append_of_mem hmem
  induction xs with
  | nil =>
    rw [List.nil_append, splitOn, if_neg (by simp [hc])]
    cases hys : splitOn p ys with
    | nil => exact absurd hys (splitOn_ne_nil p ys)
    | cons piece pieces => exact ⟨c :: piece, List.mem_cons_self, List.mem_cons_self⟩
  | cons x xs ih =>
    obtain ⟨w, hw, hcw⟩ := ih (List.mem_append_right _ List.mem_cons_self)
    rw [List.cons_append, splitOn]
    split
    · exact ⟨w, List.mem_cons_of_mem _ hw, hcw⟩
    · cases hpieces : splitOn p (xs ++ c :: ys) with
      | nil => exact absurd hpieces (splitOn_ne_nil p _)
      | cons piece pieces =>
        rw [hpieces] at hw
        rcases List.mem_cons.mp hw with rfl | hw
        · exact ⟨x :: w, List.mem_cons_self, List.mem_cons_of_mem x hcw⟩
        · exact ⟨w, List.mem_cons_of_mem _ hw, hcw⟩

/-- A text is cut at the first separator. -/
theorem cut_append (h : ∀ d ∈ cs, p d = false) (hc : p c) (ys : List Char) :
    cut p (cs ++ c :: ys) = (cs, some ys) := by
  induction cs with
  | nil => simp [cut, hc]
  | cons d cs ih =>
    obtain ⟨hd, hcs⟩ := List.forall_mem_cons.mp h
    rw [List.cons_append, cut, if_neg (by simp [hd]), ih hcs]
    rfl

/-! ## Words -/

/-- **The words on both sides of a blank are read apart.** -/
theorem words_append (hc : isBlank c) (xs ys : List Char) :
    words (xs ++ c :: ys) = words xs ++ words ys := by
  rw [words, splitOn_append_cons hc, List.filter_append, words, words]

theorem words_cons_blank (hc : isBlank c) (cs : List Char) : words (c :: cs) = words cs := by
  have happend := words_append hc [] cs
  rwa [List.nil_append, show words [] = [] from rfl, List.nil_append] at happend

/-- What holds no blank is one word. -/
theorem words_of_word (hne : cs ≠ []) (h : ∀ c ∈ cs, isBlank c = false) : words cs = [cs] := by
  rw [words, splitOn_eq_singleton h]
  simp [hne]

/-- Blanks have no words. -/
theorem words_eq_nil (h : ∀ c ∈ cs, isBlank c) : words cs = [] := by
  induction cs with
  | nil => rfl
  | cons c cs ih =>
    obtain ⟨hc, hcs⟩ := List.forall_mem_cons.mp h
    rw [words_cons_blank hc, ih hcs]

/-- Blanks at the start do not matter to the words. -/
theorem words_trimStart (cs : List Char) : words (trimStart cs) = words cs := by
  induction cs with
  | nil => rfl
  | cons c cs ih =>
    cases hc : isBlank c with
    | true => rw [trimStart_blank hc, ih, words_cons_blank hc]
    | false => rw [trimStart_cons hc]

/-- What is trimmed at the end are blanks. -/
theorem exists_trimEnd_append (cs : List Char) :
    ∃ bs : List Char, (∀ c ∈ bs, isBlank c) ∧ trimEnd cs ++ bs = cs := by
  induction cs with
  | nil => exact ⟨[], by simp, rfl⟩
  | cons c cs ih =>
    obtain ⟨bs, hbs, hcs⟩ := ih
    rw [trimEnd]
    -- the first character is trimmed only if all that follows it is
    cases hend : trimEnd cs with
    | nil =>
      rw [hend, List.nil_append] at hcs
      subst hcs
      cases hc : isBlank c with
      | true => exact ⟨c :: bs, List.forall_mem_cons.mpr ⟨hc, hbs⟩, rfl⟩
      | false => exact ⟨bs, hbs, rfl⟩
    | cons d ds => exact ⟨bs, hbs, by rw [← hcs, hend]; rfl⟩

/-- What is trimmed off a text are blanks. -/
theorem exists_trim_append (cs : List Char) :
    ∃ bs bs' : List Char, (∀ c ∈ bs, isBlank c) ∧ (∀ c ∈ bs', isBlank c) ∧
      cs = bs ++ (trim cs ++ bs') := by
  obtain ⟨bs, hbs, hstart⟩ := exists_append_trimStart cs
  obtain ⟨bs', hbs', hend⟩ := exists_trimEnd_append (trimStart cs)
  exact ⟨bs, bs', hbs, hbs', by rw [trim, hend, hstart]⟩

/-- Blanks at the end do not matter to the words. -/
theorem words_trimEnd (cs : List Char) : words (trimEnd cs) = words cs := by
  obtain ⟨bs, hbs, hcs⟩ := exists_trimEnd_append cs
  cases bs with
  | nil => rw [← List.append_nil (trimEnd cs), hcs]
  | cons b bs =>
    obtain ⟨hb, hrest⟩ := List.forall_mem_cons.mp hbs
    calc words (trimEnd cs)
        = words (trimEnd cs) ++ words bs := by rw [words_eq_nil hrest, List.append_nil]
      _ = words (trimEnd cs ++ b :: bs) := (words_append hb _ _).symm
      _ = words cs := by rw [hcs]

/-- Blanks at the ends of a text do not matter to its words. -/
theorem words_trim (cs : List Char) : words (trim cs) = words cs := by
  rw [trim, words_trimEnd, words_trimStart]

/-- What is no blank is in some word. -/
theorem exists_word_of_mem (hmem : c ∈ cs) (hc : isBlank c = false) : ∃ w ∈ words cs, c ∈ w := by
  obtain ⟨w, hw, hcw⟩ := exists_piece_of_mem hmem hc
  exact ⟨w, List.mem_filter.mpr ⟨hw, by simpa using List.ne_nil_of_mem hcw⟩, hcw⟩

/-! ## Trimming -/

/-- A text without blanks at its ends is trimmed. -/
theorem trim_of_ends (hhead : ∀ c ∈ cs.head?, isBlank c = false)
    (hlast : ∀ c ∈ cs.getLast?, isBlank c = false) : trim cs = cs := by
  cases cs with
  | nil => rfl
  | cons c cs =>
    rw [trim, trimStart_cons (hhead c rfl)]
    rcases List.eq_nil_or_concat (c :: cs) with hnil | ⟨init, d, hconcat⟩
    · cases hnil
    · rw [hconcat, List.concat_eq_append]
      refine trimEnd_concat (hlast d ?_)
      rw [hconcat, List.concat_eq_append, List.getLast?_concat]
      rfl

theorem trim_cons_blank (hc : isBlank c) (cs : List Char) : trim (c :: cs) = trim cs := by
  rw [trim, trimStart_blank hc, trim]

end BattleScript.Text

namespace BattleScript.Command

open Text

/-- A name, a colon and a clause are read as a command with the words of the name and the arguments
of the clause. -/
theorem ofLine_append {line : String} {name clause : List Char}
    (hline : trim line.toList = name ++ ':' :: clause) (hname : ':' ∉ name) :
    ofLine line =
      ⟨wordsOfName name, argsOfClause clause, String.ofList (name ++ ':' :: clause)⟩ := by
  have hcut : cut (· == ':') (name ++ ':' :: clause) = (name, some clause) :=
    cut_append (fun d hd => beq_eq_false_iff_ne.mpr (ne_of_mem_of_not_mem hd hname)) rfl clause
  rw [ofLine, hline, hcut]
  rfl

end BattleScript.Command
