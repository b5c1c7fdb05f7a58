import BattleScript.Proofs.Text.Upper
import BattleScript.Proofs.Text.Words
import Mathlib.Data.List.Chain

/-!
# Words with single spaces

A text is tidy if its only blanks are single spaces between words. Words that are put together with
spaces make a tidy text (`isTidy_join`), a tidy text is its words put together (`join_words`), and
whichever way the words were spread out, they are found again (`words_of_spread`).
-/

namespace BattleScript.Text

variable {c : Char} {w cs : List Char} {ws : List (List Char)}

/-! ## Deciding

What is to hold of every character of a text is decided by going through the text, and not through
all characters that there are. -/

instance (priority := 2000) decidableForallMem {p : Char → Prop} [DecidablePred p]
    (cs : List Char) : Decidable (∀ c ∈ cs, p c) :=
  List.decidableBAll p cs

instance (priority := 2000) decidableForallMemOption {p : Char → Prop} [DecidablePred p]
    (c? : Option Char) : Decidable (∀ c ∈ c?, p c) :=
  Option.decidableForallMem c?

/-! ## Pieces -/

/-- What is in a piece of a text is in the text. -/
theorem mem_of_mem_splitOn {p : Char → Bool} (hw : w ∈ splitOn p cs) (hc : c ∈ w) : c ∈ cs := by
  induction cs generalizing w with
  | nil =>
    rw [List.mem_singleton.mp hw] at hc
    cases hc
  | cons d cs ih =>
    rw [splitOn] at hw
    split at hw
    · rcases List.mem_cons.mp hw with rfl | hw
      · cases hc
      · exact List.mem_cons_of_mem d (ih hw hc)
    · -- the character goes to the first of the pieces that the rest is split into
      cases hpieces : splitOn p cs with
      | nil => exact absurd hpieces (splitOn_ne_nil p cs)
      | cons piece pieces =>
        rw [hpieces] at hw ih
        rcases List.mem_cons.mp hw with rfl | hw
        · rcases List.mem_cons.mp hc with rfl | hc
          · exact List.mem_cons_self
          · exact List.mem_cons_of_mem d (ih List.mem_cons_self hc)
        · exact List.mem_cons_of_mem d (ih (List.mem_cons_of_mem _ hw) hc)

/-! ## Trimmed texts -/

/-- The text has no blanks at its ends. -/
structure IsTrimmed (cs : List Char) : Prop where
  first : ∀ c ∈ cs.head?, isBlank c = false
  last : ∀ c ∈ cs.getLast?, isBlank c = false

instance (cs : List Char) : Decidable (IsTrimmed cs) :=
  decidable_of_iff
    ((∀ c ∈ cs.head?, isBlank c = false) ∧ ∀ c ∈ cs.getLast?, isBlank c = false)
    ⟨fun h => ⟨h.1, h.2⟩, fun h => ⟨h.first, h.last⟩⟩

/-- A trimmed text is left alone by trimming. -/
theorem IsTrimmed.trim_eq (h : IsTrimmed cs) : trim cs = cs := trim_of_ends h.first h.last

theorem head_trimStart (h : c ∈ (trimStart cs).head?) : isBlank c = false := head_dropWhile h

/-- What trimming leaves does not end with a blank. -/
theorem last_trimEnd (h : c ∈ (trimEnd cs).getLast?) : isBlank c = false := by
  induction cs with
  | nil => cases h
  | cons d cs ih =>
    rw [trimEnd] at h
    cases hend : trimEnd cs with
    | nil =>
      rw [hend] at h
      cases hd : isBlank d with
      | true => simp [hd] at h
      | false =>
        simp only [hd, Bool.false_eq_true, if_false, List.getLast?_singleton,
          Option.mem_some_iff] at h
        exact h ▸ hd
    | cons e es =>
      rw [hend] at h ih
      exact ih (by simpa using h)

theorem head_trimEnd (h : c ∈ (trimEnd cs).head?) : c ∈ cs.head? := by
  obtain ⟨bs, -, hcs⟩ := exists_trimEnd_append cs
  rw [← hcs, List.head?_append, Option.mem_def.mp h]
  rfl

/-- What was trimmed is trimmed. -/
theorem isTrimmed_trim (cs : List Char) : IsTrimmed (trim cs) where
  first _ hc := head_trimStart (head_trimEnd hc)
  last _ hc := last_trimEnd hc

/-- Trimming adds nothing. -/
theorem mem_of_mem_trim (h : c ∈ trim cs) : c ∈ cs := by
  obtain ⟨bs, -, hcs⟩ := exists_trimEnd_append (trimStart cs)
  have hstart : c ∈ trimStart cs := hcs ▸ List.mem_append_left bs h
  exact (List.dropWhile_suffix isBlank).subset hstart

theorem trimStart_blanks_append {bs : List Char} (h : ∀ c ∈ bs, isBlank c) (cs : List Char) :
    trimStart (bs ++ cs) = trimStart cs := by
  induction bs with
  | nil => rfl
  | cons b bs ih =>
    obtain ⟨hb, hbs⟩ := List.forall_mem_cons.mp h
    rw [List.cons_append, trimStart_blank hb, ih hbs]

/-- Blanks in front of a text do not matter to what it is trimmed to. -/
theorem trim_blanks_append {bs : List Char} (h : ∀ c ∈ bs, isBlank c) (cs : List Char) :
    trim (bs ++ cs) = trim cs := by
  induction bs with
  | nil => rfl
  | cons b bs ih =>
    obtain ⟨hb, hbs⟩ := List.forall_mem_cons.mp h
    rw [List.cons_append, trim_cons_blank hb, ih hbs]

theorem trimEnd_blanks {bs : List Char} (h : ∀ c ∈ bs, isBlank c) : trimEnd bs = [] := by
  induction bs with
  | nil => rfl
  | cons b bs ih =>
    obtain ⟨hb, hbs⟩ := List.forall_mem_cons.mp h
    rw [trimEnd, ih hbs]
    exact if_pos hb

theorem trimEnd_append_blanks {bs : List Char} (h : ∀ c ∈ bs, isBlank c) (cs : List Char) :
    trimEnd (cs ++ bs) = trimEnd cs := by
  induction cs with
  | nil => exact trimEnd_blanks h
  | cons c cs ih => rw [List.cons_append, trimEnd, ih, trimEnd]

/-- Blanks at the ends of a text do not matter to what it is trimmed to. -/
theorem trim_append_blanks {bs : List Char} (h : ∀ c ∈ bs, isBlank c) (cs : List Char) :
    trim (cs ++ bs) = trim cs := by
  induction cs with
  | nil =>
    have hblanks := trim_blanks_append h []
    rwa [List.append_nil] at hblanks
  | cons c cs ih =>
    rw [List.cons_append]
    -- either the first character is trimmed as well, or only the end is left to trim
    cases hc : isBlank c with
    | true => rw [trim_cons_blank hc, trim_cons_blank hc, ih]
    | false => rw [trim_cons hc, trim_cons hc, trimEnd_append_blanks h]

/-- Trimmed texts on both sides of a character that is no blank make a trimmed text. -/
theorem IsTrimmed.append (hw : IsTrimmed w) (hc : isBlank c = false) (h : IsTrimmed cs) :
    IsTrimmed (w ++ c :: cs) := by
  constructor
  · intro d hd
    cases w with
    | nil => exact Option.some.inj hd ▸ hc
    | cons e w => exact hw.first d hd
  · intro d hd
    rw [List.getLast?_append_of_ne_nil _ (List.cons_ne_nil c cs)] at hd
    cases cs with
    | nil => exact Option.some.inj hd ▸ hc
    | cons e cs => exact h.last d (by simpa using hd)

/-- Trimmed pieces with a separator between them make a trimmed text. -/
theorem isTrimmed_join {pieces : List (List Char)} (hc : isBlank c = false)
    (h : ∀ piece ∈ pieces, IsTrimmed piece) : IsTrimmed (join [c] pieces) := by
  induction pieces with
  | nil => exact ⟨by simp [join], by simp [join]⟩
  | cons w pieces ih =>
    obtain ⟨hw, hpieces⟩ := List.forall_mem_cons.mp h
    cases pieces with
    | nil =>
      rw [join_singleton]
      exact hw
    | cons u us =>
      rw [join_cons_cons]
      exact hw.append hc (ih hpieces)

/-! ## Words -/

/-- The text is one word. -/
def IsWord (w : List Char) : Prop := w ≠ [] ∧ ∀ c ∈ w, isBlank c = false

instance (w : List Char) : Decidable (IsWord w) := by unfold IsWord; infer_instance

theorem IsWord.isTrimmed (h : IsWord w) : IsTrimmed w where
  first c hc := h.2 c (List.mem_of_mem_head? hc)
  last c hc := h.2 c (List.mem_of_mem_getLast? hc)

theorem IsWord.upper (h : IsWord w) : IsWord (upper w) :=
  ⟨upper_ne_nil h.1, isBlank_of_mem_upper h.2⟩

/-- In any mix of cases, a word in capitals is a word. -/
theorem isWord_of_map_toLower_eq {v : List Char} (hne : w ≠ []) (hw : ∀ d ∈ w, isCapital d)
    (h : v.map Char.toLower = w.map Char.toLower) : IsWord v := by
  constructor
  · rintro rfl
    exact hne (List.map_eq_nil_iff.mp h.symm)
  · intro c hc
    have hlower : c.toLower ∈ w.map Char.toLower := h ▸ List.mem_map_of_mem hc
    obtain ⟨d, hd, heq⟩ := List.mem_map.mp hlower
    exact isBlank_of_toLower_eq (hw d hd) heq.symm

/-- Words with spaces between them are found again. -/
theorem words_join (h : ∀ w ∈ ws, IsWord w) : words (join [' '] ws) = ws := by
  induction ws with
  | nil => rfl
  | cons w ws ih =>
    obtain ⟨hw, hws⟩ := List.forall_mem_cons.mp h
    cases ws with
    | nil => rw [join_singleton, words_of_word hw.1 hw.2]
    | cons u us => rw [join_cons_cons, words_append rfl, words_of_word hw.1 hw.2, ih hws]; rfl

/-- What stands before the first space of words put together is the first of them. -/
theorem exists_of_join_eq {v rest : List Char} (hws : ∀ w ∈ ws, IsWord w) (hv : IsWord v)
    (h : join [' '] ws = v ++ ' ' :: rest) : ∃ us, ws = v :: us ∧ join [' '] us = rest := by
  -- cut at the first blank, which is the first space, since words have none
  have hcut : cut isBlank (join [' '] ws) = (v, some rest) := by
    rw [h]
    exact cut_append hv.2 rfl rest
  cases ws with
  | nil => cases hcut
  | cons w ws =>
    have hw : IsWord w := hws w List.mem_cons_self
    cases ws with
    | nil =>
      rw [join_singleton] at h
      have hspace : ' ' ∈ w := h ▸ List.mem_append_right v List.mem_cons_self
      have hblank := hw.2 ' ' hspace
      cases hblank
    | cons u us =>
      rw [join_cons_cons, cut_append hw.2 rfl] at hcut
      cases hcut
      exact ⟨u :: us, rfl, rfl⟩

/-! ## Tidy texts -/

/-- The blanks of the text are single spaces, and none of them is at an end. -/
structure IsTidy (cs : List Char) : Prop extends IsTrimmed cs where
  spaces : ∀ c ∈ cs, isBlank c → c = ' '
  single : cs.IsChain fun c d => ¬ (isBlank c ∧ isBlank d)

theorem IsWord.isTidy (h : IsWord w) : IsTidy w where
  toIsTrimmed := h.isTrimmed
  spaces c hc hblank := by rw [h.2 c hc] at hblank; cases hblank
  single := by
    refine (List.pairwise_of_forall_mem_list ?_).isChain
    rintro c hc d - ⟨hblank, -⟩
    rw [h.2 c hc] at hblank
    cases hblank

/-- One more word in front of a tidy text. -/
theorem IsWord.isTidy_append (hw : IsWord w) (h : IsTidy cs) (hne : cs ≠ []) :
    IsTidy (w ++ ' ' :: cs) where
  first := by
    intro c hc
    rw [List.head?_append_of_ne_nil _ hw.1] at hc
    exact hw.isTrimmed.first c hc
  last := by
    intro c hc
    rw [List.getLast?_append_of_ne_nil _ (List.cons_ne_nil _ _),
      List.getLast?_cons_of_ne_nil hne] at hc
    exact h.last c hc
  spaces := by
    intro c hc hblank
    rcases List.mem_append.mp hc with hc | hc
    · exact hw.isTidy.spaces c hc hblank
    · rcases List.mem_cons.mp hc with rfl | hc
      · rfl
      · exact h.spaces c hc hblank
  single := by
    refine hw.isTidy.single.append (h.single.cons ?_) ?_
    · rintro d hd ⟨-, hblank⟩
      rw [h.first d hd] at hblank
      cases hblank
    · rintro c hc - - ⟨hblank, -⟩
      rw [hw.isTrimmed.last c hc] at hblank
      cases hblank

/-- Words with spaces between them make a tidy text. -/
theorem isTidy_join (h : ∀ w ∈ ws, IsWord w) : IsTidy (join [' '] ws) := by
  induction ws with
  | nil => exact ⟨⟨by simp [join], by simp [join]⟩, by simp [join], by simp [join]⟩
  | cons w ws ih =>
    obtain ⟨hw, hws⟩ := List.forall_mem_cons.mp h
    cases ws with
    | nil =>
      rw [join_singleton]
      exact hw.isTidy
    | cons u us =>
      rw [join_cons_cons]
      refine hw.isTidy_append (ih hws) ?_
      intro hnil
      have hwords := words_join hws
      rw [hnil] at hwords
      cases hwords

theorem splitOn_congr {p q : Char → Bool} (h : ∀ c ∈ cs, p c = q c) :
    splitOn p cs = splitOn q cs := by
  induction cs with
  | nil => rfl
  | cons c cs ih =>
    obtain ⟨hc, hcs⟩ := List.forall_mem_cons.mp h
    rw [splitOn, splitOn, hc, ih hcs]

/-- The first piece of a text that begins with no separator is not empty. -/
theorem ne_nil_or_mem_tail {p : Char → Bool} (hc : p c = false)
    (hw : w ∈ splitOn p (c :: cs)) : w ≠ [] ∨ w ∈ (splitOn p (c :: cs)).tail := by
  rw [splitOn, if_neg (by simp [hc])] at hw ⊢
  cases hpieces : splitOn p cs with
  | nil => exact absurd hpieces (splitOn_ne_nil p cs)
  | cons piece pieces =>
    rw [hpieces] at hw
    rcases List.mem_cons.mp hw with rfl | hw
    · exact .inl (List.cons_ne_nil c piece)
    · exact .inr hw

/-- Where no two blanks meet and none is at the end, only the first piece can be empty. -/
theorem ne_nil_of_mem_tail (hlast : ∀ c ∈ cs.getLast?, isBlank c = false)
    (hsingle : cs.IsChain fun c d => ¬ (isBlank c ∧ isBlank d)) :
    ∀ w ∈ (splitOn isBlank cs).tail, w ≠ [] := by
  induction cs with
  | nil => simp [splitOn]
  | cons c cs ih =>
    intro w hw
    cases cs with
    | nil =>
      have hc : isBlank c = false := hlast c rfl
      simp [splitOn, hc] at hw
    | cons d ds =>
      have htail := ih (by simpa using hlast) hsingle.tail
      rw [splitOn] at hw
      split at hw
      · next hc =>
        -- what follows a blank begins with none
        have hd : isBlank d = false := by
          have hpair := (List.isChain_cons_cons.mp hsingle).1
          rw [Bool.eq_false_iff]
          intro hd
          exact hpair ⟨hc, hd⟩
        rcases ne_nil_or_mem_tail hd hw with hne | hmem
        · exact hne
        · exact htail w hmem
      · rw [List.tail_modifyHead] at hw
        exact htail w hw

/-- A tidy text is its words with spaces between them. -/
theorem join_words (h : IsTidy cs) : join [' '] (words cs) = cs := by
  cases cs with
  | nil => rfl
  | cons c cs =>
    -- no piece is empty, for no blank stands at an end or next to another
    have hpieces : ∀ w ∈ splitOn isBlank (c :: cs), w ≠ [] := by
      intro w hw
      rcases ne_nil_or_mem_tail (h.first c rfl) hw with hne | hmem
      · exact hne
      · exact ne_nil_of_mem_tail h.last h.single w hmem
    have hspaces : splitOn isBlank (c :: cs) = splitOn (· == ' ') (c :: cs) := by
      refine splitOn_congr ?_
      intro d hd
      by_cases hspace : d = ' '
      · rw [hspace]
        rfl
      · rw [beq_eq_false_iff_ne.mpr hspace, Bool.eq_false_iff]
        intro hblank
        exact hspace (h.spaces d hd hblank)
    rw [words, List.filter_eq_self.mpr (by simpa using hpieces), hspaces, intercalate_splitOn]

/-! ## Words spread out -/

/-- The text is the words, with any blanks around them and at least one between two of them. -/
inductive Spread : List (List Char) → List Char → Prop
  | blanks (bs : List Char) (hbs : ∀ c ∈ bs, isBlank c) : Spread [] bs
  | word (bs w : List Char) {cs : List Char} {ws : List (List Char)} (hbs : ∀ c ∈ bs, isBlank c)
      (hgap : ∀ c ∈ cs.head?, isBlank c) (h : Spread ws cs) : Spread (w :: ws) (bs ++ w ++ cs)

/-- Blanks in front of a text are in no word. -/
theorem words_blanks_append {bs : List Char} (h : ∀ c ∈ bs, isBlank c) (cs : List Char) :
    words (bs ++ cs) = words cs := by
  induction bs with
  | nil => rfl
  | cons b bs ih =>
    obtain ⟨hb, hbs⟩ := List.forall_mem_cons.mp h
    rw [List.cons_append, words_cons_blank hb, ih hbs]

/-- **Words are found again however they were spread out.** -/
theorem words_of_spread (h : Spread ws cs) (hws : ∀ w ∈ ws, IsWord w) : words cs = ws := by
  -- word by word; after each of them comes a blank, or nothing
  induction h with
  | blanks bs hbs => exact words_eq_nil hbs
  | @word bs w cs ws hbs hgap h ih =>
    obtain ⟨hw, hws⟩ := List.forall_mem_cons.mp hws
    rw [List.append_assoc, words_blanks_append hbs, ← ih hws]
    cases cs with
    | nil => rw [List.append_nil, words_of_word hw.1 hw.2]; rfl
    | cons c cs =>
      rw [words_append (hgap c rfl), words_of_word hw.1 hw.2, words_cons_blank (hgap c rfl)]
      rfl

end BattleScript.Text
