import BattleScript.Proofs.Script.Integer
import BattleScript.Script.Amount

/-!
# The grammar of amounts

`Amount.Spelled` says how an amount can be written. Every reader takes a piece off the front of a
text, and one equivalence for each of them says which pieces there are: the word for a variable
(`Amount.afterVariable_eq_some_iff`), a source (`Amount.source?_eq_some_iff`), the end
(`Amount.ending?_eq_some_iff`). Put together, what is read is exactly what is spelled
(`Amount.ofChars?_eq_some_iff`). Digits of any script are recognised, so they are never left over
for the end of an amount; but only those of ASCII denote a number, and the others are in no
spelling.

What a writer is free to choose, an `Amount.Style`, is the blanks and the word for a variable.
-/

namespace BattleScript

open Text

namespace Amount

/-! ## Spellings -/

/-- The word for a game variable, in any mix of cases. -/
def IsVariableWord (w : List Char) : Prop :=
  w.map Char.toLower = "variable".toList ∨ w.map Char.toLower = "var".toList

instance (w : List Char) : Decidable (IsVariableWord w) := by
  unfold IsVariableWord
  infer_instance

/-- The text is a spelling of the source: digits, or the word for a variable and digits after
blanks. The number fits the signed range in the one case and the unsigned range in the other. -/
inductive Source.Spelled : Source → List Char → Prop
  | literal {ds : List Char} {n : Nat} (hds : IsDigits ds n) (hn : FitsInt32 n) :
    Spelled (.literal n) ds
  | stored {word blanks ds : List Char} {id : Nat} (hword : IsVariableWord word)
    (hne : blanks ≠ []) (hblanks : ∀ c ∈ blanks, isBlank c) (hds : IsNumeral ds id) :
    Spelled (.stored id) (word ++ (blanks ++ ds))

/-- The sign of an amount. -/
def signChar (negative : Bool) : Char := if negative then '-' else '+'

/-- The percent sign of an amount that has one. -/
def percentSign (percent : Bool) : List Char := if percent then ['%'] else []

/-- The text is a spelling of the amount: the sign, the source, and the percent sign if there is
one, with blanks before and after the source. -/
def Spelled (a : Amount) (cs : List Char) : Prop :=
  ∃ blanks text blanks', (∀ c ∈ blanks, isBlank c) ∧ a.source.Spelled text ∧
    (∀ c ∈ blanks', isBlank c) ∧
    cs = signChar a.negative :: (blanks ++ (text ++ (blanks' ++ percentSign a.percent)))

variable {a : Amount} {source : Source} {percent : Bool} {cs rest text : List Char}

/-! ## The word for a variable -/

/-- The word for a variable cannot be taken for a number: it begins with a letter. -/
theorem IsVariableWord.exists_cons {w : List Char} (h : IsVariableWord w) :
    ∃ c v, w = c :: v ∧ c.toLower = 'v' := by
  -- both words begin with the same letter
  rcases h with hw | hw
  all_goals
    obtain ⟨c, v, rfl, hc, -⟩ := List.map_eq_cons_iff.mp hw
    exact ⟨c, v, rfl, hc⟩

/-- A word and the blanks that have to follow it. -/
theorem after_bind_afterBlank {word : String} (hs : 's' ∉ word.toList) (hk : 'k' ∉ word.toList) :
    (after word cs).bind afterBlank = some rest ↔
      ∃ w blanks, w.map Char.toLower = word.toList ∧ blanks ≠ [] ∧ (∀ c ∈ blanks, isBlank c) ∧
        cs = w ++ (blanks ++ rest) ∧ ∀ c ∈ rest.head?, isBlank c = false := by
  rw [Option.bind_eq_some_iff]
  constructor
  · rintro ⟨r, hword, hblank⟩
    obtain ⟨w, hw, rfl⟩ := (afterWord_eq_some_iff hs hk).mp hword
    obtain ⟨blanks, hne, hblanks, rfl, hrest⟩ := afterBlank_eq_some_iff.mp hblank
    exact ⟨w, blanks, hw, hne, hblanks, rfl, hrest⟩
  · rintro ⟨w, blanks, hw, hne, hblanks, rfl, hrest⟩
    exact ⟨blanks ++ rest, (afterWord_eq_some_iff hs hk).mpr ⟨w, hw, rfl⟩,
      afterBlank_eq_some_iff.mpr ⟨blanks, hne, hblanks, rfl, hrest⟩⟩

/-- The short word with a blank after it is not the start of the long one, which goes on with a
letter. -/
theorem after_variable_eq_none {w blanks : List Char} (hw : w.map Char.toLower = "var".toList)
    (hne : blanks ≠ []) (hblanks : ∀ c ∈ blanks, isBlank c) :
    after "variable" (w ++ (blanks ++ rest)) = none := by
  rw [Option.eq_none_iff_forall_ne_some]
  intro r hr
  obtain ⟨v, hv, heq⟩ := (afterWord_eq_some_iff (by decide) (by decide)).mp hr
  obtain ⟨b, bs, rfl⟩ := List.exists_cons_of_ne_nil hne
  have hvar : "var".toList = ['v', 'a', 'r'] := by decide
  have hvariable : "variable".toList = 'v' :: 'a' :: 'r' :: 'i' :: "able".toList := by decide
  -- the fourth letter of the long word would be the blank
  have hlower := congrArg (List.map Char.toLower) heq
  rw [List.map_append, List.map_append, List.map_append, hv, hw, hvar, hvariable] at hlower
  simp only [List.cons_append, List.nil_append, List.map_cons, List.cons.injEq] at hlower
  obtain ⟨-, -, -, hletter, -⟩ := hlower
  have hblank : isBlank b = false := isBlank_of_toLower_eq (d := 'I') (by decide) hletter
  rw [hblanks b List.mem_cons_self] at hblank
  cases hblank

/-- The word for a variable and blanks are taken off; the blanks are all that there are. -/
theorem afterVariable_eq_some_iff : afterVariable cs = some rest ↔
    ∃ word blanks, IsVariableWord word ∧ blanks ≠ [] ∧ (∀ c ∈ blanks, isBlank c) ∧
      cs = word ++ (blanks ++ rest) ∧ ∀ c ∈ rest.head?, isBlank c = false := by
  rw [afterVariable, Option.or_eq_some_iff, after_bind_afterBlank (by decide) (by decide),
    after_bind_afterBlank (by decide) (by decide)]
  constructor
  · rintro (⟨w, blanks, hw, h⟩ | ⟨-, w, blanks, hw, h⟩)
    · exact ⟨w, blanks, .inl hw, h⟩
    · exact ⟨w, blanks, .inr hw, h⟩
  · rintro ⟨w, blanks, hw | hw, hne, hblanks, rfl, hrest⟩
    · exact .inl ⟨w, blanks, hw, hne, hblanks, rfl, hrest⟩
    · refine .inr ⟨?_, w, blanks, hw, hne, hblanks, rfl, hrest⟩
      rw [after_variable_eq_none hw hne hblanks, Option.bind_none]

/-- Digits are not the word for a variable. -/
theorem afterVariable_digits {ds : List Char} {n : Nat} (h : IsDigits ds n) (rest : List Char) :
    afterVariable (ds ++ rest) = none := by
  rw [Option.eq_none_iff_forall_ne_some]
  intro r hr
  obtain ⟨w, blanks, hword, -, -, heq, -⟩ := afterVariable_eq_some_iff.mp hr
  obtain ⟨d, es, rfl, hd⟩ := h.exists_cons
  obtain ⟨c, v, rfl, hc⟩ := hword.exists_cons
  obtain ⟨rfl, -⟩ := List.cons.inj heq
  have hrange := toNat_of_isDigit hd
  have hletter := toNat_of_toLower_eq (d := 'V') (by decide) hc
  have hcapital : 'V'.toNat = 86 := rfl
  -- a digit is not a letter, whatever its case
  omega

/-! ## Sources -/

/-- A source is taken off, and the digits of its number are all that there are. -/
theorem source?_eq_some_iff : source? cs = some (source, rest) ↔
    ∃ text, source.Spelled text ∧ cs = text ++ rest ∧ ∀ c ∈ rest.head?, isDigit c = false := by
  constructor
  · intro h
    unfold source? at h
    split at h
    · next r hr =>
      obtain ⟨word, blanks, hword, hne, hblanks, rfl, -⟩ := afterVariable_eq_some_iff.mp hr
      simp only [Option.bind_eq_bind, Option.bind_eq_some_iff] at h
      obtain ⟨⟨ds, tail⟩, hdigits, id, hid, h⟩ := h
      cases h
      obtain ⟨-, -, rfl, hrest⟩ := digits_eq_some_iff.mp hdigits
      exact ⟨_, .stored hword hne hblanks (nat32?_eq_some_iff.mp hid), by simp, hrest⟩
    · simp only [Option.bind_eq_bind, Option.bind_eq_some_iff] at h
      obtain ⟨⟨ds, tail⟩, hdigits, value, ⟨n, hn, hvalue⟩, h⟩ := h
      cases h
      obtain ⟨-, -, rfl, hrest⟩ := digits_eq_some_iff.mp hdigits
      obtain ⟨hfits, heq⟩ := Option.ite_none_right_eq_some.mp hvalue
      cases heq
      exact ⟨ds, .literal (readNat?_eq_some_iff.mp hn) hfits, rfl, hrest⟩
  · rintro ⟨text, htext, rfl, hrest⟩
    -- what is read back must not go on with a digit of what follows
    cases htext with
    | @literal _ n hds hn =>
      have hvalue : signedInt32? false n = some (n : Int) := if_pos hn
      rw [source?, afterVariable_digits hds]
      simp [digits_append hds.nonempty hds.digits hrest, readNat?_eq_some_iff.mpr hds, hvalue]
    | @stored word blanks ds id hword hne hblanks hds =>
      have hhead : ∀ c ∈ (ds ++ rest).head?, isBlank c = false := by
        intro c hc
        rw [List.head?_append_of_ne_nil _ hds.nonempty] at hc
        exact isBlank_of_isDigit (hds.digits c (List.mem_of_mem_head? hc))
      have hvariable : afterVariable (word ++ (blanks ++ ds) ++ rest) = some (ds ++ rest) :=
        afterVariable_eq_some_iff.mpr ⟨word, blanks, hword, hne, hblanks, by simp, hhead⟩
      rw [source?, hvariable]
      simp [digits_append hds.nonempty hds.digits hrest, nat32?_eq_some_iff.mpr hds]

/-- An amount ends with blanks, and a percent sign if it is a percentage. -/
theorem ending?_eq_some_iff : ending? cs = some percent ↔
    ∃ blanks, (∀ c ∈ blanks, isBlank c) ∧ cs = blanks ++ percentSign percent := by
  constructor
  · intro h
    obtain ⟨blanks, hblanks, hcs⟩ := exists_append_trimStart cs
    refine ⟨blanks, hblanks, ?_⟩
    rw [← hcs]
    unfold ending? at h
    split at h
    · next hnil =>
      cases h
      rw [hnil]
      rfl
    · next hsign =>
      cases h
      rw [hsign]
      rfl
    · cases h
  · rintro ⟨blanks, hblanks, rfl⟩
    rw [ending?, trimStart_blanks_append hblanks]
    cases percent <;> rfl

/-- What ends an amount does not begin with a digit. -/
theorem head_ending {blanks : List Char} (hblanks : ∀ c ∈ blanks, isBlank c) (percent : Bool) :
    ∀ c ∈ (blanks ++ percentSign percent).head?, isDigit c = false := by
  intro c hc
  cases blanks with
  | nil =>
    cases percent with
    | true => cases hc; decide
    | false => cases hc
  | cons b bs =>
    have hb : b = c := Option.some.inj hc
    exact isDigit_of_isBlank (hb ▸ hblanks b List.mem_cons_self)

/-! ## Amounts -/

/-- The spelling of a source ends with its number. -/
theorem Source.Spelled.exists_concat (h : source.Spelled text) :
    ∃ init d, text = init ++ [d] ∧ d.isDigit := by
  have hlast {ds : List Char} (hne : ds ≠ []) (hds : ∀ d ∈ ds, d.isDigit) :
      ∃ init d, ds = init ++ [d] ∧ d.isDigit :=
    ⟨ds.dropLast, ds.getLast hne, (List.dropLast_append_getLast hne).symm,
      hds _ (List.getLast_mem hne)⟩
  cases h with
  | literal hds hn => exact hlast hds.nonempty hds.digits
  | @stored word blanks ds id hword hne hblanks hds =>
    obtain ⟨init, d, rfl, hd⟩ := hlast hds.nonempty hds.digits
    exact ⟨word ++ (blanks ++ init), d, by simp, hd⟩

/-- No spelling of a source begins with a blank. -/
theorem Source.Spelled.head (h : source.Spelled text) : text.head?.any fun c => !isBlank c := by
  cases h with
  | literal hds hn =>
    obtain ⟨d, es, rfl, hd⟩ := hds.exists_cons
    simpa using isBlank_of_isDigit hd
  | stored hword hne hblanks hds =>
    obtain ⟨c, v, rfl, hc⟩ := hword.exists_cons
    simpa using isBlank_of_toLower_eq (d := 'V') (by decide) hc

/-- The sign is one character. -/
theorem sign_eq_iff {negative : Bool} {body : List Char} :
    sign cs = (some negative, body) ↔ cs = signChar negative :: body := by
  constructor
  · intro h
    unfold sign at h
    split at h <;> cases h <;> rfl
  · rintro rfl
    cases negative <;> rfl

/-- **What is read is what is spelled.** -/
theorem ofChars?_eq_some_iff : ofChars? cs = some a ↔ a.Spelled cs := by
  constructor
  · intro h
    unfold ofChars? at h
    split at h
    · next negative body hsign =>
      simp only [Option.bind_eq_bind, Option.bind_eq_some_iff] at h
      -- sign, source and end are read in turn, each by its own equivalence
      obtain ⟨⟨source, rest⟩, hsource, percent, hpercent, h⟩ := h
      cases h
      obtain ⟨text, htext, hbody, -⟩ := source?_eq_some_iff.mp hsource
      obtain ⟨blanks', hblanks', rfl⟩ := ending?_eq_some_iff.mp hpercent
      obtain ⟨blanks, hblanks, hstart⟩ := exists_append_trimStart body
      refine ⟨blanks, text, blanks', hblanks, htext, hblanks', ?_⟩
      rw [sign_eq_iff.mp hsign, ← hstart, hbody]
    · cases h
  · rintro ⟨blanks, text, blanks', hblanks, htext, hblanks', rfl⟩
    have hsource : source? (text ++ (blanks' ++ percentSign a.percent)) =
        some (a.source, blanks' ++ percentSign a.percent) :=
      source?_eq_some_iff.mpr ⟨text, htext, rfl, head_ending hblanks' a.percent⟩
    have hpercent : ending? (blanks' ++ percentSign a.percent) = some a.percent :=
      ending?_eq_some_iff.mpr ⟨blanks', hblanks', rfl⟩
    rw [ofChars?, sign_eq_iff.mpr rfl]
    simp [trimStart_blanks_append hblanks, trimStart_append htext.head, hsource, hpercent]

/-- A spelling that is trimmed is still one: it begins with its sign, and at its end it has no
blanks but those after the source. -/
theorem Spelled.trim (h : a.Spelled cs) : a.Spelled (Text.trim cs) := by
  obtain ⟨blanks, text, blanks', hblanks, htext, hblanks', rfl⟩ := h
  have hsign : isBlank (signChar a.negative) = false := by
    cases a.negative <;> decide
  cases hpercent : a.percent with
  | true =>
    -- the percent sign is the last character, so there is nothing to trim
    have htrim : Text.trim (signChar a.negative :: (blanks ++ (text ++ blanks') ++ ['%'])) =
        signChar a.negative :: (blanks ++ (text ++ blanks') ++ ['%']) :=
      trim_eq_self hsign (by decide)
    simp only [List.append_assoc] at htrim
    rw [percentSign, if_pos rfl, htrim]
    exact ⟨blanks, text, blanks', hblanks, htext, hblanks', by rw [hpercent]; rfl⟩
  | false =>
    obtain ⟨init, d, rfl, hd⟩ := htext.exists_concat
    have htrim : Text.trim (signChar a.negative :: (blanks ++ init ++ [d])) =
        signChar a.negative :: (blanks ++ init ++ [d]) :=
      trim_eq_self hsign (isBlank_of_isDigit hd)
    have hshort :
        signChar a.negative :: (blanks ++ (init ++ [d] ++ (blanks' ++ percentSign false))) =
          signChar a.negative :: (blanks ++ init ++ [d]) ++ blanks' := by
      simp [percentSign]
    rw [hshort, trim_append_blanks hblanks', htrim]
    exact ⟨blanks, init ++ [d], [], hblanks, htext, by simp, by simp [hpercent, percentSign]⟩

/-- A whole argument is trimmed first. -/
theorem ofString?_eq_some_iff {s : String} :
    ofString? s = some a ↔ a.Spelled (Text.trim s.toList) :=
  ofChars?_eq_some_iff

/-! ## Writing -/

/-- The number of a source that can be written: not negative, and in the range of its kind. -/
def Source.Fits : Source → Prop
  | .literal n => 0 ≤ n ∧ FitsInt32 n
  | .stored id => id ≤ nat32Max

instance (source : Source) : Decidable source.Fits := by
  cases source <;> unfold Source.Fits <;> infer_instance

/-- Any number of blanks. -/
abbrev Blanks : Type := {bs : List Char // ∀ c ∈ bs, isBlank c}

/-- What a writer of amounts is free to choose: the blanks at each place where there may be some,
and the word for a game variable. -/
structure Style where
  front : Blanks
  afterSign : Blanks
  word : {w : List Char // IsVariableWord w}
  /-- There has to be a blank between the word and the number. -/
  afterWord : {bs : List Char // bs ≠ [] ∧ ∀ c ∈ bs, isBlank c}
  afterNumber : Blanks
  back : Blanks

/-- A source as it is written. -/
def Source.written (style : Style) : Source → List Char
  | .literal n => (toString n).toList
  | .stored id => style.word ++ (style.afterWord ++ (toString id).toList)

/-- An amount as it is written. -/
def written (style : Style) (a : Amount) : String :=
  String.ofList (style.front ++ (signChar a.negative :: (style.afterSign ++
    (a.source.written style ++ (style.afterNumber ++ percentSign a.percent))) ++ style.back))

/-- In any style, what is written of a source is a spelling of it. -/
theorem Source.spelled_written (style : Style) (h : source.Fits) :
    source.Spelled (source.written style) := by
  cases source with
  | literal n =>
    obtain ⟨hpos, hfits⟩ := h
    obtain ⟨m, rfl⟩ := Int.eq_ofNat_of_zero_le hpos
    have htext : (toString (m : Int)).toList = Nat.toDigits 10 m := toList_toString m
    rw [Source.written, htext]
    exact .literal (isDigits_toDigits m) hfits
  | stored id =>
    exact .stored style.word.2 style.afterWord.2.1 style.afterWord.2.2
      (isNumeral_toString (Nat.lt_succ_of_le h))

/-- An amount is read back as it was written, in whichever style. -/
theorem ofString?_written (style : Style) (h : a.source.Fits) :
    ofString? (a.written style) = some a := by
  have hspelled : a.Spelled (signChar a.negative :: (style.afterSign ++
      (a.source.written style ++ (style.afterNumber ++ percentSign a.percent)))) :=
    ⟨style.afterSign, _, style.afterNumber, style.afterSign.2, Source.spelled_written style h,
      style.afterNumber.2, rfl⟩
  rw [ofString?_eq_some_iff, written, String.toList_ofList, trim_blanks_append style.front.2,
    trim_append_blanks style.back.2]
  exact hspelled.trim

/-- **Amounts are read as they are spelled.** A text is read as an amount exactly if it is, without
the blanks at its ends, a spelling of that amount: its sign, a number or the number of a variable in
the range of its kind, and its percent sign, with blanks between them. So an amount whose number is
not negative is read back from what was written for it, wherever the writer put blanks. -/
theorem amounts_read_as_spelled :
    (∀ (s : String) (a : Amount), ofString? s = some a ↔ a.Spelled (Text.trim s.toList)) ∧
    ∀ (a : Amount) (style : Style), a.source.Fits → ofString? (a.written style) = some a := by
  constructor
  · intro s a
    exact ofString?_eq_some_iff
  · intro a style h
    exact ofString?_written style h

/-- A share of a maximum that the value of a variable takes off, as a careless writer puts it. -/
theorem amounts_read_as_spelled_careless :
    (Source.stored 7).Fits ∧ ofString? "  - vAr\t7 % " = some ⟨true, .stored 7, true⟩ := by
  have hfits : (Source.stored 7).Fits := by decide
  have hread := amounts_read_as_spelled.2 ⟨true, .stored 7, true⟩
    ⟨⟨[' ', ' '], by decide⟩, ⟨[' '], by decide⟩, ⟨"vAr".toList, by decide⟩, ⟨['\t'], by decide⟩,
      ⟨[' '], by decide⟩, ⟨[' '], by decide⟩⟩ hfits
  exact ⟨hfits, hread⟩

/-- Digits of another script are recognised as digits and denote no number, and a number out of
range is none either. -/
example : ofString? "+٣" = none ∧ ofString? "-2147483648" = none := by
  decide +kernel

end Amount

end BattleScript
