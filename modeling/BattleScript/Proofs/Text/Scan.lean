import BattleScript.Proofs.Text.Trim
import BattleScript.Proofs.Text.Upper
import BattleScript.Text.Scan

/-!
# Recognising what was written

How the recognisers do on a text that is known in parts: a word is recognised at the start of what
begins with it (`after_append`) and of nothing that clashes with it (`after_eq_none`), and digits
are recognised as far as they go (`digits_append`). The other way round, what was recognised stands
at the start of the text (`afterWord_eq_some_iff`, `afterBlank_eq_some_iff`, `digits_eq_some_iff`).

Tags begin with a bracket. A line that has one bracket only, at its start, holds a tag at its start
or not at all: `search_bracket` takes the search for a tag to that place, and `Missing` says of a
word that it is at no place of a line.
-/

namespace BattleScript.Text

/-! ## Words -/

/-- Only to s and k fold characters beyond ASCII. -/
theorem foldsTo_iff {l c : Char} (hs : l ≠ 's') (hk : l ≠ 'k') : foldsTo l c ↔ c.toLower = l := by
  simp [foldsTo, hs, hk]

/-- A word without s and k is recognised in any mix of cases. -/
theorem afterWord_eq_some_iff {word cs rest : List Char} (hs : 's' ∉ word) (hk : 'k' ∉ word) :
    afterWord word cs = some rest ↔ ∃ w, w.map Char.toLower = word ∧ cs = w ++ rest := by
  induction word generalizing cs with
  | nil => simp [afterWord]
  | cons l ls ih =>
    rw [List.mem_cons, not_or] at hs hk
    -- apart from s and k, a letter is folded to by its two cases only
    have hfolds (c : Char) : foldsTo l c ↔ c.toLower = l :=
      foldsTo_iff (Ne.symm hs.1) (Ne.symm hk.1)
    cases cs with
    | nil =>
      constructor
      · intro h
        cases h
      · rintro ⟨w, hw, hcs⟩
        rw [(List.append_eq_nil_iff.mp hcs.symm).1] at hw
        cases hw
    | cons c cs =>
      rw [afterWord]
      constructor
      · intro h
        obtain ⟨hc, h⟩ := Option.ite_none_right_eq_some.mp h
        obtain ⟨w, hw, rfl⟩ := (ih hs.2 hk.2).mp h
        exact ⟨c :: w, by rw [List.map_cons, (hfolds c).mp hc, hw], rfl⟩
      · rintro ⟨w, hw, hcs⟩
        obtain ⟨d, v, rfl, hd, hv⟩ := List.map_eq_cons_iff.mp hw
        cases hcs
        rw [if_pos ((hfolds c).mpr hd)]
        exact (ih hs.2 hk.2).mpr ⟨v, hv, rfl⟩

/-- Blanks that have to be there are skipped, all of them. -/
theorem afterBlank_eq_some_iff {cs rest : List Char} :
    afterBlank cs = some rest ↔ ∃ blanks, blanks ≠ [] ∧ (∀ c ∈ blanks, isBlank c) ∧
      cs = blanks ++ rest ∧ ∀ c ∈ rest.head?, isBlank c = false := by
  -- one blank has to be there, and then all that follow it are skipped
  constructor
  · intro h
    cases cs with
    | nil => cases h
    | cons c cs =>
      obtain ⟨hc, hrest⟩ := Option.ite_none_right_eq_some.mp h
      cases hrest
      obtain ⟨bs, hbs, hcs⟩ := exists_append_trimStart cs
      refine ⟨c :: bs, List.cons_ne_nil c bs, List.forall_mem_cons.mpr ⟨hc, hbs⟩, ?_, ?_⟩
      · rw [List.cons_append, hcs]
      · exact fun d hd => head_dropWhile hd
  · rintro ⟨blanks, hne, hblanks, rfl, hrest⟩
    obtain ⟨b, bs, rfl⟩ := List.exists_cons_of_ne_nil hne
    obtain ⟨hb, hbs⟩ := List.forall_mem_cons.mp hblanks
    rw [List.cons_append, afterBlank, if_pos hb]
    exact congrArg some (dropWhile_append_of_head hbs hrest)

/-- Whether the text is in lower case, as far as it has letters. -/
def isLower (cs : List Char) : Bool := cs.all fun l => foldsTo l l

/-- A word in lower case is recognised as it is written. -/
theorem afterWord_append {word : List Char} (h : isLower word) (cs : List Char) :
    afterWord word (word ++ cs) = some cs := by
  induction word with
  | nil => rfl
  | cons l ls ih =>
    obtain ⟨hl, hls⟩ : foldsTo l l = true ∧ isLower ls = true := by
      simpa only [isLower, List.all_cons, Bool.and_eq_true] using h
    rw [List.cons_append, afterWord, if_pos hl, ih hls]

/-- A word in lower case is recognised where it stands. -/
theorem after_append {word : String} (h : isLower word.toList) (cs : List Char) :
    after word (word.toList ++ cs) = some cs :=
  afterWord_append h cs

theorem afterExact_append (w cs : List Char) : afterExact w (w ++ cs) = some cs := by
  induction w with
  | nil => rfl
  | cons l w ih => rw [List.cons_append, afterExact, if_pos rfl, ih]

/-- What was taken off exactly stood there. -/
theorem eq_append_of_afterExact {w cs rest : List Char} (h : afterExact w cs = some rest) :
    cs = w ++ rest := by
  induction w generalizing cs with
  | nil => exact Option.some.inj h
  | cons l w ih =>
    cases cs with
    | nil => cases h
    | cons c cs =>
      rw [afterExact] at h
      split at h
      · next hc => rw [hc, List.cons_append, ih h]
      · cases h

/-- Whether the texts differ at a place that both of them have. -/
def clash : List Char → List Char → Bool
  | l :: ls, c :: cs => !foldsTo l c || clash ls cs
  | _, _ => false

/-- A word is not recognised where some letter clashes with it. -/
theorem afterWord_eq_none {word front : List Char} (h : clash word front) (cs : List Char) :
    afterWord word (front ++ cs) = none := by
  induction word generalizing front with
  | nil => cases h
  | cons l ls ih =>
    cases front with
    | nil => cases h
    | cons c front =>
      rw [List.cons_append, afterWord]
      split
      · next hfolds => exact ih (by simpa [clash, hfolds] using h)
      · rfl

/-- A word is not recognised where something else begins. -/
theorem after_eq_none {word front : String} (h : clash word.toList front.toList) (cs : List Char) :
    after word (front.toList ++ cs) = none :=
  afterWord_eq_none h cs

/-! ## Brackets -/

/-- The bracket stands for itself only. -/
theorem eq_of_foldsTo_bracket {c : Char} (h : foldsTo '<' c) : c = '<' := by
  have hlower : c.toLower = '<' := (foldsTo_iff (by decide) (by decide)).mp h
  unfold Char.toLower at hlower
  split at hlower
  · next hupper =>
    -- a lower-case letter is no bracket
    have hval : (c.val + ('a'.val - 'A'.val)).toNat = 60 :=
      congrArg (fun d => d.val.toNat) hlower
    have hlow : 65 ≤ c.val.toNat := hupper.1
    have hhigh : c.val.toNat ≤ 90 := hupper.2
    have hshift : ('a'.val - 'A'.val).toNat = 32 := rfl
    rw [UInt32.toNat_add, hshift] at hval
    omega
  · exact hlower

/-- The text does not begin with a bracket. -/
def NoBracket (cs : List Char) : Prop := ∀ c ∈ cs.head?, c ≠ '<'

/-- A word that begins with a bracket is recognised only after one. -/
theorem after_of_noBracket {word : String} (hword : word.toList.head? = some '<') {cs : List Char}
    (h : NoBracket cs) : after word cs = none := by
  unfold after
  cases hw : word.toList with
  | nil => rw [hw] at hword; cases hword
  | cons l ls =>
    rw [hw] at hword
    cases hword
    cases cs with
    | nil => rfl
    | cons c cs =>
      have hfolds : ¬ foldsTo '<' c := fun hc => h c rfl (eq_of_foldsTo_bracket hc)
      rw [afterWord, if_neg hfolds]

/-- A search fails if it does so at every place. -/
theorem search_eq_none {β : Type} {recognise : List Char → Option β} {cs : List Char}
    (h : ∀ t, t <:+ cs → recognise t = none) : search recognise cs = none := by
  induction cs with
  | nil => exact h [] List.suffix_rfl
  | cons c cs ih =>
    rw [search, h _ List.suffix_rfl, Option.none_or]
    exact ih fun t ht => h t (ht.trans (List.suffix_cons c cs))

/-- What a search finds is recognised somewhere. -/
theorem exists_of_search {β : Type} {recognise : List Char → Option β} {cs : List Char} {x : β}
    (h : search recognise cs = some x) : ∃ t, recognise t = some x := by
  induction cs with
  | nil => exact ⟨[], h⟩
  | cons c cs ih =>
    rcases Option.or_eq_some_iff.mp h with h | ⟨-, h⟩
    · exact ⟨_, h⟩
    · exact ih h

theorem noBracket_of_suffix {cs t : List Char} (h : '<' ∉ cs) (ht : t <:+ cs) : NoBracket t := by
  intro c hc hbracket
  subst hbracket
  exact h (ht.subset (List.mem_of_mem_head? hc))

/-- What is only recognised after a bracket is found behind the only bracket of a line, if it
is found at all. -/
theorem search_bracket {β : Type} {recognise : List Char → Option β}
    (hrecognise : ∀ t, NoBracket t → recognise t = none) {cs : List Char} (h : '<' ∉ cs) :
    search recognise ('<' :: cs) = recognise ('<' :: cs) := by
  have htail : search recognise cs = none :=
    search_eq_none fun t ht => hrecognise t (noBracket_of_suffix h ht)
  rw [search, htail, Option.or_none]

/-- The word is at no place of the line. -/
def Missing (word : String) (line : List Char) : Prop := ∀ t, t <:+ line → after word t = none

/-- A word with a bracket is missing where the only bracket belongs to something else. -/
theorem missing_of_clash {word front : String} (hword : word.toList.head? = some '<')
    (hclash : clash word.toList front.toList) {cs : List Char}
    (h : '<' ∉ (front.toList ++ cs).tail) : Missing word (front.toList ++ cs) := by
  intro t ht
  -- a place is the start, where the words clash, or behind it, where there is no bracket
  rcases hline : front.toList ++ cs with _ | ⟨c, rest⟩
  · rw [hline] at ht
    exact after_of_noBracket hword (by simp [List.suffix_nil.mp ht, NoBracket])
  · rw [hline, List.suffix_cons_iff] at ht
    rcases ht with rfl | ht
    · rw [← hline]
      exact after_eq_none hclash cs
    · rw [hline] at h
      exact after_of_noBracket hword (noBracket_of_suffix h ht)

/-! ## Numerals -/

/-- The decimal numeral of a number. -/
theorem toList_toString (n : Nat) : (toString n).toList = Nat.toDigits 10 n := by
  rw [Nat.toString_eq_repr, Nat.toList_repr]

/-- No blank is a digit of any script. -/
theorem isDigit_of_isBlank {c : Char} (h : isBlank c) : isDigit c = false := by
  have hpoints : ∀ n ∈ blankPoints, isDigit (Char.ofNat n) = false := by decide +kernel
  have hc := hpoints c.toNat (mem_blankPoints h)
  rwa [Char.ofNat_toNat] at hc

theorem isBlank_of_digit {c : Char} (h : isDigit c) : isBlank c = false := by
  rw [Bool.eq_false_iff]
  intro hblank
  rw [isDigit_of_isBlank hblank] at h
  cases h

theorem isBlank_of_isDigit {c : Char} (h : c.isDigit) : isBlank c = false :=
  isBlank_of_digit (isDigit_of_ascii h)

theorem toNat_of_isDigit {c : Char} (h : c.isDigit) : 48 ≤ c.toNat ∧ c.toNat ≤ 57 := by
  simp only [Char.isDigit, Bool.and_eq_true, decide_eq_true_eq] at h
  exact h

theorem isCapital_of_isDigit {c : Char} (h : c.isDigit) : isCapital c := by
  have hrange := toNat_of_isDigit h
  simp only [isCapital, Bool.and_eq_true, decide_eq_true_eq]
  omega

theorem isDigit_of_mem_toDigits {n : Nat} {d : Char} (h : d ∈ Nat.toDigits 10 n) : d.isDigit :=
  Nat.isDigit_of_mem_toDigits (by decide) (by decide) h

/-- The digits of a number are read as it. -/
theorem readNat?_toDigits (n : Nat) : readNat? (Nat.toDigits 10 n) = some n := by
  have hall : (Nat.toDigits 10 n).all Char.isDigit :=
    List.all_eq_true.mpr fun d hd => isDigit_of_mem_toDigits hd
  have hnumeral : numeral (Nat.toDigits 10 n) = n := Nat.ofDigitChars_ten_toDigits
  rw [readNat?, if_pos ⟨Nat.toDigits_ne_nil, hall⟩, hnumeral]

/-- Digits of any script are recognised as far as they go. -/
theorem digits_append_of_isDigit {ds cs : List Char} (hne : ds ≠ []) (hds : ∀ d ∈ ds, isDigit d)
    (hcs : ∀ c ∈ cs.head?, isDigit c = false) : digits (ds ++ cs) = some (ds, cs) := by
  have htake : (ds ++ cs).takeWhile isDigit = ds := takeWhile_append_of_head hds hcs
  have hdrop : (ds ++ cs).dropWhile isDigit = cs := dropWhile_append_of_head hds hcs
  obtain ⟨d, ds, rfl⟩ := List.exists_cons_of_ne_nil hne
  rw [digits, htake, hdrop]

/-- Digits are recognised as far as they go, and nothing else is. -/
theorem digits_eq_some_iff {cs ds rest : List Char} :
    digits cs = some (ds, rest) ↔ ds ≠ [] ∧ (∀ d ∈ ds, isDigit d) ∧ cs = ds ++ rest ∧
      ∀ c ∈ rest.head?, isDigit c = false := by
  constructor
  · intro h
    unfold digits at h
    split at h
    · cases h
    · next d ds htake =>
      cases h
      refine ⟨List.cons_ne_nil d ds, ?_, ?_, fun c hc => head_dropWhile hc⟩
      · exact htake ▸ List.all_eq_true.mp List.all_takeWhile
      · rw [← htake]
        exact List.takeWhile_append_dropWhile.symm
  · rintro ⟨hne, hds, rfl, hrest⟩
    exact digits_append_of_isDigit hne hds hrest

/-- Nothing is left of a text of digits. -/
theorem digits_self {ds : List Char} (hne : ds ≠ []) (hds : ∀ d ∈ ds, isDigit d) :
    digits ds = some (ds, []) := by
  have hnil : ∀ c ∈ ([] : List Char).head?, isDigit c = false := by simp
  have hread := digits_append_of_isDigit hne hds hnil
  rwa [List.append_nil] at hread

/-- Digits are recognised as far as they go. -/
theorem digits_append {ds cs : List Char} (hne : ds ≠ []) (hds : ∀ d ∈ ds, d.isDigit)
    (hcs : ∀ c ∈ cs.head?, isDigit c = false) : digits (ds ++ cs) = some (ds, cs) :=
  digits_append_of_isDigit hne (fun d hd => isDigit_of_ascii (hds d hd)) hcs

/-- The text is made of decimal digits that denote the number, which is less than 2³². -/
structure IsNumeral (ds : List Char) (n : Nat) : Prop where
  nonempty : ds ≠ []
  digits : ∀ d ∈ ds, d.isDigit
  value : Nat.ofDigitChars 10 ds 0 = n
  small : n < 2 ^ 32

theorem IsNumeral.capital {ds : List Char} {n : Nat} (h : IsNumeral ds n) :
    ∀ d ∈ ds, isCapital d :=
  fun d hd => isCapital_of_isDigit (h.digits d hd)

/-- A number that fits is written as a numeral of it. -/
theorem isNumeral_toString {n : Nat} (h : n < 2 ^ 32) : IsNumeral (toString n).toList n := by
  rw [toList_toString]
  exact ⟨Nat.toDigits_ne_nil, fun d hd => isDigit_of_mem_toDigits hd,
    Nat.ofDigitChars_ten_toDigits, h⟩

/-- The text is made of decimal digits of ASCII that denote the number. -/
structure IsDigits (ds : List Char) (n : Nat) : Prop where
  nonempty : ds ≠ []
  digits : ∀ d ∈ ds, d.isDigit
  value : Nat.ofDigitChars 10 ds 0 = n

instance (ds : List Char) (n : Nat) : Decidable (IsDigits ds n) :=
  decidable_of_iff (ds ≠ [] ∧ ds.all Char.isDigit ∧ Nat.ofDigitChars 10 ds 0 = n)
    ⟨fun h => ⟨h.1, List.all_eq_true.mp h.2.1, h.2.2⟩,
      fun h => ⟨h.nonempty, List.all_eq_true.mpr h.digits, h.value⟩⟩

theorem isDigits_toDigits (n : Nat) : IsDigits (Nat.toDigits 10 n) n :=
  ⟨Nat.toDigits_ne_nil, fun _ hd => isDigit_of_mem_toDigits hd, Nat.ofDigitChars_ten_toDigits⟩

/-- A numeral is digits whose number fits. -/
theorem isNumeral_iff {ds : List Char} {n : Nat} : IsNumeral ds n ↔ IsDigits ds n ∧ n < 2 ^ 32 :=
  ⟨fun h => ⟨⟨h.nonempty, h.digits, h.value⟩, h.small⟩,
    fun ⟨h, hn⟩ => ⟨h.nonempty, h.digits, h.value, hn⟩⟩

/-- A number is read from digits only, and it is the one that they denote. -/
theorem readNat?_eq_some_iff {ds : List Char} {n : Nat} : readNat? ds = some n ↔ IsDigits ds n := by
  constructor
  · intro h
    obtain ⟨⟨hne, hall⟩, hvalue⟩ := Option.ite_none_right_eq_some.mp h
    exact ⟨hne, List.all_eq_true.mp hall, Option.some.inj hvalue⟩
  · intro h
    rw [readNat?, if_pos ⟨h.nonempty, List.all_eq_true.mpr h.digits⟩]
    exact congrArg some h.value

/-- Numerals are what is read as a number. -/
theorem nat32?_eq_some_iff {ds : List Char} {n : Nat} : nat32? ds = some n ↔ IsNumeral ds n := by
  have hsmall : n ≤ nat32Max ↔ n < 2 ^ 32 := Nat.lt_succ_iff.symm
  rw [nat32?, Option.filter_eq_some_iff, readNat?_eq_some_iff, decide_eq_true_eq, hsmall,
    isNumeral_iff]

/-- A plus sign may stand in front of a numeral. -/
theorem readUnsigned?_eq_some_iff {cs : List Char} {n : Nat} :
    readUnsigned? cs = some n ↔ ∃ plus ds, (plus = [] ∨ plus = ['+']) ∧ IsNumeral ds n ∧
      cs = plus ++ ds := by
  constructor
  · intro h
    unfold readUnsigned? at h
    split at h
    · next r => exact ⟨['+'], r, .inr rfl, nat32?_eq_some_iff.mp h, rfl⟩
    · exact ⟨[], cs, .inl rfl, nat32?_eq_some_iff.mp h, rfl⟩
  · rintro ⟨plus, ds, hplus, hds, rfl⟩
    have hread := nat32?_eq_some_iff.mpr hds
    rcases hplus with rfl | rfl
    · unfold readUnsigned?
      split
      · next r hr =>
        -- digits do not begin with a plus
        rw [List.nil_append] at hr
        have hdigit := hds.digits '+' (hr ▸ List.mem_cons_self)
        cases hdigit
      · exact hread
    · exact hread

end BattleScript.Text
