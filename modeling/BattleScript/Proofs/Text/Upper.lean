import BattleScript.Text.Case
import Mathlib.Algebra.Group.Nat.Defs

/-!
# Upper case is final

What upper-casing makes of a character is left alone when it is upper-cased again, and it is
neither a blank nor a colon unless the character was one (`mem_upper`). Both are facts about the
table: the code points that it leads to are none of those that it leads away from
(`raised_apart`). They are too many to be compared one by one, so either set is held as the ones
of a single number.

For texts in ASCII, any mix of cases of a text in capitals has that text as its upper case
(`upper_of_map_toLower_eq`).
-/

namespace BattleScript.Text

/-! ## Sets of numbers -/

/-- The number whose binary ones stand at the given places. -/
def bits (ns : List Nat) : Nat := ns.foldr (fun n m => 2 ^ n ||| m) 0

/-- The ones of the number are the numbers of the list. -/
theorem testBit_bits (ns : List Nat) (n : Nat) : (bits ns).testBit n = decide (n ∈ ns) := by
  induction ns with
  | nil => simp [bits]
  | cons m ns ih =>
    have hcons : bits (m :: ns) = 2 ^ m ||| bits ns := rfl
    rw [hcons, Nat.testBit_or, ih, Nat.testBit_two_pow]
    simp [eq_comm]

/-- Numbers without a common one come from lists without a common member. -/
theorem not_mem_of_bits {ms ns : List Nat} (h : bits ms &&& bits ns = 0) {n : Nat} (hn : n ∈ ms) :
    n ∉ ns := by
  intro hmem
  have hbit : (bits ms &&& bits ns).testBit n = false := by rw [h, Nat.zero_testBit]
  simp [Nat.testBit_and, testBit_bits, hn, hmem] at hbit

/-! ## The table -/

/-- The code points of a run. -/
def runPoints (first last step : Nat) : List Nat :=
  (List.range ((last - first) / step + 1)).map fun i => first + i * step

/-- The code points of the characters that are not their own upper case. -/
def loweredPoints : List Nat :=
  (List.range 26).map (97 + ·) ++ upperSequences.map (·.1) ++
    upperRuns.flatMap fun (first, last, step, _) => runPoints first last step

/-- The code points in the upper case of the characters beyond ASCII among them. -/
def raisedPoints : List Nat :=
  upperSequences.flatMap (·.2) ++
    upperRuns.flatMap fun (first, last, step, shift) =>
      (runPoints first last step).map fun n : Nat => (n + shift : Int).toNat

/-- The code points of the blanks. -/
def blankPoints : List Nat :=
  [9, 10, 11, 12, 13, 0x20, 0x85, 0xA0, 0x1680, 0x2000, 0x2001, 0x2002, 0x2003, 0x2004, 0x2005,
    0x2006, 0x2007, 0x2008, 0x2009, 0x200A, 0x2028, 0x2029, 0x202F, 0x205F, 0x3000]

/-- What the table leads to is none of what it leads away from, no blank and no colon. -/
theorem raised_apart :
    bits (0 :: raisedPoints) &&& bits (':'.toNat :: blankPoints ++ loweredPoints) = 0 := by
  decide +kernel

/-- There are no blanks but these. -/
theorem mem_blankPoints {c : Char} (h : isBlank c) : c.toNat ∈ blankPoints := by
  simp only [isBlank, Bool.or_eq_true, Bool.and_eq_true, decide_eq_true_eq, beq_iff_eq] at h
  simp only [blankPoints, List.mem_cons, List.not_mem_nil, or_false]
  omega

/-- A code point that a run leads away from is listed. -/
theorem mem_runPoints {first last step n : Nat} (hfirst : first ≤ n) (hlast : n ≤ last)
    (hstep : (n - first) % step = 0) : n ∈ runPoints first last step := by
  have hmul : (n - first) / step * step = n - first :=
    Nat.div_mul_cancel (Nat.dvd_of_mod_eq_zero hstep)
  have hle : (n - first) / step ≤ (last - first) / step := Nat.div_le_div_right (by omega)
  exact List.mem_map.mpr ⟨(n - first) / step, List.mem_range.mpr (by omega), by omega⟩

/-- What the table does not lead away from is its own upper case. -/
theorem upperChar_of_not_mem {c : Char} (h : c.toNat ∉ loweredPoints) : upperChar c = [c] := by
  simp only [loweredPoints, List.mem_append, not_or] at h
  obtain ⟨⟨hascii, hsequences⟩, hruns⟩ := h
  rw [upperChar]
  -- in ASCII by the code point, beyond it by the two parts of the table
  split
  · have hnotLower : ¬ ('a'.val ≤ c.val ∧ c.val ≤ 'z'.val) := fun hlower =>
      hascii (List.mem_map.mpr ⟨c.toNat - 97, List.mem_range.mpr (Nat.sub_lt_left_of_lt_add
        hlower.1 (Nat.lt_succ_of_le hlower.2)), Nat.add_sub_cancel' hlower.1⟩)
    rw [show c.toUpper = c from dif_neg hnotLower]
  · have hsequence : upperSequences.find? (·.1 == c.toNat) = none :=
      List.find?_eq_none.mpr fun e he hkey =>
        hsequences (List.mem_map.mpr ⟨e, he, beq_iff_eq.mp hkey⟩)
    have hrun : (upperRuns.find? fun (first, last, step, _) =>
        first ≤ c.toNat && c.toNat ≤ last && (c.toNat - first) % step == 0) = none := by
      refine List.find?_eq_none.mpr fun r hr hin => hruns (List.mem_flatMap.mpr ⟨r, hr, ?_⟩)
      simp only [Bool.and_eq_true, decide_eq_true_eq, beq_iff_eq] at hin
      exact mem_runPoints hin.1.1 hin.1.2 hin.2
    simp only [upperWide, hsequence, hrun]

/-- A character in the upper case of others: it is its own upper case, and neither a blank nor a
colon. -/
def IsSettled (d : Char) : Prop := upperChar d = [d] ∧ isBlank d = false ∧ d ≠ ':'

/-- What the table leads to is settled. -/
theorem isSettled_of_mem {d : Char} (h : d.toNat ∈ 0 :: raisedPoints) : IsSettled d := by
  have hapart := not_mem_of_bits raised_apart h
  rw [List.cons_append, List.mem_cons, List.mem_append, not_or, not_or] at hapart
  obtain ⟨hcolon, hblank, hlowered⟩ := hapart
  refine ⟨upperChar_of_not_mem hlowered, ?_, fun hd => hcolon (congrArg Char.toNat hd)⟩
  exact Bool.eq_false_iff.mpr fun hd => hblank (mem_blankPoints hd)

/-- A number in the table that is no character stands for the null character, which is settled
too. -/
theorem isSettled_ofNat {n : Nat} (h : n ∈ raisedPoints) : IsSettled (Char.ofNat n) := by
  apply isSettled_of_mem
  by_cases hvalid : n.isValidChar
  · have hchar : Char.ofNat n = Char.ofNatAux n hvalid := dif_pos hvalid
    rw [hchar]
    show n ∈ 0 :: raisedPoints
    exact List.mem_cons_of_mem _ h
  · have hchar : Char.ofNat n = ⟨0, .inl (by decide)⟩ := dif_neg hvalid
    rw [hchar]
    show 0 ∈ 0 :: raisedPoints
    exact List.mem_cons_self

/-- A character beyond ASCII is its own upper case, or its upper case is settled. -/
theorem upperWide_spec (c : Char) : upperWide c = [c] ∨ ∀ d ∈ upperWide c, IsSettled d := by
  unfold upperWide
  -- a special sequence, a run, or nothing in the table
  split
  · next key cs hfind =>
    right
    intro d hd
    obtain ⟨n, hn, rfl⟩ := List.mem_map.mp hd
    have hmem : (key, cs) ∈ upperSequences := List.mem_of_find?_eq_some hfind
    exact isSettled_ofNat (List.mem_append_left _ (List.mem_flatMap.mpr ⟨_, hmem, hn⟩))
  · split
    · next first last step shift hfind =>
      right
      intro d hd
      have hmem : (first, last, step, shift) ∈ upperRuns := List.mem_of_find?_eq_some hfind
      have hin := List.find?_some hfind
      simp only [Bool.and_eq_true, decide_eq_true_eq, beq_iff_eq] at hin
      have hpoint : c.toNat ∈ runPoints first last step := mem_runPoints hin.1.1 hin.1.2 hin.2
      rw [List.mem_singleton.mp hd]
      exact isSettled_ofNat (List.mem_append_right _
        (List.mem_flatMap.mpr ⟨_, hmem, List.mem_map.mpr ⟨c.toNat, hpoint, rfl⟩⟩))
    · exact .inl rfl

/-! ## ASCII -/

/-- Upper-casing in ASCII, by code points. -/
theorem toNat_toUpper (c : Char) :
    c.toUpper.toNat = if 97 ≤ c.toNat ∧ c.toNat ≤ 122 then c.toNat - 32 else c.toNat := by
  unfold Char.toUpper
  split
  · next h =>
    have hlow : 97 ≤ c.val.toNat := h.1
    have hhigh : c.val.toNat ≤ 122 := h.2
    show (c.val + ('A'.val - 'a'.val)).toNat = if 97 ≤ c.val.toNat ∧ c.val.toNat ≤ 122 then _ else _
    have hshift : ('A'.val - 'a'.val).toNat = 4294967264 := rfl
    rw [if_pos ⟨hlow, hhigh⟩, UInt32.toNat_add, hshift]
    show (c.val.toNat + 4294967264) % 2 ^ 32 = c.val.toNat - 32
    omega
  · next h =>
    have hnot : ¬ (97 ≤ c.toNat ∧ c.toNat ≤ 122) := h
    rw [if_neg hnot]

theorem toNat_toLower (c : Char) :
    c.toLower.toNat = if 65 ≤ c.toNat ∧ c.toNat ≤ 90 then c.toNat + 32 else c.toNat := by
  unfold Char.toLower
  split
  · next h =>
    have hlow : 65 ≤ c.val.toNat := h.1
    have hhigh : c.val.toNat ≤ 90 := h.2
    show (c.val + ('a'.val - 'A'.val)).toNat = if 65 ≤ c.val.toNat ∧ c.val.toNat ≤ 90 then _ else _
    have hshift : ('a'.val - 'A'.val).toNat = 32 := rfl
    rw [if_pos ⟨hlow, hhigh⟩, UInt32.toNat_add, hshift]
    show (c.val.toNat + 32) % 2 ^ 32 = c.val.toNat + 32
    omega
  · next h =>
    have hnot : ¬ (65 ≤ c.toNat ∧ c.toNat ≤ 90) := h
    rw [if_neg hnot]

theorem isCapital_toUpper {c : Char} (h : 33 ≤ c.toNat ∧ c.toNat ≤ 122) : isCapital c.toUpper := by
  simp only [isCapital, toNat_toUpper, Bool.and_eq_true, decide_eq_true_eq]
  split <;> omega

/-- What differs from a capital in case only is that capital, or the letter below it. -/
theorem toNat_of_toLower_eq {c d : Char} (hd : isCapital d) (h : c.toLower = d.toLower) :
    c.toNat = d.toNat ∨ c.toNat = d.toNat + 32 ∧ 65 ≤ d.toNat ∧ d.toNat ≤ 90 := by
  simp only [isCapital, Bool.and_eq_true, decide_eq_true_eq] at hd
  have hlower : c.toLower.toNat = d.toLower.toNat := congrArg Char.toNat h
  rw [toNat_toLower, toNat_toLower] at hlower
  split at hlower <;> split at hlower <;> omega

/-- A letter is no blank, whatever its case. -/
theorem isBlank_of_toLower_eq {c d : Char} (hd : isCapital d) (h : c.toLower = d.toLower) :
    isBlank c = false := by
  have hnat := toNat_of_toLower_eq hd h
  simp only [isCapital, Bool.and_eq_true, decide_eq_true_eq] at hd
  simp only [isBlank, Bool.or_eq_false_iff, Bool.and_eq_false_iff, decide_eq_false_iff_not,
    beq_eq_false_iff_ne]
  omega

/-- Either case of a capital has it as its upper case. -/
theorem upperChar_of_toLower_eq {c d : Char} (hd : isCapital d) (h : c.toLower = d.toLower) :
    upperChar c = [d] := by
  have hnat := toNat_of_toLower_eq hd h
  simp only [isCapital, Bool.and_eq_true, decide_eq_true_eq] at hd
  have hupper : c.toUpper.toNat = d.toNat := by
    rw [toNat_toUpper]
    split <;> omega
  have hascii : c.toNat < 0x80 := by omega
  rw [upperChar, if_pos hascii, Char.ext (UInt32.toNat_inj.mp hupper)]

/-- Any mix of cases of a text in capitals has that text as its upper case. -/
theorem upper_of_map_toLower_eq {cs ds : List Char} (hds : ∀ d ∈ ds, isCapital d)
    (h : cs.map Char.toLower = ds.map Char.toLower) : upper cs = ds := by
  induction ds generalizing cs with
  | nil =>
    rw [List.map_eq_nil_iff.mp h]
    rfl
  | cons d ds ih =>
    obtain ⟨hd, hds⟩ := List.forall_mem_cons.mp hds
    obtain ⟨c, cs, rfl, hc, hcs⟩ := List.map_eq_cons_iff.mp h
    rw [upper, List.flatMap_cons, upperChar_of_toLower_eq hd hc, ← upper, ih hds hcs,
      List.singleton_append]

/-! ## Texts -/

/-- A character is its own upper case, or its upper case is settled. -/
theorem upperChar_spec (c : Char) : upperChar c = [c] ∨ ∀ d ∈ upperChar c, IsSettled d := by
  unfold upperChar
  split
  · by_cases hlower : 97 ≤ c.toNat ∧ c.toNat ≤ 122
    · right
      intro d hd
      rw [List.mem_singleton.mp hd]
      have hcapital : isCapital c.toUpper := isCapital_toUpper ⟨by omega, hlower.2⟩
      refine ⟨upperChar_of_isCapital hcapital, isBlank_of_isCapital hcapital, ?_⟩
      intro hcolon
      have hnat : c.toUpper.toNat = 58 := congrArg Char.toNat hcolon
      rw [toNat_toUpper, if_pos hlower] at hnat
      omega
    · left
      have hsame : c.toUpper.toNat = c.toNat := by rw [toNat_toUpper, if_neg hlower]
      rw [Char.ext (UInt32.toNat_inj.mp hsame)]
  · exact upperWide_spec c

theorem toList_uppered (s : String) : (uppered s).toList = upper s.toList :=
  String.toList_ofList

/-- What is in the upper case of a text is its own upper case, and is in the text already or neither
a blank nor a colon. -/
theorem mem_upper {cs : List Char} {d : Char} (h : d ∈ upper cs) :
    upperChar d = [d] ∧ (d ∈ cs ∨ isBlank d = false ∧ d ≠ ':') := by
  obtain ⟨c, hc, hd⟩ := List.mem_flatMap.mp h
  rcases upperChar_spec c with hself | hsettled
  · rw [hself, List.mem_singleton] at hd
    subst hd
    exact ⟨hself, .inl hc⟩
  · exact ⟨(hsettled d hd).1, .inr (hsettled d hd).2⟩

/-- **Upper-casing twice is upper-casing once.** -/
theorem upper_upper (cs : List Char) : upper (upper cs) = upper cs :=
  upper_eq_self fun _ hd => (mem_upper hd).1

/-- Upper-casing makes no blanks. -/
theorem isBlank_of_mem_upper {cs : List Char} (h : ∀ c ∈ cs, isBlank c = false) :
    ∀ d ∈ upper cs, isBlank d = false := by
  intro d hd
  rcases (mem_upper hd).2 with hmem | ⟨hblank, -⟩
  · exact h d hmem
  · exact hblank

/-- Upper-casing makes no colons. -/
theorem colon_not_mem_upper {cs : List Char} (h : ':' ∉ cs) : ':' ∉ upper cs := by
  intro hd
  rcases (mem_upper hd).2 with hmem | ⟨-, hcolon⟩
  · exact h hmem
  · exact hcolon rfl

/-- Upper-casing loses no character. -/
theorem upperChar_ne_nil (c : Char) : upperChar c ≠ [] := by
  have hsequences : ∀ e ∈ upperSequences, e.2 ≠ [] := by decide
  unfold upperChar
  split
  · simp
  · unfold upperWide
    split
    · next hfind => simpa using hsequences _ (List.mem_of_find?_eq_some hfind)
    · split <;> simp

theorem upper_ne_nil {cs : List Char} (h : cs ≠ []) : upper cs ≠ [] := by
  obtain ⟨c, cs, rfl⟩ := List.exists_cons_of_ne_nil h
  rw [upper, List.flatMap_cons]
  simp [upperChar_ne_nil]

/-- The upper case of pieces with spaces between them is that of the pieces. -/
theorem upper_join (pieces : List (List Char)) :
    upper (join [' '] pieces) = join [' '] (pieces.map upper) := by
  unfold join
  induction pieces with
  | nil => rfl
  | cons w ws ih =>
    cases ws with
    | nil => simp
    | cons u us =>
      rw [List.intercalate_cons_cons, List.map_cons, List.map_cons, List.intercalate_cons_cons,
        ← List.map_cons, ← ih, upper, List.flatMap_append, List.flatMap_append]
      rfl

end BattleScript.Text
