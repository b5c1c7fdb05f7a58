import BattleScript.Proofs.Text.Collapse
import BattleScript.Proofs.Text.Scan
import BattleScript.Script.Operand

/-!
# Integers at the start of a text

An integer argument is read from the start of its text, and anything may follow it. What such a text
looks like is said by `Text.OpensWithInteger`: blanks, at most one sign, and digits as far as there
are any. Two facts carry the rest. A text that opens with an integer is read as that integer if it
fits the range, and else not at all, however many digits it has (`Text.leadingInt?_append`); and
whatever is read, the text opens with it (`Text.exists_of_leadingInt?`).
-/

namespace BattleScript

namespace Text

/-- An integer as it is written: digits, perhaps with one sign in front of them. -/
inductive IsInteger : List Char → Int → Prop
  | unsigned {ds : List Char} {n : Nat} (h : IsDigits ds n) : IsInteger ds n
  | plus {ds : List Char} {n : Nat} (h : IsDigits ds n) : IsInteger ('+' :: ds) n
  | minus {ds : List Char} {n : Nat} (h : IsDigits ds n) : IsInteger ('-' :: ds) (-n)

/-- After blanks, the text begins with an integer that has no more digits to come. -/
def OpensWithInteger (cs : List Char) (x : Int) : Prop :=
  ∃ blanks number rest, cs = blanks ++ (number ++ rest) ∧ (∀ c ∈ blanks, isBlank c) ∧
    IsInteger number x ∧ ∀ c ∈ rest.head?, c.isDigit = false

variable {cs ds number rest : List Char} {n : Nat} {x : Int}

/-! ## Reading what is written -/

theorem IsDigits.exists_cons (h : IsDigits ds n) : ∃ d es, ds = d :: es ∧ d.isDigit := by
  obtain ⟨d, es, rfl⟩ := List.exists_cons_of_ne_nil h.nonempty
  exact ⟨d, es, rfl, h.digits d List.mem_cons_self⟩

/-- Digits are no sign. -/
theorem splitSign_digits (h : IsDigits ds n) (rest : List Char) :
    splitSign (ds ++ rest) = (false, ds ++ rest) := by
  obtain ⟨d, es, rfl, hd⟩ := h.exists_cons
  unfold splitSign
  split
  · next hminus => cases hminus; cases hd
  · next hplus => cases hplus; cases hd
  · rfl

/-- No integer begins with a blank. -/
theorem IsInteger.head (h : IsInteger number x) : number.head?.any fun c => !isBlank c := by
  cases h with
  | unsigned h =>
    obtain ⟨d, es, rfl, hd⟩ := h.exists_cons
    simpa using isBlank_of_isDigit hd
  | plus | minus => rfl

/-- Once the sign is off, the digits decide. -/
theorem leadingInt?_of_splitSign {negative : Bool} (hsplit : splitSign cs = (negative, ds ++ rest))
    (hds : IsDigits ds n) (hrest : ∀ c ∈ rest.head?, c.isDigit = false) :
    leadingInt? cs = signedInt32? negative n := by
  rw [leadingInt?, hsplit, takeWhile_append_of_head hds.digits hrest,
    readNat?_eq_some_iff.mpr hds, Option.bind_some]

/-- An integer is read as itself if it fits the range, and else not at all. -/
theorem leadingInt?_append (h : IsInteger number x) (hrest : ∀ c ∈ rest.head?, c.isDigit = false) :
    leadingInt? (number ++ rest) = if FitsInt32 x then some x else none := by
  cases h with
  | unsigned hds => exact leadingInt?_of_splitSign (splitSign_digits hds rest) hds hrest
  | @plus ds n hds =>
    have hsplit : splitSign ('+' :: ds ++ rest) = (false, ds ++ rest) := rfl
    exact leadingInt?_of_splitSign hsplit hds hrest
  | @minus ds n hds =>
    have hsplit : splitSign ('-' :: ds ++ rest) = (true, ds ++ rest) := rfl
    exact leadingInt?_of_splitSign hsplit hds hrest

/-- A text that opens with an integer is read as it, unless it is out of range. -/
theorem OpensWithInteger.leadingInt?_eq (h : OpensWithInteger cs x) :
    leadingInt? (trimStart cs) = if FitsInt32 x then some x else none := by
  obtain ⟨blanks, number, rest, rfl, hblanks, hnumber, hrest⟩ := h
  rw [trimStart_blanks_append hblanks, trimStart_append hnumber.head,
    leadingInt?_append hnumber hrest]

/-! ## What was read is written -/

/-- The sign that was split off stands in front of the rest, or there is none. -/
theorem isInteger_of_splitSign (hds : IsDigits ds n) (hsplit : (splitSign cs).2 = ds ++ rest) :
    ∃ number, cs = number ++ rest ∧ IsInteger number (if (splitSign cs).1 then -n else n) := by
  unfold splitSign at hsplit ⊢
  split at hsplit
  · exact ⟨'-' :: ds, by rw [List.cons_append, ← hsplit], .minus hds⟩
  · exact ⟨'+' :: ds, by rw [List.cons_append, ← hsplit], .plus hds⟩
  · exact ⟨ds, hsplit, .unsigned hds⟩

/-- Whatever integer is read, the text begins with it. -/
theorem exists_of_leadingInt? (h : leadingInt? cs = some x) :
    ∃ number rest, cs = number ++ rest ∧ IsInteger number x ∧
      ∀ c ∈ rest.head?, c.isDigit = false := by
  obtain ⟨n, hread, hvalue⟩ := Option.bind_eq_some_iff.mp h
  -- behind the sign stand the digits that were read, and after them what begins with none
  have hbody := (List.takeWhile_append_dropWhile (p := Char.isDigit) (l := (splitSign cs).2)).symm
  obtain ⟨number, hcs, hnumber⟩ := isInteger_of_splitSign (readNat?_eq_some_iff.mp hread) hbody
  have hx := Option.some.inj (Option.ite_none_right_eq_some.mp hvalue).2
  exact ⟨number, _, hcs, hx ▸ hnumber, fun c hc => head_dropWhile hc⟩

/-! ## The text of an integer -/

/-- An integer is written with a minus sign or none. -/
theorem isInteger_toString (x : Int) : IsInteger (toString x).toList x := by
  cases x with
  | ofNat n =>
    have htext : (toString (Int.ofNat n)).toList = Nat.toDigits 10 n := toList_toString n
    rw [htext]
    exact .unsigned (isDigits_toDigits n)
  | negSucc n =>
    have htext : (toString (Int.negSucc n)).toList = '-' :: Nat.toDigits 10 (n + 1) := by
      show ("-" ++ toString (n + 1)).toList = '-' :: Nat.toDigits 10 (n + 1)
      rw [String.toList_append, toList_toString]
      rfl
    rw [htext]
    exact .minus (isDigits_toDigits (n + 1))

/-- What follows must not go on with a digit. -/
theorem opensWithInteger_toString (x : Int) {rest : String}
    (hrest : ∀ c ∈ rest.toList.head?, c.isDigit = false) :
    OpensWithInteger (toString x ++ rest).toList x :=
  ⟨[], (toString x).toList, rest.toList, String.toList_append, by simp, isInteger_toString x, hrest⟩

end Text

namespace Operand

open Text

/-- A text that opens with an integer is read as that integer if it fits, and else not at all. -/
theorem int?_of_opens {s : String} {x : Int} (h : OpensWithInteger s.toList x) :
    int? s = if FitsInt32 x then some x else none :=
  h.leadingInt?_eq

/-- Whatever is read, the text opens with it. -/
theorem opensWithInteger_of_int? {s : String} {x : Int} (h : int? s = some x) :
    OpensWithInteger s.toList x := by
  obtain ⟨number, rest, hcs, hnumber, hrest⟩ := exists_of_leadingInt? h
  obtain ⟨blanks, hblanks, hstart⟩ := exists_append_trimStart s.toList
  exact ⟨blanks, number, rest, by rw [← hcs, hstart], hblanks, hnumber, hrest⟩

/-- What is read is what the text opens with, if it fits. -/
theorem int?_eq_some_iff {s : String} {x : Int} :
    int? s = some x ↔ OpensWithInteger s.toList x ∧ FitsInt32 x := by
  constructor
  · intro h
    exact ⟨opensWithInteger_of_int? h, fitsInt32_of_leadingInt? h⟩
  · rintro ⟨hopens, hfits⟩
    rw [int?_of_opens hopens, if_pos hfits]

/-- **An integer is read from the start of its text.** What is read is an integer of 32 bits that
the text opens with: after blanks, at most one sign and as many digits as there are, whatever comes
after them. So the decimal text of such an integer is read back, unless more digits follow, and if
the digits say a number out of range, however many they are, nothing is read. -/
theorem int?_reads_opening :
    (∀ (s : String) (x : Int), int? s = some x ↔ OpensWithInteger s.toList x ∧ FitsInt32 x) ∧
    (∀ (x : Int) (rest : String), FitsInt32 x → (∀ c ∈ rest.toList.head?, c.isDigit = false) →
      int? (toString x ++ rest) = some x) ∧
    ∀ (s : String) (x : Int), OpensWithInteger s.toList x → ¬ FitsInt32 x → int? s = none := by
  refine ⟨fun s x => int?_eq_some_iff, ?_, ?_⟩
  · intro x rest hfits hrest
    rw [int?_of_opens (opensWithInteger_toString x hrest), if_pos hfits]
  · intro s x hopens hfits
    rw [int?_of_opens hopens, if_neg hfits]

/-- A negative number with a word after it, the least integer in front of a digit of another script,
and twenty digits after a plus sign. -/
theorem int?_reads_opening_of_three :
    int? " -12 frames" = some (-12) ∧
    (FitsInt32 int32Min ∧ int? (toString int32Min ++ "٣") = some int32Min) ∧
    OpensWithInteger "\t+99999999999999999999%".toList 99999999999999999999 ∧
      ¬ FitsInt32 99999999999999999999 ∧ int? "\t+99999999999999999999%" = none := by
  have hframes : OpensWithInteger " -12 frames".toList (-12) :=
    ⟨[' '], "-12".toList, " frames".toList, by decide, by decide,
      .minus (n := 12) (by decide), by decide⟩
  -- written far beyond the range, the integer is still found, and not taken
  have hlong : OpensWithInteger "\t+99999999999999999999%".toList 99999999999999999999 :=
    ⟨['\t'], "+99999999999999999999".toList, ['%'], by decide, by decide,
      .plus (n := 99999999999999999999) (by decide), by decide⟩
  obtain ⟨hread, hback, hrange⟩ := int?_reads_opening
  exact ⟨(hread _ _).mpr ⟨hframes, by decide⟩,
    ⟨by decide, hback _ _ (by decide) (by decide)⟩,
    hlong, by decide, hrange _ _ hlong (by decide)⟩

end Operand

end BattleScript
