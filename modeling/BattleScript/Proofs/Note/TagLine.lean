import BattleScript.Proofs.Note.Writing
import BattleScript.Proofs.Text.Scan

/-!
# Lines with one tag

Tags are searched for anywhere in a line. A line that was written for a tag (`TagLine`) has one
bracket only, at its start, so it is enough to look there: the pattern of the tag goes on from its
name (`TagLine.search_eq`), and the name of any other tag clashes with that name
(`TagLine.missing`). Nor does such a line open a block (`TagLine.openingTag?_eq_none`).

The numbers in tags are decimal numerals, which the recognisers of numerals take whole.
-/

namespace BattleScript

open Text

/-! ## Numerals -/

/-- The sign of a numeral that was written with or without one. -/
def writtenSign (signed : Bool) (n : Int) : Option Bool := if signed then some (n < 0) else none

/-- A written number is its sign, if it gets one, and the digits of its absolute value. -/
theorem toList_numeralText (signed : Bool) (n : Int) :
    (numeralText signed n).toList =
      (if signed then if n < 0 then ['-'] else ['+'] else []) ++ Nat.toDigits 10 n.natAbs := by
  rw [numeralText, String.toList_append, toList_toString]
  split
  · split <;> rfl
  · rfl

/-- A numeral begins with no blank. -/
theorem trimStart_toDigits (n : Nat) (cs : List Char) :
    trimStart (Nat.toDigits 10 n ++ cs) = Nat.toDigits 10 n ++ cs := by
  obtain ⟨d, ds, hds⟩ := List.exists_cons_of_ne_nil (@Nat.toDigits_ne_nil n 10)
  have hd : isBlank d = false :=
    isBlank_of_isDigit (isDigit_of_mem_toDigits (hds ▸ List.mem_cons_self))
  rw [hds]
  exact trimStart_cons hd

/-- There are no blanks in front of a written number. -/
theorem trimStart_numeral (signed : Bool) (n : Int) (cs : List Char) :
    trimStart ((numeralText signed n).toList ++ cs) = (numeralText signed n).toList ++ cs := by
  rw [toList_numeralText]
  split
  · split <;> exact trimStart_cons rfl
  · exact trimStart_toDigits n.natAbs cs

/-- Digits are taken as far as they go. -/
theorem digits_toDigits (n : Nat) {cs : List Char} (hcs : ∀ c ∈ cs.head?, isDigit c = false) :
    digits (Nat.toDigits 10 n ++ cs) = some (Nat.toDigits 10 n, cs) :=
  digits_append Nat.toDigits_ne_nil (fun _ hd => isDigit_of_mem_toDigits hd) hcs

/-- What follows a numeral in a tag is its end. -/
theorem isDigit_head_end (c : Char) (h : c ∈ ['>'].head?) : isDigit c = false := by
  cases h
  decide

/-- The sign of a written numeral is read as such. -/
theorem sign_numeral (signed : Bool) (n : Int) (cs : List Char) :
    sign ((numeralText signed n).toList ++ cs) =
      (writtenSign signed n, Nat.toDigits 10 n.natAbs ++ cs) := by
  rw [toList_numeralText]
  cases signed with
  | true => by_cases h : n < 0 <;> simp [h, sign, writtenSign]
  | false =>
    -- a number without a sign begins with a digit, which is none
    obtain ⟨d, ds, hds⟩ := List.exists_cons_of_ne_nil (@Nat.toDigits_ne_nil n.natAbs 10)
    have hd : d.isDigit := isDigit_of_mem_toDigits (hds ▸ List.mem_cons_self)
    rw [hds]
    simp only [writtenSign, Bool.false_eq_true, if_false, List.nil_append, List.cons_append]
    unfold sign
    split
    · next h => cases h; cases hd
    · next h => cases h; cases hd
    · rfl

/-- A number that fits is read from its digits. -/
theorem nat32?_toDigits {n : Nat} (h : n ≤ nat32Max) : nat32? (Nat.toDigits 10 n) = some n := by
  simp [nat32?, readNat?_toDigits, h]

/-- So is a cost that fits. -/
theorem magnitude?_toDigits {n : Nat} (h : (n : Int) ≤ int32Max) :
    CooldownTag.magnitude? (Nat.toDigits 10 n) = some (n : Int) := by
  have hfits : FitsInt32 n := ⟨by simp only [int32Min]; omega, h⟩
  simp [CooldownTag.magnitude?, readNat?_toDigits, signedInt32?, hfits]

/-! ## Names -/

/-- The names of all tags that are searched for. -/
def tagNames : List String :=
  ["<action copy:", "<cooldown:", "<after battle cooldown:", "<cooldown steps:", "<warmup:",
    "<skill", "<stype", "<global cooldown:", "<bypass cooldown"]

variable {name : String}

/-- The names of tags begin with a bracket and have no second one and no line break. -/
theorem toList_of_mem_tagNames :
    ∀ a ∈ tagNames, a.toList.head? = some '<' ∧ '<' ∉ a.toList.tail ∧ '\n' ∉ a.toList := by
  decide

/-- They are in lower case. -/
theorem isLower_of_mem_tagNames : ∀ a ∈ tagNames, isLower a.toList := by
  decide +kernel

/-- No name is the start of another. -/
theorem clash_of_mem_tagNames :
    ∀ a ∈ tagNames, ∀ b ∈ tagNames, a ≠ b → clash a.toList b.toList := by
  decide +kernel

/-- No name begins like the tag of a block. -/
theorem clash_phase_of_mem_tagNames :
    ∀ a ∈ tagNames, (a.toList.tail.head?.any fun c => !isBlank c) ∧
      ∀ p ∈ Phase.all, clash p.tag.toList a.toList.tail := by
  decide +kernel

theorem exists_of_mem_tagNames (h : name ∈ tagNames) : ∃ cs, name.toList = '<' :: cs := by
  exact List.head?_eq_some_iff.mp (toList_of_mem_tagNames name h).1

/-- Where there is no bracket there is no tag. -/
theorem after_tagName_of_noBracket (hname : name ∈ tagNames) {cs : List Char} (h : NoBracket cs) :
    after name cs = none :=
  after_of_noBracket (toList_of_mem_tagNames name hname).1 h

/-! ## Lines -/

/-- Whether the character may stand behind the name of a tag. -/
def inTag (c : Char) : Bool := c.isAlphanum || " +-:>".toList.contains c

/-- The digits of a number may stand in a tag. -/
theorem all_inTag_toDigits (n : Nat) : (Nat.toDigits 10 n).all inTag := by
  rw [List.all_eq_true]
  intro c hc
  simp [inTag, Char.isAlphanum, isDigit_of_mem_toDigits hc]

/-- So may its sign. -/
theorem all_inTag_numeralText (signed : Bool) (n : Int) :
    (numeralText signed n).toList.all inTag := by
  rw [toList_numeralText, List.all_append, all_inTag_toDigits, Bool.and_true]
  cases signed with
  | false => rfl
  | true => by_cases hn : n < 0 <;> simp only [hn, if_true, if_false] <;> decide

/-- A line that holds one tag, from its start to its end: the name, and what follows it. -/
structure TagLine (name : String) (body : List Char) : Prop where
  known : name ∈ tagNames
  plain : body.all inTag
  ends : body.getLast? = some '>'

namespace TagLine

variable {body : List Char}

/-- There is only one bracket, at the start. -/
theorem bracket_not_mem (h : TagLine name body) : '<' ∉ (name.toList ++ body).tail := by
  obtain ⟨-, htail, -⟩ := toList_of_mem_tagNames name h.known
  obtain ⟨cs, hname⟩ := exists_of_mem_tagNames h.known
  have hbody : '<' ∉ body := by
    intro hmem
    have hin : inTag '<' := List.all_eq_true.mp h.plain _ hmem
    cases hin
  rw [hname] at htail ⊢
  simpa using ⟨htail, hbody⟩

/-- A line is a single line. -/
theorem newline_not_mem (h : TagLine name body) : '\n' ∉ name.toList ++ body := by
  obtain ⟨-, -, hname⟩ := toList_of_mem_tagNames name h.known
  have hbody : '\n' ∉ body := by
    intro hmem
    have hin : inTag '\n' := List.all_eq_true.mp h.plain _ hmem
    cases hin
  simpa using ⟨hname, hbody⟩

/-- The names of the other tags are at no place of the line. -/
theorem missing (h : TagLine name body) {other : String}
    (hother : other ∈ tagNames ∧ other ≠ name) : Missing other (name.toList ++ body) :=
  missing_of_clash (toList_of_mem_tagNames other hother.1).1
    (clash_of_mem_tagNames other hother.1 name h.known hother.2) h.bracket_not_mem

/-- What is recognised after a bracket only is searched for at the start. -/
theorem search_eq {β : Type} {recognise : List Char → Option β} (h : TagLine name body)
    (hrecognise : ∀ t, NoBracket t → recognise t = none) :
    search recognise (name.toList ++ body) = recognise (name.toList ++ body) := by
  obtain ⟨cs, hname⟩ := exists_of_mem_tagNames h.known
  have htail := h.bracket_not_mem
  rw [hname, List.cons_append] at *
  exact search_bracket hrecognise htail

/-- A line with a tag is trimmed: it begins with a bracket and ends with one. -/
theorem trim_eq (h : TagLine name body) : trim (name.toList ++ body) = name.toList ++ body := by
  obtain ⟨cs, hname⟩ := exists_of_mem_tagNames h.known
  obtain ⟨front, hbody⟩ := List.getLast?_eq_some_iff.mp h.ends
  rw [hname, hbody, ← List.append_assoc, List.cons_append]
  exact trim_eq_self (by decide) (by decide)

/-- The line opens no block. -/
theorem openingTag?_eq_none (h : TagLine name body) :
    openingTag? (name.toList ++ body) = none := by
  obtain ⟨cs, hname⟩ := exists_of_mem_tagNames h.known
  obtain ⟨hblank, hclash⟩ := clash_phase_of_mem_tagNames name h.known
  rw [hname, List.tail_cons] at hblank hclash
  have hafter : after "<" (name.toList ++ body) = some (cs ++ body) := by
    rw [hname]
    exact (after_append (by decide) (cs ++ body) : after "<" ("<".toList ++ (cs ++ body)) = _)
  have htrim : trimStart (cs ++ body) = cs ++ body := trimStart_append hblank
  -- no phase is a word that the name goes on with
  have hphase : phaseWord? (cs ++ body) = none := by
    rw [phaseWord?, List.findSome?_eq_none_iff]
    intro p hp
    rw [after, afterWord_eq_none (hclash p hp)]
    rfl
  rw [openingTag?, phaseTag?, hafter, Option.bind_eq_bind, Option.bind_some, htrim, hphase]
  rfl

end TagLine

end BattleScript
