import BattleScript.Text.Blank
import BattleScript.Text.UpperTable

/-!
# Letter case

Three notions of "ignoring case" meet in scripts and notes, and they differ beyond ASCII.

* `upper` is the full Unicode upper case, which may lengthen a text (`ß` becomes `SS`). Opcode names
  and keywords are compared after it, so `ﬁnish` and `FINISH` are the same word.
* `sameAscii` ignores the case of ASCII letters only.
* `foldsTo` is simple case folding towards an ASCII letter, which is how note tags are recognised:
  the long s folds to `s` and the Kelvin sign to `k`.
-/

namespace BattleScript.Text

/-- The upper case of a character beyond ASCII. -/
def upperWide (c : Char) : List Char :=
  match upperSequences.find? (·.1 == c.toNat) with
  | some (_, cs) => cs.map Char.ofNat
  | none =>
    match upperRuns.find? fun (first, last, step, _) =>
        first ≤ c.toNat && c.toNat ≤ last && (c.toNat - first) % step == 0 with
    | some (_, _, _, shift) => [Char.ofNat (c.toNat + shift).toNat]
    | none => [c]

/-- The full upper case of a character. -/
def upperChar (c : Char) : List Char := if c.toNat < 0x80 then [c.toUpper] else upperWide c

/-- The full upper case of a text, character by character. -/
def upper (cs : List Char) : List Char := cs.flatMap upperChar

/-- A text whose characters are their own upper case is its own upper case. -/
theorem upper_eq_self {cs : List Char} (h : ∀ c ∈ cs, upperChar c = [c]) : upper cs = cs := by
  induction cs with
  | nil => rfl
  | cons c cs ih =>
    obtain ⟨hc, hcs⟩ := List.forall_mem_cons.mp h
    rw [upper, List.flatMap_cons, hc, ← upper, ih hcs, List.singleton_append]

/-- Whether the character is one of ASCII from the first that is no blank to the last before the
lower-case letters. -/
def isCapital (c : Char) : Bool := 33 ≤ c.toNat && c.toNat ≤ 96

/-- None of these characters is a blank. -/
theorem isBlank_of_isCapital {c : Char} (h : isCapital c) : isBlank c = false := by
  simp only [isCapital, Bool.and_eq_true, decide_eq_true_eq] at h
  simp only [isBlank, Bool.or_eq_false_iff, Bool.and_eq_false_iff, decide_eq_false_iff_not,
    beq_eq_false_iff_ne]
  omega

/-- Such a character is its own upper case. -/
theorem upperChar_of_isCapital {c : Char} (h : isCapital c) : upperChar c = [c] := by
  simp only [isCapital, Bool.and_eq_true, decide_eq_true_eq] at h
  have hsmall : c.toNat < 0x80 := by omega
  have hnotLower : ¬ ('a'.val ≤ c.val ∧ c.val ≤ 'z'.val) := by
    rw [UInt32.le_iff_toNat_le]
    have hval : c.val.toNat ≤ 96 := h.2
    have ha : 'a'.val.toNat = 97 := rfl
    omega
  have htoUpper : c.toUpper = c := dif_neg hnotLower
  rw [upperChar, if_pos hsmall, htoUpper]

/-- The upper case of a string. -/
def uppered (s : String) : String := String.ofList (upper s.toList)

/-- A keyword as it is compared: trimmed, in upper case. -/
def keyword (s : String) : String := String.ofList (upper (trim s.toList))

/-- The lower case of a character as far as it is ASCII: of all characters beyond ASCII only the
Kelvin sign has a lower case inside it. -/
def lowerAscii (c : Char) : Char := if c = '\u212A' then 'k' else c.toLower

/-- A keyword compared in lower case. Characters whose lower case lies beyond ASCII are left alone,
since no keyword holds one. -/
def lowerKeyword (s : String) : String := String.ofList ((trim s.toList).map lowerAscii)

/-- Equality up to the case of ASCII letters. -/
def sameAscii (s t : String) : Bool := s.toList.map Char.toLower == t.toList.map Char.toLower

/-- Simple case folding of `c` gives the lower-case ASCII character `l`. -/
def foldsTo (l c : Char) : Bool :=
  c.toLower == l || (l == 's' && c == '\u017F') || (l == 'k' && c == '\u212A')

end BattleScript.Text
