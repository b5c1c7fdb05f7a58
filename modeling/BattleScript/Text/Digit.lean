import BattleScript.Number.Range

/-!
# Digits and numerals

Patterns accept any decimal digit of Unicode (general category Nd), while numbers are read from
ASCII digits only: a numeral in another script is recognised as a numeral and then has no value.

* `isDigit` is the Unicode class; `Char.isDigit` the ASCII one.
* `readNat?`, `readUnsigned?` and `readSigned?` read a whole text; `leadingInt?` reads the longest
  numeral at its start.
-/

namespace BattleScript.Text

/-- The zeros of the decimal digit runs beyond ASCII; each is followed by its nine companions. -/
def digitZeros : List Nat :=
  [0x660, 0x6F0, 0x7C0, 0x966, 0x9E6, 0xA66, 0xAE6, 0xB66, 0xBE6, 0xC66, 0xCE6, 0xD66,
   0xDE6, 0xE50, 0xED0, 0xF20, 0x1040, 0x1090, 0x17E0, 0x1810, 0x1946, 0x19D0, 0x1A80,
   0x1A90, 0x1B50, 0x1BB0, 0x1C40, 0x1C50, 0xA620, 0xA8D0, 0xA900, 0xA9D0, 0xA9F0, 0xAA50,
   0xABF0, 0xFF10, 0x104A0, 0x10D30, 0x10D40, 0x11066, 0x110F0, 0x11136, 0x111D0, 0x112F0,
   0x11450, 0x114D0, 0x11650, 0x116C0, 0x116D0, 0x116DA, 0x11730, 0x118E0, 0x11950, 0x11BF0,
   0x11C50, 0x11D50, 0x11DA0, 0x11F50, 0x16130, 0x16A60, 0x16AC0, 0x16B50, 0x16D70, 0x1CCF0,
   0x1D7CE, 0x1D7D8, 0x1D7E2, 0x1D7EC, 0x1D7F6, 0x1E140, 0x1E2F0, 0x1E4F0, 0x1E5F1, 0x1E950,
   0x1FBF0]

/-- A decimal digit of any script. -/
def isDigit (c : Char) : Bool :=
  c.isDigit || (0x660 ≤ c.toNat && digitZeros.any fun z => z ≤ c.toNat && c.toNat < z + 10)

/-- The digits of ASCII are among those of Unicode. -/
theorem isDigit_of_ascii {c : Char} (h : c.isDigit = true) : isDigit c = true := by
  simp [isDigit, h]

/-- The number that a run of ASCII digits denotes. -/
def numeral (cs : List Char) : Nat := cs.foldl (fun n c => 10 * n + (c.toNat - 48)) 0

/-- Reads a nonempty text of ASCII digits. -/
def readNat? (cs : List Char) : Option Nat :=
  if cs ≠ [] ∧ cs.all Char.isDigit then some (numeral cs) else none

/-- Splits off a leading sign: `true` for a minus, `false` for a plus or no sign. -/
def splitSign : List Char → Bool × List Char
  | '-' :: cs => (true, cs)
  | '+' :: cs => (false, cs)
  | cs => (false, cs)

/-- Reads an unsigned 32-bit number: ASCII digits, with an optional plus in front. -/
def readUnsigned? (cs : List Char) : Option Nat :=
  (readNat? (match cs with | '+' :: r => r | _ => cs)).filter (· ≤ nat32Max)

/-- The integer with the given sign and magnitude, if it fits the signed 32-bit range. -/
def signedInt32? (negative : Bool) (n : Nat) : Option Int :=
  let x : Int := if negative then -n else n
  if FitsInt32 x then some x else none

/-- Whatever is read is a 32-bit number; a numeral that is out of range is not read. -/
theorem fitsInt32_of_signedInt32? {negative : Bool} {n : Nat} {x : Int}
    (h : signedInt32? negative n = some x) : FitsInt32 x := by
  simp only [signedInt32?, Option.ite_none_right_eq_some, Option.some.injEq] at h
  exact h.2 ▸ h.1

/-- Reads a signed 32-bit number: an optional sign and ASCII digits. -/
def readSigned? (cs : List Char) : Option Int :=
  (readNat? (splitSign cs).2).bind (signedInt32? (splitSign cs).1)

theorem fitsInt32_of_readSigned? {cs : List Char} {x : Int} (h : readSigned? cs = some x) :
    FitsInt32 x := by
  obtain ⟨n, -, hn⟩ := Option.bind_eq_some_iff.mp h
  exact fitsInt32_of_signedInt32? hn

/-- Reads the signed 32-bit number that the text starts with: an optional sign and the longest run
of ASCII digits after it. What follows the run does not matter. -/
def leadingInt? (cs : List Char) : Option Int :=
  (readNat? ((splitSign cs).2.takeWhile Char.isDigit)).bind (signedInt32? (splitSign cs).1)

theorem fitsInt32_of_leadingInt? {cs : List Char} {x : Int} (h : leadingInt? cs = some x) :
    FitsInt32 x := by
  obtain ⟨n, -, hn⟩ := Option.bind_eq_some_iff.mp h
  exact fitsInt32_of_signedInt32? hn

end BattleScript.Text
