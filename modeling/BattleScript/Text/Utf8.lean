/-!
# Decoding UTF-8

Bytes become characters by the decoder of the WHATWG encoding standard: a well-formed sequence
gives its character, and each maximal ill-formed piece gives one replacement character. The
decoder reads one byte at a time. Inside a sequence it knows how many bytes are still to come and
in which interval the next one must lie; a byte outside the interval ends the piece and is then
read again as the start of something new.
-/

namespace BattleScript.Text.Utf8

/-- What stands for an ill-formed piece. -/
def replacement : Char := '\uFFFD'

/-- A sequence that has begun: the bits read so far, the number of bytes still to come and the
interval that the next one must lie in. -/
structure Partial where
  bits : Nat
  needed : Nat
  lower : UInt8
  upper : UInt8
  deriving DecidableEq

/-- Reads a byte where a character may start. -/
def start (b : UInt8) : List Char × Option Partial :=
  if b < 0x80 then ([Char.ofNat b.toNat], none)
  else if b < 0xC2 then ([replacement], none)
  else if b < 0xE0 then ([], some ⟨b.toNat - 0xC0, 1, 0x80, 0xBF⟩)
  else if b < 0xF0 then
    ([], some ⟨b.toNat - 0xE0, 2, if b = 0xE0 then 0xA0 else 0x80, if b = 0xED then 0x9F else 0xBF⟩)
  else if b < 0xF5 then
    ([], some ⟨b.toNat - 0xF0, 3, if b = 0xF0 then 0x90 else 0x80, if b = 0xF4 then 0x8F else 0xBF⟩)
  else ([replacement], none)

/-- Reads one byte. -/
def step : Option Partial → UInt8 → List Char × Option Partial
  | none, b => start b
  | some p, b =>
    if p.lower ≤ b ∧ b ≤ p.upper then
      let bits := p.bits * 64 + (b.toNat - 0x80)
      if p.needed ≤ 1 then ([Char.ofNat bits], none)
      else ([], some ⟨bits, p.needed - 1, 0x80, 0xBF⟩)
    else
      let (cs, next) := start b
      (replacement :: cs, next)

/-- The characters of the bytes, given what has begun before them. -/
def decodeFrom : Option Partial → List UInt8 → List Char
  | none, [] => []
  | some _, [] => [replacement]
  | state, b :: bs => (step state b).1 ++ decodeFrom (step state b).2 bs

/-- The characters of the bytes. A byte order mark at the very start is dropped. -/
def decode : List UInt8 → List Char
  | 0xEF :: 0xBB :: 0xBF :: bs => decodeFrom none bs
  | bs => decodeFrom none bs

/-- The characters of a text without a byte order mark at the very start. -/
def dropMark : List Char → List Char
  | '\uFEFF' :: cs => cs
  | cs => cs

end BattleScript.Text.Utf8
