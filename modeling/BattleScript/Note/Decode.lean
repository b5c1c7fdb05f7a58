import BattleScript.Note.Basic
import BattleScript.Text.Utf8

/-!
# Decoding notes

A note text is read line by line. Outside a block, a line may open the block of a phase, name the
entry to copy, or hold a cooldown tag; all else is prose. Inside a block every nonblank line belongs
to the script until the closing tag of the same phase, or to the end of the text if it never comes.

`Reader` is the state between two lines: the notes so far and the open block, if any.
-/

namespace BattleScript

open Text

/-- The phase that a word names, up to ASCII case. -/
def Phase.ofWord? (word : List Char) : Option Phase :=
  Phase.all.find? fun p => sameAscii p.tag (String.ofList word)

/-- The rest after the word of some phase, up to simple case folding, and that word as written. -/
def phaseWord? (cs : List Char) : Option (List Char × List Char) :=
  Phase.all.findSome? fun p =>
    (after p.tag cs).map fun rest => (cs.take (cs.length - rest.length), rest)

/-- The rest after blanks and the word `action`, or the text itself. -/
def skipAction (cs : List Char) : List Char := ((afterBlank cs).bind (after "action")).getD cs

/-- The phase of a tag that starts with `opening` and fills the line. A tag whose word is that of a
phase only by folding a letter from outside ASCII names none. -/
def phaseTag? (opening : String) (line : List Char) : Option Phase := do
  let (word, rest) ← phaseWord? (trimStart (← after opening line))
  guard (trimStart (skipAction rest) = ['>'])
  Phase.ofWord? word

/-- The phase that a line opens a block for. -/
def openingTag? (line : List Char) : Option Phase := phaseTag? "<" line

/-- The phase whose block a line closes. -/
def closingTag? (line : List Char) : Option Phase := phaseTag? "</" line

/-- The word for the kind of entry to copy, as written, and its numeral. -/
def copyTagAt? (cs : List Char) : Option (List Char × List Char) := do
  let body := trimStart (← after "<action copy:" cs)
  let rest ← (after "skill" body).or (after "item" body)
  let (ds, rest') ← digits (trimStart (← after ":" (trimStart rest)))
  guard ((trimStart rest').head? = some '>')
  return (body.take (body.length - rest.length), ds)

/-- The entry that a copy tag names; nothing if its number is out of range. Only the ASCII word
`skill` names a skill. -/
def copyTarget? (word ds : List Char) : Option ItemRef :=
  (nat32? ds).map fun id =>
    if sameAscii (String.ofList word) "skill" then .skill id else .item id

/-- The notes after a line outside of any block that opens none. -/
def Notes.remark (n : Notes) (line : List Char) : Notes :=
  match search copyTagAt? line with
  | some (word, ds) => { n with copy := (copyTarget? word ds).or n.copy }
  | none =>
    match CooldownTag.find? line with
    | some tag => { n with cooldown := n.cooldown.note tag }
    | none => n

/-- The notes so far and the open block: its phase and its lines. -/
structure Notes.Reader where
  notes : Notes := {}
  block : Option (Phase × Script) := none
  deriving DecidableEq, Repr

namespace Notes.Reader

/-- Reads one line. -/
def step (r : Reader) (line : List Char) : Reader :=
  let line := trim line
  match r.block with
  | some (p, lines) =>
    if closingTag? line = some p then ⟨r.notes.declare p lines, none⟩
    else if line = [] then r
    else { r with block := some (p, lines ++ [String.ofList line]) }
  | none =>
    match openingTag? line with
    | some p => { r with block := some (p, []) }
    | none => { r with notes := r.notes.remark line }

/-- The notes once the text has ended; an open block counts as closed. -/
def close (r : Reader) : Notes :=
  match r.block with
  | some (p, lines) => r.notes.declare p lines
  | none => r.notes

end Notes.Reader

/-- The notes that characters say. -/
def Notes.ofChars (cs : List Char) : Notes :=
  ((splitOn (· == '\n') cs).foldl Reader.step {}).close

/-- The notes that a text says. A byte order mark at its start does not count. -/
def Notes.ofString (s : String) : Notes := Notes.ofChars (Utf8.dropMark s.toList)

/-- Why notes could not be decoded. -/
inductive DecodeError
  /-- Their bytes could not be read to the end. -/
  | unreadable (cause : String)
  deriving DecidableEq, Repr

/-- How the error is told. -/
def DecodeError.message : DecodeError → String
  | .unreadable cause => "IO error: " ++ cause

/-- The notes that bytes say, unless reading them failed. -/
def Notes.ofBytes (bytes : List UInt8) (failure : Option String) : Except DecodeError Notes :=
  match failure with
  | some cause => .error (.unreadable cause)
  | none => .ok (Notes.ofChars (Utf8.decode bytes))

end BattleScript
