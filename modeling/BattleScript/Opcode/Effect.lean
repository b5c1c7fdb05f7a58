import BattleScript.Action.Pack
import BattleScript.Script.Amount
import BattleScript.Script.Operand

/-!
# Effect commands

Commands with consequences: buffs, states and pools of battlers, switches, variables and the
inventory, common events, animations and sound. This module reads them; `Opcode.EffectRun` runs
them.

The operands of many of these commands stand in the name, as in `CHANGE SWITCH 3..5: on`. A name
with an operand out of range is no effect command, unless said otherwise.
-/

namespace BattleScript

/-- What happens to the buff of a parameter. -/
inductive BuffChange
  | raise
  | lower
  /-- Ends a buff, but no debuff. -/
  | endBuff
  /-- Ends a debuff, but no buff. -/
  | endDebuff
  deriving DecidableEq, Repr

/-- What happens to a switch. -/
inductive SwitchChange
  | set (on : Bool)
  | toggle
  | copyFrom (id : Nat)
  deriving DecidableEq, Repr

/-- How a variable and an operand are combined. -/
inductive Operator
  | set
  | add
  | sub
  | mul
  | div
  | rem
  deriving DecidableEq, Repr

namespace Operator

/-- Reads an operator. -/
def ofString? : String → Option Operator
  | "=" => some .set
  | "+=" | "+" => some .add
  | "-=" | "-" => some .sub
  | "*=" | "*" => some .mul
  | "/=" | "/" => some .div
  | "%=" | "%" => some .rem
  | _ => none

/-- The new value of a variable, within the signed 32-bit range; nothing for a division that is not
defined. A quotient is rounded down. A remainder has the sign of the variable, and is not defined
where the quotient of the same numbers would leave the range. -/
def apply (o : Operator) (current operand : Int) : Option Int :=
  match o with
  | .set => some operand
  | .add => some (saturate (current + operand))
  | .sub => some (saturate (current - operand))
  | .mul => some (saturate (current * operand))
  | .div =>
    if operand = 0 then none
    else some (saturate (Double.ofInt current / Double.ofInt operand).floor)
  | .rem =>
    if operand = 0 ∨ (current = int32Min ∧ operand = -1) then none
    else some (Int.tmod current operand)

end Operator

/-- What a variable is combined with. -/
inductive Operand.Source
  | literal (value : Int)
  | stored (id : Nat)
  deriving DecidableEq, Repr

/-- What a channel is told. -/
inductive Cue
  | stop
  | memorize
  | replay
  | system (sound : SystemSound)
  | play (name : String) (volume pitch pan : Option Int)
  deriving DecidableEq, Repr

/-- An effect command. -/
inductive EffectOp
  | buff (change : BuffChange) (param : Option Param) (target : Option String) (turns : Nat)
      (report : Bool)
  | state (add : Bool) (states : List Nat) (target : Option String) (report : Bool)
  | animation (animationId : Nat) (target : Option String) (mirror : Bool)
  | audio (channel : Channel) (cue : Option Cue)
  | collapse (target : Option String) (force : Bool)
  | commonEvent (id : Option Nat)
  | switches (first last : Nat) (change : Option SwitchChange)
  | assign (id : Nat) (operator : Option Operator) (operand : Operand.Source)
  | gainItem (kind : ItemKind) (id : Nat) (amount : Int)
  | gold (amount : Int)
  | pool (pool : Pool) (amount : Option Amount) (target : Option String) (report : Bool)
  | refreshStatus
  deriving DecidableEq, Repr

/-- Words with one space between them. -/
def spaced (ws : List String) : String := " ".intercalate ws

/-- What the argument of a switch command asks for. -/
def SwitchChange.ofString? (s : String) : Option SwitchChange :=
  match Text.uppered s with
  | "ON" | "TRUE" => some (.set true)
  | "OFF" | "FALSE" => some (.set false)
  | "TOGGLE" | "OPPOSITE" | "REVERSE" => some .toggle
  | other => do
    let rest ← Text.afterExact "SWITCH".toList other.toList
    return .copyFrom (← Text.readUnsigned? (Text.trim rest))

/-- The numerals of a range: one, or two with `..`, `-`, `TO` or `THROUGH` between them. -/
def switchRange? (cs : List Char) : Option (List Char × Option (List Char)) := do
  let (first, rest) ← Text.digits cs
  if rest = [] then return (first, none)
  let body := Text.trimStart rest
  let after ← ["..", "-", "TO", "THROUGH"].findSome? fun w => Text.afterExact w.toList body
  let (last, rest) ← Text.digits (Text.trimStart after)
  guard (rest = [])
  return (first, some last)

/-- What the first argument of an audio command tells a channel. Only music can be memorised, sound
effects cannot be stopped, and only they have system sounds; what is no such word is the name of a
track. -/
def Cue.ofArgument (channel : Channel) (first : String) (c : Command) : Cue :=
  let word := Text.uppered first
  let music := channel = .bgm || channel = .bgs
  let system := if channel = .se then
      (Text.afterExact "PLAY ".toList word.toList).bind fun rest =>
        SystemSound.ofKeyword? (String.ofList rest)
    else none
  if word = "STOP" && channel ≠ .se then .stop
  else if word = "MEMORIZE" && music then .memorize
  else if word = "MEMORY" && music then .replay
  else match system with
    | some sound => .system sound
    | none =>
      let number i := (c.arg i).bind Operand.int?
      .play first (number 1) (number 2) (number 3)

namespace EffectOp

/-- `ADD` or `REMOVE`. -/
def isAdding? : String → Option Bool
  | "ADD" => some true
  | "REMOVE" => some false
  | _ => none

/-- The change that the outer words of a buff command name. -/
def buffChange? : Bool → String → Option BuffChange
  | true, "BUFF" => some .raise
  | true, "DEBUFF" => some .lower
  | false, "BUFF" => some .endBuff
  | false, "DEBUFF" => some .endDebuff
  | _, _ => none

/-- Reads `ADD … BUFF` and its kin. The words in between name the parameter. -/
def buff? (c : Command) : Option EffectOp :=
  match c.words with
  | first :: second :: rest => do
    let add ← isAdding? first
    let change ← buffChange? add (← rest.getLast?)
    let turns := match (c.arg 1).bind Operand.int? with
      | some n => if 0 < n then n.toNat else 5
      | none => 5
    return .buff change (Param.ofKeyword? (spaced (second :: rest.dropLast))) (c.arg 0) turns
      (c.hasFlag "SHOW")
  | _ => none

/-- Whether states are added or removed, and the words after that. -/
def stateWords? : List String → Option (Bool × List String)
  | "ADD" :: "STATE" :: ids | "ADD" :: "STATES" :: ids => some (true, ids)
  | "ADD_STATE" :: ids | "ADD_STATES" :: ids => some (true, ids)
  | "REMOVE" :: "STATE" :: ids | "REMOVE" :: "STATES" :: ids => some (false, ids)
  | "REMOVE_STATE" :: ids | "REMOVE_STATES" :: ids => some (false, ids)
  | _ => none

/-- Reads `ADD STATE n, …` and its kin. Numbers out of range are left out. -/
def state? (c : Command) : Option EffectOp := do
  let (add, ids) ← stateWords? c.words
  let numerals := (Text.splitOn (· == ',') (spaced ids).toList).map Text.trim
  guard (numerals.all fun n => n ≠ [] ∧ n.all Text.isDigit)
  return .state add (numerals.filterMap Text.nat32?) (c.arg 0) (c.hasFlag "SHOW")

/-- Reads `ANIMATION n`. A number out of range stands for no animation. -/
def animation? (c : Command) : Option EffectOp :=
  match c.words with
  | ["ANIMATION", n] => do
    let ds ← Text.numeralWord? n
    return .animation ((Text.nat32? ds).getD 0) (c.arg 0) (c.argIs 1 "MIRROR")
  | _ => none

/-- Reads `CHANGE SWITCH n` or a range of switches. An upper end out of range does not count. -/
def switches? (c : Command) : Option EffectOp :=
  match c.words with
  | "CHANGE" :: "SWITCH" :: range => do
    let (first, last) ← switchRange? (spaced range).toList
    let first ← Text.nat32? first
    let last := (last.bind Text.nat32?).getD first
    return .switches (min first last) (max first last) ((c.arg 0).bind SwitchChange.ofString?)
  | _ => none

/-- Reads the source of an operand. -/
def source? : List String → Option Operand.Source
  | ["VARIABLE", n] | ["VAR", n] => (Text.nat32? n.toList).map .stored
  | [n] => (Text.readSigned? n.toList).map .literal
  | _ => none

/-- Reads `CHANGE VARIABLE n += …`. -/
def assign? (c : Command) : Option EffectOp :=
  match c.words with
  | "CHANGE" :: w :: id :: operator :: operand => do
    guard (w = "VARIABLE" ∨ w = "VAR")
    return .assign (← Text.nat32? id.toList) (Operator.ofString? operator) (← source? operand)
  | _ => none

/-- The kind of thing that a word names. -/
def kindOfWord? : String → Option ItemKind
  | "ITEM" => some .item
  | "WPN" | "WEAPON" => some .weapon
  | "ARM" | "ARMOR" | "ARMOUR" => some .armor
  | _ => none

/-- The sign of the change that `GAIN` or `LOSE` means. -/
def gainSign? : String → Option Int
  | "GAIN" => some 1
  | "LOSE" => some (-1)
  | _ => none

/-- Reads `GAIN ITEM n` and its kin; the amount is at least one. -/
def gainItem? (c : Command) : Option EffectOp :=
  match c.words with
  | [verb, kind, n] => do
    let sign ← gainSign? verb
    let kind ← kindOfWord? kind
    let id ← Text.nat32? n.toList
    return .gainItem kind id (sign * max (((c.arg 0).bind Operand.int?).getD 1) 1)
  | _ => none

/-- Reads `GOLD +n`; the number may start in one script and end in another, and then counts up to
there. -/
def gold? (c : Command) : Option EffectOp :=
  match c.words with
  | ["GOLD", w] => do
    let (some _, ds) := Text.sign w.toList | none
    guard (ds ≠ [] ∧ ds.all Text.isDigit)
    return .gold (← Operand.int? w)
  | _ => none

/-- The pool that a word names. -/
def poolOfWord? : String → Option Pool
  | "HP" => some .hp
  | "MP" => some .mp
  | "TP" => some .tp
  | _ => none

/-- Reads `HP -25%` and its kin. An unreadable amount is none. -/
def pool? (c : Command) : Option EffectOp :=
  match c.words with
  | w :: second :: rest => do
    let pool ← poolOfWord? w
    return .pool pool (Amount.ofString? (spaced (second :: rest))) (c.arg 0) (c.hasFlag "SHOW")
  | _ => none

/-- Reads a channel and what it is told. -/
def audio? (c : Command) : Option EffectOp :=
  (Channel.ofKeyword? c.name).map fun channel =>
    .audio channel ((c.arg 0).map fun first => Cue.ofArgument channel first c)

/-- Reads a command whose name is a fixed phrase. -/
def phrase? (c : Command) : Option EffectOp :=
  match c.words with
  | ["COLLAPSE"] => some (.collapse (c.arg 0) (c.argIs 1 "FORCE"))
  | ["COMMON", "EVENT"] =>
    some (.commonEvent (((c.arg 0).bind Operand.int?).bind fun n =>
      if 0 ≤ n then some n.toNat else none))
  | ["REFRESH", "STATUS"] | ["REFRESH", "WINDOW"] => some .refreshStatus
  | _ => none

/-- Reads an effect command. No two of the forms overlap. -/
def ofCommand? (c : Command) : Option EffectOp :=
  buff? c <|> state? c <|> animation? c <|> switches? c <|> assign? c <|> gainItem? c <|> gold? c
    <|> pool? c <|> audio? c <|> phrase? c

end EffectOp

end BattleScript
