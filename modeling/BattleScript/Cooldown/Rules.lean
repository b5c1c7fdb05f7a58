import BattleScript.OrderedMap
import BattleScript.Text.Scan

/-!
# Cooldown rules

What the notes of a skill or item say about cooldowns, and the tags that say it. A tag may stand
anywhere in its line, and a line counts for at most one tag: the first kind, in the order of
`CooldownTag.find?`, that the line holds. A tag whose number is out of range is still that tag: it
clears an optional value, and is without effect where there is nothing to clear.
-/

namespace BattleScript

/-- The cooldown rules of a skill or item. -/
structure CooldownRules where
  /-- What using the skill costs itself. -/
  cooldown : Option Int := none
  /-- What using the skill costs other skills. -/
  skillCooldown : OrderedMap Nat Int := ∅
  /-- What using the skill costs the known skills of a type. -/
  stypeCooldown : OrderedMap Nat Int := ∅
  /-- What using the skill costs all known skills. -/
  globalCooldown : Int := 0
  /-- The warmup at the start of a battle. -/
  warmup : Int := 0
  /-- Whether the skill is free of cooldowns. -/
  bypass : Bool := false
  /-- The number of steps that take one off the cooldown. -/
  steps : Option Nat := none
  /-- What the end of a battle adds to the cooldown. -/
  afterBattle : Option Int := none
  /-- What an effect adds to the cooldowns of single skills. -/
  skillChange : OrderedMap Nat Int := ∅
  /-- What an effect adds to the cooldowns of the known skills of a type. -/
  stypeChange : OrderedMap Nat Int := ∅
  /-- What an effect adds to the cooldowns of all known skills. -/
  globalChange : Int := 0
  deriving DecidableEq, Repr

instance : Inhabited CooldownRules := ⟨{}⟩

/-- A tag about cooldowns, with the numbers that could be read. -/
inductive CooldownTag
  | own (value : Option Int)
  | afterBattle (value : Option Int)
  | steps (value : Option Nat)
  | warmup (value : Option Int)
  /-- A cost, or with a sign a change, of one skill. -/
  | skill (id : Option Nat) (signed : Bool) (value : Option Int)
  /-- A cost, or with a sign a change, of the skills of a type. -/
  | stype (id : Option Nat) (signed : Bool) (value : Option Int)
  /-- A cost, or with a sign a change, of all known skills. -/
  | global (signed : Bool) (value : Option Int)
  | bypass
  deriving DecidableEq, Repr

namespace CooldownTag

open Text

/-- The magnitude of a numeral, if it fits the signed 32-bit range. -/
def magnitude? (ds : List Char) : Option Int := (readNat? ds).bind (signedInt32? false)

/-- A numeral with a sign in front that may be missing: whether there was one, and the value. -/
def signedValue (s : Option Bool) (ds : List Char) : Bool × Option Int :=
  (s.isSome, (magnitude? ds).map fun n => if s = some true then -n else n)

/-- The numeral of a tag `<name: n>`. -/
def plain? (name : String) (cs : List Char) : Option (List Char) := do
  let (ds, rest) ← digits (trimStart (← after name cs))
  guard (rest.head? = some '>')
  return ds

/-- The sign and the numeral of a tag `<name: ±n>`. -/
def signedNumeral? (name : String) (cs : List Char) : Option (Option Bool × List Char) := do
  let (s, body) := sign (trimStart (← after name cs))
  let (ds, rest) ← digits body
  guard (rest.head? = some '>')
  return (s, ds)

/-- The id, sign and numeral of a tag `<name id cooldown: ±n>`. -/
def keyed? (name : String) (cs : List Char) : Option (List Char × Option Bool × List Char) := do
  let (id, rest) ← digits (← afterBlank (← after name cs))
  let (s, ds) ← signedNumeral? "cooldown:" (← afterBlank rest)
  return (id, s, ds)

/-- The tag for the end of a battle, whose numeral has to have a sign. -/
def afterBattle? (cs : List Char) : Option CooldownTag := do
  let (some s, ds) ← signedNumeral? "<after battle cooldown:" cs | none
  return afterBattle ((readNat? ds).bind (signedInt32? s))

/-- The tag `<bypass cooldown>`, in the singular or the plural. -/
def bypass? (cs : List Char) : Option Unit := do
  let rest ← after "<bypass cooldown" cs
  guard (rest.head? = some '>' ∨ (after "s>" rest).isSome)

/-- The tag that a line holds. -/
def find? (line : List Char) : Option CooldownTag :=
  (search (plain? "<cooldown:") line).map (fun ds => own (magnitude? ds))
  <|> search afterBattle? line
  <|> (search (plain? "<cooldown steps:") line).map (fun ds => steps (nat32? ds))
  <|> (search (plain? "<warmup:") line).map (fun ds => warmup (magnitude? ds))
  <|> (search (keyed? "<skill") line).map (fun (id, s, ds) =>
        skill (nat32? id) (signedValue s ds).1 (signedValue s ds).2)
  <|> (search (keyed? "<stype") line).map (fun (id, s, ds) =>
        stype (nat32? id) (signedValue s ds).1 (signedValue s ds).2)
  <|> (search (signedNumeral? "<global cooldown:") line).map (fun (s, ds) =>
        global (signedValue s ds).1 (signedValue s ds).2)
  <|> (search bypass? line).map (fun _ => bypass)

end CooldownTag

/-- The rules after one more tag. -/
def CooldownRules.note (r : CooldownRules) : CooldownTag → CooldownRules
  | .own v => { r with cooldown := v }
  | .afterBattle v => { r with afterBattle := v }
  | .steps v => { r with steps := v }
  | .warmup v => { r with warmup := v.getD 0 }
  | .skill (some id) false (some v) => { r with skillCooldown := r.skillCooldown.insert id v }
  | .skill (some id) true (some v) => { r with skillChange := r.skillChange.insert id v }
  | .stype (some id) false (some v) => { r with stypeCooldown := r.stypeCooldown.insert id v }
  | .stype (some id) true (some v) => { r with stypeChange := r.stypeChange.insert id v }
  | .global false (some v) => { r with globalCooldown := v }
  | .global true (some v) => { r with globalChange := v }
  | .bypass => { r with bypass := true }
  | _ => r

end BattleScript
