import BattleScript.Note.Decode

/-!
# Writing notes

The opposite of decoding: the text that says what given notes say. It has a block for every
declared phase, then the tag of the entry to copy, then one tag for every cooldown rule, each on a
line of its own. Costs are written without a sign, changes and what the end of a battle adds with
one.

Not everything can be written. `Notes.Writable` are the notes whose scripts keep their lines when
they are written into blocks and whose numbers are those that tags can hold.
-/

namespace BattleScript

/-! ## Cooldown rules -/

/-- A cooldown rule that one tag states. -/
inductive CooldownRule
  | own (n : Int)
  | afterBattle (n : Int)
  | steps (n : Nat)
  | warmup (n : Int)
  /-- A cost, or with a sign a change, of one skill. -/
  | skill (id : Nat) (signed : Bool) (n : Int)
  /-- A cost, or with a sign a change, of the skills of a type. -/
  | stype (id : Nat) (signed : Bool) (n : Int)
  /-- A cost, or with a sign a change, of all known skills. -/
  | global (signed : Bool) (n : Int)
  | bypass
  deriving DecidableEq, Repr

/-- The numeral of an integer, with its sign if it is to have one. -/
def numeralText (signed : Bool) (n : Int) : String :=
  (if signed then if n < 0 then "-" else "+" else "") ++ toString n.natAbs

namespace CooldownRule

/-- How the tag that states the rule begins. -/
def name : CooldownRule → String
  | .own _ => "<cooldown:"
  | .afterBattle _ => "<after battle cooldown:"
  | .steps _ => "<cooldown steps:"
  | .warmup _ => "<warmup:"
  | .skill .. => "<skill"
  | .stype .. => "<stype"
  | .global .. => "<global cooldown:"
  | .bypass => "<bypass cooldown"

/-- What the tag says after that. -/
def numbers : CooldownRule → String
  | .own n | .warmup n => " " ++ numeralText false n
  | .afterBattle n => " " ++ numeralText true n
  | .steps n => " " ++ toString n
  | .skill id signed n | .stype id signed n =>
    " " ++ toString id ++ " cooldown: " ++ numeralText signed n
  | .global signed n => " " ++ numeralText signed n
  | .bypass => ""

/-- The tag that states the rule, as it is written. -/
def text (rule : CooldownRule) : String := rule.name ++ rule.numbers ++ ">"

/-- The tag that states the rule, as it is read. -/
def tag : CooldownRule → CooldownTag
  | .own n => .own (some n)
  | .afterBattle n => .afterBattle (some n)
  | .steps n => .steps (some n)
  | .warmup n => .warmup (some n)
  | .skill id signed n => .skill (some id) signed (some n)
  | .stype id signed n => .stype (some id) signed (some n)
  | .global signed n => .global signed (some n)
  | .bypass => .bypass

end CooldownRule

/-- A cost that a tag can hold. -/
def IsCost (n : Int) : Prop := 0 ≤ n ∧ n ≤ int32Max

/-- A change that a tag can hold. -/
def IsChange (n : Int) : Prop := -int32Max ≤ n ∧ n ≤ int32Max

instance (n : Int) : Decidable (IsCost n) := by unfold IsCost; infer_instance
instance (n : Int) : Decidable (IsChange n) := by unfold IsChange; infer_instance

/-- Every key occurs once and can be written, and so can every value. -/
structure OrderedMap.Holds (m : OrderedMap Nat Int) (p : Int → Prop) : Prop where
  keys : m.keys.Nodup
  ids : ∀ id ∈ m.keys, id ≤ nat32Max
  values : ∀ n ∈ m.values, p n

namespace CooldownRules

/-- The tags that state the rules, in the order of the rules and of the keys. A number that is zero
unless something else is said needs no tag; with `zeros` it has one all the same. -/
def tags (r : CooldownRules) (zeros : Bool) : List CooldownRule :=
  (r.cooldown.map .own).toList ++
  r.skillCooldown.entries.map (fun e => .skill e.1 false e.2) ++
  r.stypeCooldown.entries.map (fun e => .stype e.1 false e.2) ++
  (if zeros || r.globalCooldown ≠ 0 then [.global false r.globalCooldown] else []) ++
  (if zeros || r.warmup ≠ 0 then [.warmup r.warmup] else []) ++
  (if r.bypass then [.bypass] else []) ++
  (r.steps.map .steps).toList ++
  (r.afterBattle.map .afterBattle).toList ++
  r.skillChange.entries.map (fun e => .skill e.1 true e.2) ++
  r.stypeChange.entries.map (fun e => .stype e.1 true e.2) ++
  (if zeros || r.globalChange ≠ 0 then [.global true r.globalChange] else [])

/-- Tags can hold the numbers of the rules. -/
structure Writable (r : CooldownRules) : Prop where
  cooldown : ∀ n ∈ r.cooldown, IsCost n
  skillCooldown : r.skillCooldown.Holds IsCost
  stypeCooldown : r.stypeCooldown.Holds IsCost
  globalCooldown : IsCost r.globalCooldown
  warmup : IsCost r.warmup
  steps : ∀ n ∈ r.steps, n ≤ nat32Max
  afterBattle : ∀ n ∈ r.afterBattle, FitsInt32 n
  skillChange : r.skillChange.Holds IsChange
  stypeChange : r.stypeChange.Holds IsChange
  globalChange : IsChange r.globalChange

end CooldownRules

/-! ## Notes -/

/-- The word for the kind of entry that is referred to. -/
def ItemRef.kind : ItemRef → String
  | .skill _ => "skill"
  | .item _ => "item"

/-- The number of the entry that is referred to. -/
def ItemRef.number : ItemRef → Nat
  | .skill id => id
  | .item id => id

/-- The tag that has an entry copied. -/
def ItemRef.copyTag (ref : ItemRef) : String :=
  "<action copy:" ++ " " ++ ref.kind ++ ": " ++ toString ref.number ++ ">"

/-- The lines of the block of a phase. -/
def Phase.block (p : Phase) (lines : Script) : List String :=
  ("<" ++ p.tag ++ " action>") :: lines ++ ["</" ++ p.tag ++ " action>"]

namespace Notes

/-- The lines that say what the notes say. -/
def lines (n : Notes) (zeros : Bool) : List String :=
  n.declared.flatMap (fun p => p.block (n.sequence.script p)) ++
  (n.copy.map ItemRef.copyTag).toList ++ (n.cooldown.tags zeros).map CooldownRule.text

/-- The text that says what the notes say. -/
def text (n : Notes) (zeros : Bool) : String := "\n".intercalate (n.lines zeros)

/-- A block keeps the line as it is: the line is trimmed, not empty, one line only, and does not
close the block. -/
structure Keeps (p : Phase) (line : String) : Prop where
  trimmed : Text.trimmed line = line
  nonempty : line ≠ ""
  single : '\n' ∉ line.toList
  inside : closingTag? line.toList ≠ some p

instance (p : Phase) (line : String) : Decidable (Keeps p line) :=
  decidable_of_iff
    (Text.trimmed line = line ∧ line ≠ "" ∧ '\n' ∉ line.toList ∧ closingTag? line.toList ≠ some p)
    ⟨fun ⟨ht, hn, hs, hi⟩ => ⟨ht, hn, hs, hi⟩, fun ⟨ht, hn, hs, hi⟩ => ⟨ht, hn, hs, hi⟩⟩

/-- The notes can be written: their scripts are those of blocks where a phase is declared, and those
of every action elsewhere, and their numbers are such that tags can hold them. -/
structure Writable (n : Notes) : Prop where
  declared : ∀ p ∈ n.declared, ∀ line ∈ n.sequence.script p, Keeps p line
  undeclared : ∀ p, p ∉ n.declared → n.sequence.script p = ActionSequence.standard.script p
  copy : ∀ ref ∈ n.copy, ref.number ≤ nat32Max
  cooldown : n.cooldown.Writable

end Notes

end BattleScript
