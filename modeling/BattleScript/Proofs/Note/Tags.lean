import BattleScript.Proofs.Note.TagLine

/-!
# Reading tags as they were written

A copy tag is read as the entry that it names (`ItemRef.search_copyTag`), a tag that states a
cooldown rule as that rule (`CooldownRule.find?_text`), and the tags of all rules together as the
rules (`CooldownRules.noteAll_tags`).

A tag is looked for with one pattern after the other. Those of the other tags find nothing, for
their names are missing from the line; its own goes through the tag piece by piece.
-/

namespace BattleScript

open Text

/-! ## The entry to copy -/

/-- Where its name is not found, a copy tag is not. -/
theorem copyTagAt?_of_after {cs : List Char} (h : after "<action copy:" cs = none) :
    copyTagAt? cs = none := by
  rw [copyTagAt?, h]
  rfl

namespace ItemRef

/-- What follows the name in the tag. -/
def body (ref : ItemRef) : List Char :=
  ' ' :: (ref.kind.toList ++ ':' :: ' ' :: (Nat.toDigits 10 ref.number ++ ['>']))

/-- A copy tag is its name and the rest of it. -/
theorem toList_copyTag (ref : ItemRef) :
    ref.copyTag.toList = "<action copy:".toList ++ ref.body := by
  have htag : ref.copyTag =
      "<action copy:" ++ " " ++ ref.kind ++ ": " ++ toString ref.number ++ ">" := rfl
  have hspace : " ".toList = [' '] := rfl
  have hcolon : ": ".toList = [':', ' '] := rfl
  have hend : ">".toList = ['>'] := rfl
  simp only [htag, body, hspace, hcolon, hend, String.toList_append, toList_toString,
    List.append_assoc, List.cons_append, List.nil_append]

/-- A copy tag is a line with one tag. -/
theorem tagLine (ref : ItemRef) : TagLine "<action copy:" ref.body where
  known := by simp [tagNames]
  plain := by
    have hspace : inTag ' ' = true := by decide
    have hcolon : inTag ':' = true := by decide
    have hend : inTag '>' = true := by decide
    have hkind : ref.kind.toList.all inTag = true := by
      cases ref with
      | skill id => exact (by decide : "skill".toList.all inTag = true)
      | item id => exact (by decide : "item".toList.all inTag = true)
    simp only [body, List.all_cons, List.all_append, List.all_nil, hspace, hcolon, hend, hkind,
      all_inTag_toDigits, Bool.and_true]
  ends := by simp [body, List.getLast?_cons]

/-- The pattern goes through a copy tag piece by piece: name, kind, colon, number. -/
theorem copyTagAt?_copyTag (ref : ItemRef) :
    copyTagAt? ref.copyTag.toList = some (ref.kind.toList, Nat.toDigits 10 ref.number) := by
  obtain ⟨rest, hrest⟩ : ∃ rest, rest = ':' :: ' ' :: (Nat.toDigits 10 ref.number ++ ['>']) :=
    ⟨_, rfl⟩
  have hname : after "<action copy:" ref.copyTag.toList =
      some (' ' :: (ref.kind.toList ++ rest)) := by
    rw [toList_copyTag, hrest]
    exact after_append (by decide) ref.body
  have htrim : trimStart (' ' :: (ref.kind.toList ++ rest)) = ref.kind.toList ++ rest := by
    rw [trimStart_blank (by decide)]
    cases ref with
    | skill id => exact trimStart_append (w := "skill".toList) (by decide)
    | item id => exact trimStart_append (w := "item".toList) (by decide)
  -- an item is not taken for a skill, for the words clash
  have hkind : (after "skill" (ref.kind.toList ++ rest)).or
      (after "item" (ref.kind.toList ++ rest)) = some rest := by
    have hskill : after "skill" ("skill".toList ++ rest) = some rest :=
      after_append (by decide) rest
    have hitem : after "item" ("item".toList ++ rest) = some rest := after_append (by decide) rest
    have hclash : after "skill" ("item".toList ++ rest) = none := after_eq_none (by decide) rest
    cases ref with
    | skill id => rw [kind, hskill, Option.some_or]
    | item id => rw [kind, hclash, hitem, Option.none_or]
  have hcolon : after ":" (trimStart rest) =
      some (' ' :: (Nat.toDigits 10 ref.number ++ ['>'])) := by
    rw [hrest]
    rfl
  have hspace : trimStart (' ' :: (Nat.toDigits 10 ref.number ++ ['>'])) =
      Nat.toDigits 10 ref.number ++ ['>'] := trimStart_toDigits ref.number ['>']
  have hdigits := digits_toDigits ref.number isDigit_head_end
  -- the kind is what was passed over between the name and the colon
  have hword : (ref.kind.toList ++ rest).take ((ref.kind.toList ++ rest).length - rest.length) =
      ref.kind.toList := by
    rw [List.length_append, Nat.add_sub_cancel, List.take_left]
  rw [copyTagAt?, hname, Option.bind_eq_bind, Option.bind_some, htrim]
  dsimp only
  rw [hkind, Option.bind_some, hcolon, Option.bind_some, hspace, hdigits, hword]
  rfl

/-- **A copy tag is read as the entry that it names.** -/
theorem search_copyTag (ref : ItemRef) :
    search copyTagAt? ref.copyTag.toList =
      some (ref.kind.toList, Nat.toDigits 10 ref.number) := by
  rw [← ref.copyTagAt?_copyTag, toList_copyTag]
  exact ref.tagLine.search_eq fun t ht =>
    copyTagAt?_of_after (after_tagName_of_noBracket ref.tagLine.known ht)

/-- The kind and the number that were read make the reference. -/
theorem copyTarget?_copyTag {ref : ItemRef} (h : ref.number ≤ nat32Max) :
    copyTarget? ref.kind.toList (Nat.toDigits 10 ref.number) = some ref := by
  have hnumber : nat32? (Nat.toDigits 10 ref.number) = some ref.number := nat32?_toDigits h
  have hskill : sameAscii "skill" "skill" = true := by decide
  have hitem : sameAscii "item" "skill" = false := by decide
  rw [copyTarget?, hnumber, String.ofList_toList]
  cases ref with
  | skill id => simp [kind, number, hskill]
  | item id => simp [kind, number, hitem]

end ItemRef

/-! ## Patterns -/

namespace CooldownTag

/-- A number without a sign, after the name of its tag. -/
theorem plain?_written {name : String} (hname : isLower name.toList) (n : Nat) :
    plain? name (name.toList ++ ' ' :: (Nat.toDigits 10 n ++ ['>'])) =
      some (Nat.toDigits 10 n) := by
  have htrim : trimStart (' ' :: (Nat.toDigits 10 n ++ ['>'])) = Nat.toDigits 10 n ++ ['>'] :=
    trimStart_toDigits n ['>']
  rw [plain?, after_append hname, Option.bind_eq_bind, Option.bind_some, htrim,
    digits_toDigits n isDigit_head_end]
  rfl

/-- A number that may have a sign. -/
theorem signedNumeral?_written {name : String} (hname : isLower name.toList)
    (signed : Bool) (n : Int) :
    signedNumeral? name (name.toList ++ ' ' :: ((numeralText signed n).toList ++ ['>'])) =
      some (writtenSign signed n, Nat.toDigits 10 n.natAbs) := by
  have htrim : trimStart (' ' :: ((numeralText signed n).toList ++ ['>'])) =
      (numeralText signed n).toList ++ ['>'] := trimStart_numeral signed n ['>']
  rw [signedNumeral?, after_append hname, Option.bind_eq_bind, Option.bind_some, htrim,
    sign_numeral]
  dsimp only
  rw [digits_toDigits _ isDigit_head_end]
  rfl

/-- A number of a skill or type, and one that may have a sign. -/
theorem keyed?_written {name : String} (hname : isLower name.toList) (id : Nat)
    (signed : Bool) (n : Int) :
    keyed? name (name.toList ++ ' ' :: (Nat.toDigits 10 id ++ ' ' ::
        ("cooldown:".toList ++ ' ' :: ((numeralText signed n).toList ++ ['>'])))) =
      some (Nat.toDigits 10 id, writtenSign signed n, Nat.toDigits 10 n.natAbs) := by
  -- blank, number, blank, word: each is passed over as it stands
  have hid (cs : List Char) :
      afterBlank (' ' :: (Nat.toDigits 10 id ++ cs)) = some (Nat.toDigits 10 id ++ cs) := by
    rw [afterBlank, if_pos (by decide), trimStart_toDigits]
  have hdigits (cs : List Char) :
      digits (Nat.toDigits 10 id ++ ' ' :: cs) = some (Nat.toDigits 10 id, ' ' :: cs) :=
    digits_toDigits id fun c hc => by cases hc; decide
  have hword (cs : List Char) :
      afterBlank (' ' :: ("cooldown:".toList ++ cs)) = some ("cooldown:".toList ++ cs) := rfl
  simp only [keyed?, after_append hname, Option.bind_eq_bind, Option.bind_some, hid, hdigits, hword,
    signedNumeral?_written (show isLower "cooldown:".toList by decide)]
  rfl

variable {name : String} {line : List Char}

/-! A pattern needs its name, so where the name is at no place of a line it is found nowhere. -/

theorem plain?_of_after (h : after name line = none) : plain? name line = none := by
  rw [plain?, h]
  rfl

theorem signedNumeral?_of_after (h : after name line = none) : signedNumeral? name line = none := by
  rw [signedNumeral?, h]
  rfl

theorem keyed?_of_after (h : after name line = none) : keyed? name line = none := by
  rw [keyed?, h]
  rfl

theorem afterBattle?_of_after (h : after "<after battle cooldown:" line = none) :
    afterBattle? line = none := by
  rw [afterBattle?, signedNumeral?_of_after h]
  rfl

/-- The same at any place of the line. -/
theorem search_plain?_of_missing (h : Missing name line) : search (plain? name) line = none :=
  search_eq_none fun t ht => plain?_of_after (h t ht)

theorem search_signedNumeral?_of_missing (h : Missing name line) :
    search (signedNumeral? name) line = none :=
  search_eq_none fun t ht => signedNumeral?_of_after (h t ht)

theorem search_keyed?_of_missing (h : Missing name line) : search (keyed? name) line = none :=
  search_eq_none fun t ht => keyed?_of_after (h t ht)

theorem search_afterBattle?_of_missing (h : Missing "<after battle cooldown:" line) :
    search afterBattle? line = none :=
  search_eq_none fun t ht => afterBattle?_of_after (h t ht)

end CooldownTag

/-! ## Cooldown rules -/

namespace CooldownRule

/-- What follows the name in the tag. -/
def body : CooldownRule → List Char
  | .own n | .warmup n => ' ' :: ((numeralText false n).toList ++ ['>'])
  | .afterBattle n => ' ' :: ((numeralText true n).toList ++ ['>'])
  | .steps n => ' ' :: (Nat.toDigits 10 n ++ ['>'])
  | .skill id signed n | .stype id signed n =>
    ' ' :: (Nat.toDigits 10 id ++ ' ' ::
      ("cooldown:".toList ++ ' ' :: ((numeralText signed n).toList ++ ['>'])))
  | .global signed n => ' ' :: ((numeralText signed n).toList ++ ['>'])
  | .bypass => ['>']

/-- A tag is its name and the rest of it. -/
theorem toList_text (rule : CooldownRule) : rule.text.toList = rule.name.toList ++ rule.body := by
  have hspace : " ".toList = [' '] := rfl
  have hend : ">".toList = ['>'] := rfl
  have hempty : "".toList = [] := rfl
  have hcooldown : " cooldown: ".toList = ' ' :: ("cooldown:".toList ++ [' ']) := rfl
  rw [text, String.toList_append, String.toList_append, List.append_assoc]
  congr 1
  cases rule <;>
    simp only [numbers, body, String.toList_append, toList_toString, hspace, hend, hempty,
      hcooldown, List.append_assoc, List.cons_append, List.nil_append]

/-- Every tag is a line with one tag. -/
theorem tagLine (rule : CooldownRule) : TagLine rule.name rule.body where
  known := by cases rule <;> simp [name, tagNames]
  plain := by
    have hspace : inTag ' ' = true := by decide
    have hend : inTag '>' = true := by decide
    have hword : "cooldown:".toList.all inTag = true := by decide
    cases rule <;>
      simp only [body, List.all_cons, List.all_append, List.all_nil, hspace, hend, hword,
        all_inTag_toDigits, all_inTag_numeralText, Bool.and_true]
  ends := by cases rule <;> simp [body, List.getLast?_cons]

/-- The names of tags are in lower case, as patterns are written. -/
theorem isLower_name (rule : CooldownRule) : isLower rule.name.toList :=
  isLower_of_mem_tagNames rule.name rule.tagLine.known

theorem after_name_of_noBracket (rule : CooldownRule) {t : List Char} (h : NoBracket t) :
    after rule.name t = none :=
  after_tagName_of_noBracket rule.tagLine.known h

/-- The names of the other tags are at no place of a tag. -/
theorem missing (rule : CooldownRule) {other : String}
    (hother : other ∈ tagNames ∧ other ≠ rule.name) : Missing other rule.text.toList := by
  rw [toList_text]
  exact rule.tagLine.missing hother

/-- No tag of a rule is taken for a copy tag. -/
theorem search_copyTagAt? (rule : CooldownRule) : search copyTagAt? rule.text.toList = none := by
  have hmissing : Missing "<action copy:" rule.text.toList :=
    rule.missing ⟨by simp [tagNames], by cases rule <;> simp [name]⟩
  exact search_eq_none fun t ht => copyTagAt?_of_after (hmissing t ht)

/-! The pattern of a tag finds it. -/

/-- A tag with a plain number is found, with its digits. -/
theorem search_plain? (rule : CooldownRule) {n : Nat}
    (hbody : rule.body = ' ' :: (Nat.toDigits 10 n ++ ['>'])) :
    search (CooldownTag.plain? rule.name) rule.text.toList = some (Nat.toDigits 10 n) := by
  rw [toList_text, rule.tagLine.search_eq fun t ht =>
    CooldownTag.plain?_of_after (rule.after_name_of_noBracket ht), hbody]
  exact CooldownTag.plain?_written rule.isLower_name n

/-- A tag with a number that may have a sign is found, with both. -/
theorem search_signedNumeral? (rule : CooldownRule) {signed : Bool} {n : Int}
    (hbody : rule.body = ' ' :: ((numeralText signed n).toList ++ ['>'])) :
    search (CooldownTag.signedNumeral? rule.name) rule.text.toList =
      some (writtenSign signed n, Nat.toDigits 10 n.natAbs) := by
  rw [toList_text, rule.tagLine.search_eq fun t ht =>
    CooldownTag.signedNumeral?_of_after (rule.after_name_of_noBracket ht), hbody]
  exact CooldownTag.signedNumeral?_written rule.isLower_name signed n

/-- A tag for a skill or a type is found, with all that it says. -/
theorem search_keyed? (rule : CooldownRule) {id : Nat} {signed : Bool} {n : Int}
    (hbody : rule.body = ' ' :: (Nat.toDigits 10 id ++ ' ' ::
      ("cooldown:".toList ++ ' ' :: ((numeralText signed n).toList ++ ['>'])))) :
    search (CooldownTag.keyed? rule.name) rule.text.toList =
      some (Nat.toDigits 10 id, writtenSign signed n, Nat.toDigits 10 n.natAbs) := by
  rw [toList_text, rule.tagLine.search_eq fun t ht =>
    CooldownTag.keyed?_of_after (rule.after_name_of_noBracket ht), hbody]
  exact CooldownTag.keyed?_written rule.isLower_name id signed n

/-- The tag can hold the numbers of the rule. -/
def Writable : CooldownRule → Prop
  | .own n | .warmup n => IsCost n
  | .afterBattle n => FitsInt32 n
  | .steps n => n ≤ nat32Max
  | .skill id signed n | .stype id signed n =>
    id ≤ nat32Max ∧ if signed then IsChange n else IsCost n
  | .global signed n => if signed then IsChange n else IsCost n
  | .bypass => True

/-- The value of a written cost is read. -/
theorem magnitude?_cost {n : Int} (h : IsCost n) :
    CooldownTag.magnitude? (Nat.toDigits 10 n.natAbs) = some n := by
  obtain ⟨hlow, hhigh⟩ := h
  rw [magnitude?_toDigits (by omega)]
  congr 1
  omega

/-- The sign and the value of a written number are read. -/
theorem signedValue_written {signed : Bool} {n : Int}
    (h : if signed then IsChange n else IsCost n) :
    CooldownTag.signedValue (writtenSign signed n) (Nat.toDigits 10 n.natAbs) =
      (signed, some n) := by
  cases signed with
  | false =>
    have hcost : IsCost n := h
    simp [CooldownTag.signedValue, writtenSign, magnitude?_cost hcost]
  | true =>
    have hchange : IsChange n := h
    obtain ⟨hlow, hhigh⟩ := hchange
    have hmagnitude : CooldownTag.magnitude? (Nat.toDigits 10 n.natAbs) = some (n.natAbs : Int) :=
      magnitude?_toDigits (by omega)
    -- the sign and the absolute value make the number again
    have hvalue :
        (if some (decide (n < 0)) = some true then -(n.natAbs : Int) else n.natAbs) = n := by
      simp only [Option.some.injEq, decide_eq_true_eq]
      split <;> omega
    simp only [CooldownTag.signedValue, writtenSign, if_true, Option.isSome_some, hmagnitude,
      Option.map_some, hvalue]

/-- The value of what the end of a battle adds is read. -/
theorem signedInt32?_natAbs {n : Int} (h : FitsInt32 n) :
    signedInt32? (n < 0) n.natAbs = some n := by
  have hvalue : (if n < 0 then -(n.natAbs : Int) else n.natAbs) = n := by
    split <;> omega
  simp only [signedInt32?, decide_eq_true_eq, hvalue, h, if_true]

/-- The tag for the end of a battle is found with its value. -/
theorem search_afterBattle? {n : Int} (h : FitsInt32 n) :
    search CooldownTag.afterBattle? (afterBattle n).text.toList = some (.afterBattle (some n)) := by
  have hnumeral : CooldownTag.signedNumeral? "<after battle cooldown:"
      ((afterBattle n).name.toList ++ (afterBattle n).body) =
      some (some (decide (n < 0)), Nat.toDigits 10 n.natAbs) :=
    CooldownTag.signedNumeral?_written (afterBattle n).isLower_name true n
  rw [toList_text, (afterBattle n).tagLine.search_eq fun t ht =>
    CooldownTag.afterBattle?_of_after ((afterBattle n).after_name_of_noBracket ht),
    CooldownTag.afterBattle?, hnumeral]
  simp [readNat?_toDigits, signedInt32?_natAbs h]

/-- The tag for bypassing has no number. -/
theorem search_bypass? : search CooldownTag.bypass? bypass.text.toList = some () := by
  decide +kernel

/-- **A tag is read as the rule that it states.** -/
theorem find?_text {rule : CooldownRule} (h : rule.Writable) :
    CooldownTag.find? rule.text.toList = some rule.tag := by
  have hmissing (other : String) (hknown : other ∈ tagNames) (hother : other ≠ rule.name) :
      Missing other rule.text.toList := rule.missing ⟨hknown, hother⟩
  have hown (hother : "<cooldown:" ≠ rule.name) :
      search (CooldownTag.plain? "<cooldown:") rule.text.toList = none :=
    CooldownTag.search_plain?_of_missing (hmissing _ (by simp [tagNames]) hother)
  have hafterBattle (hother : "<after battle cooldown:" ≠ rule.name) :
      search CooldownTag.afterBattle? rule.text.toList = none :=
    CooldownTag.search_afterBattle?_of_missing (hmissing _ (by simp [tagNames]) hother)
  have hsteps (hother : "<cooldown steps:" ≠ rule.name) :
      search (CooldownTag.plain? "<cooldown steps:") rule.text.toList = none :=
    CooldownTag.search_plain?_of_missing (hmissing _ (by simp [tagNames]) hother)
  have hwarmup (hother : "<warmup:" ≠ rule.name) :
      search (CooldownTag.plain? "<warmup:") rule.text.toList = none :=
    CooldownTag.search_plain?_of_missing (hmissing _ (by simp [tagNames]) hother)
  have hskill (hother : "<skill" ≠ rule.name) :
      search (CooldownTag.keyed? "<skill") rule.text.toList = none :=
    CooldownTag.search_keyed?_of_missing (hmissing _ (by simp [tagNames]) hother)
  have hstype (hother : "<stype" ≠ rule.name) :
      search (CooldownTag.keyed? "<stype") rule.text.toList = none :=
    CooldownTag.search_keyed?_of_missing (hmissing _ (by simp [tagNames]) hother)
  have hglobal (hother : "<global cooldown:" ≠ rule.name) :
      search (CooldownTag.signedNumeral? "<global cooldown:") rule.text.toList = none :=
    CooldownTag.search_signedNumeral?_of_missing (hmissing _ (by simp [tagNames]) hother)
  -- the patterns before that of the tag find nothing, and its own finds it
  cases rule with
  | own n =>
    have hn : IsCost n := h
    have hbody : (own n).body = ' ' :: (Nat.toDigits 10 n.natAbs ++ ['>']) := by
      simp [body, toList_numeralText]
    have hfound : search (CooldownTag.plain? "<cooldown:") (own n).text.toList =
        some (Nat.toDigits 10 n.natAbs) := (own n).search_plain? hbody
    rw [CooldownTag.find?, hfound]
    simp [magnitude?_cost hn, tag]
  | afterBattle n =>
    have hn : FitsInt32 n := h
    rw [CooldownTag.find?, hown (by simp [name]), search_afterBattle? hn]
    simp [tag]
  | steps n =>
    have hn : n ≤ nat32Max := h
    have hfound : search (CooldownTag.plain? "<cooldown steps:") (steps n).text.toList =
        some (Nat.toDigits 10 n) := (steps n).search_plain? rfl
    rw [CooldownTag.find?, hown (by simp [name]), hafterBattle (by simp [name]), hfound]
    simp [nat32?_toDigits hn, tag]
  | warmup n =>
    have hn : IsCost n := h
    have hbody : (warmup n).body = ' ' :: (Nat.toDigits 10 n.natAbs ++ ['>']) := by
      simp [body, toList_numeralText]
    have hfound : search (CooldownTag.plain? "<warmup:") (warmup n).text.toList =
        some (Nat.toDigits 10 n.natAbs) := (warmup n).search_plain? hbody
    rw [CooldownTag.find?, hown (by simp [name]), hafterBattle (by simp [name]),
      hsteps (by simp [name]), hfound]
    simp [magnitude?_cost hn, tag]
  | skill id signed n =>
    obtain ⟨hid, hn⟩ : id ≤ nat32Max ∧ if signed then IsChange n else IsCost n := h
    have hfound : search (CooldownTag.keyed? "<skill") (skill id signed n).text.toList =
        some (Nat.toDigits 10 id, writtenSign signed n, Nat.toDigits 10 n.natAbs) :=
      (skill id signed n).search_keyed? rfl
    rw [CooldownTag.find?, hown (by simp [name]), hafterBattle (by simp [name]),
      hsteps (by simp [name]), hwarmup (by simp [name]), hfound]
    simp [nat32?_toDigits hid, signedValue_written hn, tag]
  | stype id signed n =>
    obtain ⟨hid, hn⟩ : id ≤ nat32Max ∧ if signed then IsChange n else IsCost n := h
    have hfound : search (CooldownTag.keyed? "<stype") (stype id signed n).text.toList =
        some (Nat.toDigits 10 id, writtenSign signed n, Nat.toDigits 10 n.natAbs) :=
      (stype id signed n).search_keyed? rfl
    rw [CooldownTag.find?, hown (by simp [name]), hafterBattle (by simp [name]),
      hsteps (by simp [name]), hwarmup (by simp [name]), hskill (by simp [name]), hfound]
    simp [nat32?_toDigits hid, signedValue_written hn, tag]
  | global signed n =>
    have hn : if signed then IsChange n else IsCost n := h
    have hfound : search (CooldownTag.signedNumeral? "<global cooldown:")
        (global signed n).text.toList = some (writtenSign signed n, Nat.toDigits 10 n.natAbs) :=
      (global signed n).search_signedNumeral? rfl
    rw [CooldownTag.find?, hown (by simp [name]), hafterBattle (by simp [name]),
      hsteps (by simp [name]), hwarmup (by simp [name]), hskill (by simp [name]),
      hstype (by simp [name]), hfound]
    simp [signedValue_written hn, tag]
  | bypass =>
    rw [CooldownTag.find?, hown (by simp [name]), hafterBattle (by simp [name]),
      hsteps (by simp [name]), hwarmup (by simp [name]), hskill (by simp [name]),
      hstype (by simp [name]), hglobal (by simp [name]), search_bypass?]
    simp [tag]

end CooldownRule

/-! ## All rules -/

/-- Every entry of a writable table is writable. -/
theorem OrderedMap.Holds.entry {m : OrderedMap Nat Int} {p : Int → Prop} (h : m.Holds p)
    {e : Nat × Int} (he : e ∈ m.entries) : e.1 ≤ nat32Max ∧ p e.2 :=
  ⟨h.ids _ (List.mem_map_of_mem he), h.values _ (List.mem_map_of_mem he)⟩

namespace CooldownRules

variable {r : CooldownRules}

/-- The rules after the tags of more rules. -/
def noteAll (r : CooldownRules) (rules : List CooldownRule) : CooldownRules :=
  rules.foldl (fun r rule => r.note rule.tag) r

/-- Tags one behind the other are noted one after the other. -/
theorem noteAll_append (r : CooldownRules) (some more : List CooldownRule) :
    r.noteAll (some ++ more) = (r.noteAll some).noteAll more :=
  List.foldl_append

/-! What the tags of one kind write. The rules are given by what they say of that kind: `put` is
what they are once it is something else. -/

/-- A number that may be missing is written by its tag, if it has one. -/
theorem noteAll_option {α : Type} {rule : α → CooldownRule} (put : Option α → CooldownRules)
    (h : ∀ v, (put none).note (rule v).tag = put (some v)) (v : Option α) :
    (put none).noteAll (v.map rule).toList = put v := by
  cases v with
  | none => rfl
  | some v => exact h v

/-- A number that is zero by default is written by its tag, or is zero anyway. -/
theorem noteAll_number {rule : Int → CooldownRule} (put : Int → CooldownRules)
    (h : ∀ v, (put 0).note (rule v).tag = put v) (zeros : Bool) (v : Int) :
    (put 0).noteAll (if zeros || v ≠ 0 then [rule v] else []) = put v := by
  split
  · exact h v
  · next hv =>
    have hzero : v = 0 := by simp_all
    rw [hzero]
    rfl

/-- The entries of a table are written one after the other, each under a key of its own. -/
theorem noteAll_map {rule : Nat × Int → CooldownRule} (put : OrderedMap Nat Int → CooldownRules)
    (h : ∀ m e, (put m).note (rule e).tag = put (m.insert e.1 e.2)) {m : OrderedMap Nat Int}
    (hkeys : m.keys.Nodup) : (put ∅).noteAll (m.entries.map rule) = put m := by
  -- for the induction the map so far has to be general
  have hfold (es : List (Nat × Int)) (m : OrderedMap Nat Int) :
      (put m).noteAll (es.map rule) = put (es.foldl (fun m e => m.insert e.1 e.2) m) := by
    induction es generalizing m with
    | nil => rfl
    | cons e es ih => exact (congrArg (noteAll · _) (h m e)).trans (ih _)
  rw [hfold]
  exact congrArg put (OrderedMap.ofList_entries hkeys)

/-- A flag that is off by default is written by its tag, if it is on. -/
theorem noteAll_flag {rule : CooldownRule} (put : Bool → CooldownRules)
    (h : (put false).note rule.tag = put true) (b : Bool) :
    (put false).noteAll (if b then [rule] else []) = put b := by
  cases b with
  | false => rfl
  | true => exact h

/-- **The tags of all rules are read as the rules.** -/
theorem noteAll_tags (h : r.Writable) (zeros : Bool) : noteAll {} (r.tags zeros) = r := by
  have hskillCooldown := h.skillCooldown.keys
  have hstypeCooldown := h.stypeCooldown.keys
  have hskillChange := h.skillChange.keys
  have hstypeChange := h.stypeChange.keys
  obtain ⟨cooldown, skillCooldown, stypeCooldown, globalCooldown, warmup, bypass, steps,
    afterBattle, skillChange, stypeChange, globalChange⟩ := r
  simp only [tags, noteAll_append]
  -- one kind after the other
  rw [noteAll_option (fun v => { cooldown := v }) (fun _ => rfl),
    noteAll_map (fun m => { cooldown, skillCooldown := m }) (fun _ _ => rfl) hskillCooldown,
    noteAll_map (fun m => { cooldown, skillCooldown, stypeCooldown := m })
      (fun _ _ => rfl) hstypeCooldown,
    noteAll_number (fun n => { cooldown, skillCooldown, stypeCooldown, globalCooldown := n })
      (fun _ => rfl),
    noteAll_number
      (fun n => { cooldown, skillCooldown, stypeCooldown, globalCooldown, warmup := n })
      (fun _ => rfl),
    noteAll_flag (fun b => { cooldown, skillCooldown, stypeCooldown, globalCooldown, warmup,
                             bypass := b }) rfl,
    noteAll_option (fun v => { cooldown, skillCooldown, stypeCooldown, globalCooldown, warmup,
                               bypass, steps := v }) (fun _ => rfl),
    noteAll_option (fun v => { cooldown, skillCooldown, stypeCooldown, globalCooldown, warmup,
                               bypass, steps, afterBattle := v }) (fun _ => rfl),
    noteAll_map (fun m => { cooldown, skillCooldown, stypeCooldown, globalCooldown, warmup,
                            bypass, steps, afterBattle, skillChange := m })
      (fun _ _ => rfl) hskillChange,
    noteAll_map (fun m => { cooldown, skillCooldown, stypeCooldown, globalCooldown, warmup,
                            bypass, steps, afterBattle, skillChange, stypeChange := m })
      (fun _ _ => rfl) hstypeChange,
    noteAll_number (fun n => { cooldown, skillCooldown, stypeCooldown, globalCooldown, warmup,
                               bypass, steps, afterBattle, skillChange, stypeChange,
                               globalChange := n }) (fun _ => rfl)]

/-- The tags of writable rules are writable. -/
theorem writable_of_mem_tags (h : r.Writable) {zeros : Bool} {rule : CooldownRule}
    (hrule : rule ∈ r.tags zeros) : rule.Writable := by
  have heq {b : Bool} {stated : CooldownRule} (hmem : rule ∈ if b then [stated] else []) :
      rule = stated := by
    cases b with
    | false => cases hmem
    | true => exact List.mem_singleton.mp hmem
  simp only [tags, List.mem_append, or_assoc] at hrule
  -- the tags come table by table, in the order in which they are written
  obtain hmem | hmem | hmem | hmem | hmem | hmem | hmem | hmem | hmem | hmem | hmem := hrule
  · obtain ⟨n, hn, rfl⟩ := Option.map_eq_some_iff.mp (Option.mem_toList.mp hmem)
    exact h.cooldown n hn
  · obtain ⟨e, he, rfl⟩ := List.mem_map.mp hmem
    exact h.skillCooldown.entry he
  · obtain ⟨e, he, rfl⟩ := List.mem_map.mp hmem
    exact h.stypeCooldown.entry he
  · obtain rfl := heq hmem
    exact h.globalCooldown
  · obtain rfl := heq hmem
    exact h.warmup
  · obtain rfl := heq hmem
    exact trivial
  · obtain ⟨n, hn, rfl⟩ := Option.map_eq_some_iff.mp (Option.mem_toList.mp hmem)
    exact h.steps n hn
  · obtain ⟨n, hn, rfl⟩ := Option.map_eq_some_iff.mp (Option.mem_toList.mp hmem)
    exact h.afterBattle n hn
  · obtain ⟨e, he, rfl⟩ := List.mem_map.mp hmem
    exact h.skillChange.entry he
  · obtain ⟨e, he, rfl⟩ := List.mem_map.mp hmem
    exact h.stypeChange.entry he
  · obtain rfl := heq hmem
    exact h.globalChange

end CooldownRules

end BattleScript
