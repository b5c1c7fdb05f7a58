import BattleScript.Battler.Id
import BattleScript.Proofs.Note.Tags
import BattleScript.Proofs.Text.Utf8

/-!
# Decoding undoes writing

Notes that were written as text are decoded as they were (`Notes.decode_text`).

The text is read line by line, and what one line does to the reader is known for each line of
`Notes.lines`: the opening tag of a block opens it, a line of the script goes into the block
whatever it looks like, the closing tag declares the script for the phase, and outside of the
blocks every tag is read as what it was written for. Blocks are read one after the other
(`Notes.Reader.foldl_step_blocks`), and so are the tags of the rules
(`Notes.Reader.foldl_step_rules`); the phases that no block declares keep the scripts that they
had from the start.
-/

namespace BattleScript

open Text

namespace Notes.Reader

variable {n : Notes}

/-! ## Blocks -/

/-- The opening tag of a phase opens its block. -/
theorem step_opening (p : Phase) :
    step ⟨n, none⟩ ("<" ++ p.tag ++ " action>").toList = ⟨n, some (p, [])⟩ := by
  -- five closed tags, one for each phase
  have hopening : openingTag? (trim ("<" ++ p.tag ++ " action>").toList) = some p := by
    cases p <;> decide +kernel
  simp only [step, hopening]

/-- The closing tag of the open block declares what the block has gathered. -/
theorem step_closing (p : Phase) (lines : Script) :
    step ⟨n, some (p, lines)⟩ ("</" ++ p.tag ++ " action>").toList =
      ⟨n.declare p lines, none⟩ := by
  have hclosing : closingTag? (trim ("</" ++ p.tag ++ " action>").toList) = some p := by
    cases p <;> decide +kernel
  simp only [step, hclosing, if_true]

/-- In a block, a line that closes nothing is a line of the script, whatever it looks like. -/
theorem step_inside {p : Phase} {line : String} (h : Keeps p line) (lines : Script) :
    step ⟨n, some (p, lines)⟩ line.toList = ⟨n, some (p, lines ++ [line])⟩ := by
  have htrim : trim line.toList = line.toList := by
    rw [← String.toList_ofList (l := trim line.toList)]
    exact congrArg String.toList h.trimmed
  have hne : line.toList ≠ [] := by simpa using h.nonempty
  simp only [step, htrim, if_neg h.inside, if_neg hne, String.ofList_toList]

/-- Lines that the block keeps are gathered in their order, behind what it has already. -/
theorem foldl_step_inside {p : Phase} {lines : Script} (h : ∀ line ∈ lines, Keeps p line)
    (before : Script) :
    (lines.map String.toList).foldl step ⟨n, some (p, before)⟩ =
      ⟨n, some (p, before ++ lines)⟩ := by
  -- on the lines that are to come, whatever has been gathered before
  induction lines generalizing before with
  | nil => simp
  | cons line lines ih =>
    obtain ⟨hline, hlines⟩ := List.forall_mem_cons.mp h
    rw [List.map_cons, List.foldl_cons, step_inside hline, ih hlines, List.append_assoc,
      List.singleton_append]

/-- A block is read as the declaration of its script. -/
theorem foldl_step_block {p : Phase} {lines : Script} (h : ∀ line ∈ lines, Keeps p line) :
    ((p.block lines).map String.toList).foldl step ⟨n, none⟩ = ⟨n.declare p lines, none⟩ := by
  rw [Phase.block, List.cons_append, List.map_cons, List.foldl_cons, step_opening, List.map_append,
    List.foldl_append, foldl_step_inside h, List.nil_append]
  exact step_closing p lines

/-- Blocks are read as the declarations of their scripts. -/
theorem foldl_step_blocks {script : Phase → Script} {ps : List Phase}
    (h : ∀ p ∈ ps, ∀ line ∈ script p, Keeps p line) :
    ((ps.flatMap fun p => p.block (script p)).map String.toList).foldl step ⟨n, none⟩ =
      ⟨ps.foldl (fun n p => n.declare p (script p)) n, none⟩ := by
  induction ps generalizing n with
  | nil => rfl
  | cons p ps ih =>
    obtain ⟨hp, hps⟩ := List.forall_mem_cons.mp h
    rw [List.flatMap_cons, List.map_append, List.foldl_append, foldl_step_block hp, ih hps,
      List.foldl_cons]

end Notes.Reader

/-! ## Tags -/

namespace Notes.Reader

variable {n : Notes}

/-- A tag outside of the blocks is a remark. -/
theorem step_remark {line : List Char} (htrim : trim line = line)
    (hopening : openingTag? line = none) : step ⟨n, none⟩ line = ⟨n.remark line, none⟩ := by
  simp only [step, htrim, hopening]

/-- A copy tag names the item that is copied, and says nothing about cooldowns. -/
theorem step_copyTag {ref : ItemRef} (h : ref.number ≤ nat32Max) :
    step ⟨n, none⟩ ref.copyTag.toList = ⟨{ n with copy := some ref }, none⟩ := by
  have hremark : n.remark ref.copyTag.toList = { n with copy := some ref } := by
    simp only [remark, ref.search_copyTag, ItemRef.copyTarget?_copyTag h, Option.some_or]
  have htrim := ref.tagLine.trim_eq
  have hopening := ref.tagLine.openingTag?_eq_none
  rw [← ref.toList_copyTag] at htrim hopening
  rw [step_remark htrim hopening, hremark]

/-- A cooldown tag is noted as the rule that it was written for. -/
theorem step_rule {rule : CooldownRule} (h : rule.Writable) :
    step ⟨n, none⟩ rule.text.toList =
      ⟨{ n with cooldown := n.cooldown.note rule.tag }, none⟩ := by
  have hremark : n.remark rule.text.toList = { n with cooldown := n.cooldown.note rule.tag } := by
    simp only [remark, rule.search_copyTagAt?, CooldownRule.find?_text h]
  have htrim := rule.tagLine.trim_eq
  have hopening := rule.tagLine.openingTag?_eq_none
  rw [← rule.toList_text] at htrim hopening
  rw [step_remark htrim hopening, hremark]

/-- The tags of a cooldown are noted one after the other. -/
theorem foldl_step_rules {rules : List CooldownRule} (h : ∀ rule ∈ rules, rule.Writable) :
    ((rules.map CooldownRule.text).map String.toList).foldl step ⟨n, none⟩ =
      ⟨{ n with cooldown := n.cooldown.noteAll rules }, none⟩ := by
  induction rules generalizing n with
  | nil => rfl
  | cons rule rules ih =>
    obtain ⟨hrule, hrules⟩ := List.forall_mem_cons.mp h
    rw [List.map_cons, List.map_cons, List.foldl_cons, step_rule hrule, ih hrules]
    rfl

end Notes.Reader

/-! ## Declarations -/

namespace Notes

/-- The declarations of scripts, one after the other. -/
theorem foldl_declare (script : Phase → Script) (ps : List Phase) (n : Notes) :
    ps.foldl (fun n p => n.declare p (script p)) n =
      { n with
        sequence := ps.foldl (fun s p => s.withScript p (script p)) n.sequence
        declared :=
          ps.foldl (fun seen p => if p ∈ seen then seen else seen ++ [p]) n.declared } := by
  induction ps generalizing n with
  | nil => rfl
  | cons p ps ih => exact ih (n.declare p (script p))

end Notes

namespace ActionSequence

/-- A sequence is known by its five scripts. -/
theorem ext_script {s t : ActionSequence} (h : ∀ p, s.script p = t.script p) : s = t := by
  have hsetup : s.setup = t.setup := h .setup
  have hwhole : s.whole = t.whole := h .whole
  have htarget : s.target = t.target := h .target
  have hfollow : s.follow = t.follow := h .follow
  have hfinish : s.finish = t.finish := h .finish
  cases s
  cases t
  simp_all

/-- Of a phase that is declared the script is the one declared, of any other the one it had. -/
theorem script_foldl_withScript (script : Phase → Script) (ps : List Phase) (s : ActionSequence)
    (q : Phase) :
    (ps.foldl (fun s p => s.withScript p (script p)) s).script q =
      if q ∈ ps then script q else s.script q := by
  induction ps generalizing s with
  | nil => simp
  | cons p ps ih =>
    rw [List.foldl_cons, ih, script_withScript]
    by_cases hq : q ∈ ps <;> by_cases hp : q = p <;> simp_all

end ActionSequence

/-! ## Texts -/

namespace Notes

open Reader

variable {n : Notes}

/-- What the declared blocks say is the whole sequence, for the other phases have the scripts of
every action. -/
theorem sequence_foldl (h : n.Writable) :
    n.declared.foldl (fun s p => s.withScript p (n.sequence.script p)) .standard = n.sequence := by
  refine ActionSequence.ext_script fun p => ?_
  rw [ActionSequence.script_foldl_withScript]
  split
  · rfl
  · next hp => exact (h.undeclared p hp).symm

theorem foldl_step_copy {ref? : Option ItemRef} (h : ∀ ref ∈ ref?, ref.number ≤ nat32Max)
    (hn : n.copy = none) :
    ((ref?.map ItemRef.copyTag).toList.map String.toList).foldl step ⟨n, none⟩ =
      ⟨{ n with copy := ref? }, none⟩ := by
  cases ref? with
  | none => cases n; cases hn; rfl
  | some ref =>
    rw [Option.map_some, Option.toList_some, List.map_singleton, List.foldl_cons, List.foldl_nil,
      step_copyTag (h ref rfl)]

/-- The lines are read as what the notes say. -/
theorem foldl_step_lines (h : n.Writable) (zeros : Bool) :
    ((n.lines zeros).map String.toList).foldl step {} =
      ⟨{ n with declared := distinct n.declared }, none⟩ := by
  have hrules : ∀ rule ∈ n.cooldown.tags zeros, rule.Writable := fun rule hrule =>
    CooldownRules.writable_of_mem_tags h.cooldown hrule
  -- blocks, copy tag and rules, each read by a reader that is outside of any block
  rw [lines, List.map_append, List.map_append, List.foldl_append, List.foldl_append,
    foldl_step_blocks h.declared, foldl_declare, foldl_step_copy h.copy rfl,
    foldl_step_rules hrules]
  simp only [sequence_foldl h, CooldownRules.noteAll_tags h.cooldown]
  rfl

/-- Every line is one line. -/
theorem newline_not_mem_lines (h : n.Writable) {zeros : Bool} {line : String}
    (hline : line ∈ n.lines zeros) : '\n' ∉ line.toList := by
  simp only [lines, List.mem_append, or_assoc] at hline
  -- the three kinds of lines: of a block, the copy tag, a rule
  obtain hblock | hcopy | hrule := hline
  · obtain ⟨p, hp, hmem⟩ := List.mem_flatMap.mp hblock
    have htags : '\n' ∉ ("<" ++ p.tag ++ " action>").toList ∧
        '\n' ∉ ("</" ++ p.tag ++ " action>").toList := by
      cases p <;> decide
    simp only [Phase.block, List.cons_append, List.mem_cons, List.mem_append, List.not_mem_nil,
      or_false] at hmem
    obtain rfl | hscript | rfl := hmem
    · exact htags.1
    · exact (h.declared p hp line hscript).single
    · exact htags.2
  · obtain ⟨ref, -, rfl⟩ := Option.map_eq_some_iff.mp (Option.mem_toList.mp hcopy)
    rw [ref.toList_copyTag]
    exact ref.tagLine.newline_not_mem
  · obtain ⟨rule, -, rfl⟩ := List.mem_map.mp hrule
    rw [rule.toList_text]
    exact rule.tagLine.newline_not_mem

/-- The first line begins with a bracket. -/
theorem head_lines {zeros : Bool} {line : String} (h : line ∈ (n.lines zeros).head?) :
    line.toList.head? = some '<' := by
  -- the first line comes from the first of the three lists that is not empty
  cases hdeclared : n.declared with
  | cons p ps =>
    rw [lines, hdeclared] at h
    cases h
    cases p <;> decide
  | nil =>
    cases hcopy : n.copy with
    | some ref =>
      rw [lines, hdeclared, hcopy] at h
      cases h
      rw [ref.toList_copyTag]
      rfl
    | none =>
      cases htags : n.cooldown.tags zeros with
      | nil =>
        rw [lines, hdeclared, hcopy, htags] at h
        cases h
      | cons rule rules =>
        rw [lines, hdeclared, hcopy, htags] at h
        cases h
        obtain ⟨cs, hname⟩ := exists_of_mem_tagNames rule.tagLine.known
        rw [rule.toList_text, hname]
        rfl

theorem toList_text (n : Notes) (zeros : Bool) :
    (n.text zeros).toList = join ['\n'] ((n.lines zeros).map String.toList) :=
  String.toList_intercalate

/-- The text is split into the lines. -/
theorem foldl_step_text (h : n.Writable) (zeros : Bool) :
    (splitOn (· == '\n') (n.text zeros).toList).foldl step {} =
      ((n.lines zeros).map String.toList).foldl step {} := by
  have hsingle : ∀ line ∈ (n.lines zeros).map String.toList, '\n' ∉ line := by
    intro cs hcs
    obtain ⟨line, hline, rfl⟩ := List.mem_map.mp hcs
    exact newline_not_mem_lines h hline
  rw [toList_text]
  cases hlines : (n.lines zeros).map String.toList with
  | nil =>
    -- an empty text still has one line, which says nothing
    decide +kernel
  | cons line rest =>
    rw [hlines] at hsingle
    rw [splitOn_join (List.cons_ne_nil line rest) hsingle]

/-- The text begins with a bracket, if it says anything. -/
theorem head_text {zeros : Bool} {c : Char} (h : c ∈ (n.text zeros).toList.head?) : c = '<' := by
  rw [toList_text] at h
  cases hlines : n.lines zeros with
  | nil =>
    rw [hlines] at h
    cases h
  | cons line rest =>
    have hbracket : line.toList.head? = some '<' :=
      head_lines (n := n) (by rw [hlines]; rfl)
    obtain ⟨cs, hline⟩ := List.head?_eq_some_iff.mp hbracket
    have hjoin : (join ['\n'] ((line :: rest).map String.toList)).head? = some '<' := by
      cases rest <;> simp [join, List.intercalate, hline]
    rw [hlines, hjoin] at h
    exact (Option.some.inj h).symm

/-- What is written has no byte order mark, for it begins with a bracket or is empty. -/
theorem dropMark_text (n : Notes) (zeros : Bool) :
    Utf8.dropMark (n.text zeros).toList = (n.text zeros).toList := by
  unfold Utf8.dropMark
  split
  · next cs hcs =>
    -- a mark in front would have to be a bracket
    have hmark : '\uFEFF' = '<' := head_text (n := n) (by rw [hcs]; rfl)
    cases hmark
  · rfl

/-- The text of notes is read as the notes, each phase declared once. -/
theorem ofString_text (h : n.Writable) (zeros : Bool) :
    ofString (n.text zeros) = { n with declared := distinct n.declared } := by
  rw [ofString, ofChars, dropMark_text, foldl_step_text h, foldl_step_lines h]
  rfl

/-- A text that is stored as UTF-8 is decoded as such. -/
theorem ofBytes_toUTF8 (s : String) : ofBytes s.toUTF8.data.toList none = .ok (ofString s) := by
  rw [ofBytes, Utf8.decode_toUTF8]
  rfl

/-- **Decoding undoes writing.** Notes that were written as text, with or without tags for numbers
that are zero anyway, are decoded as the notes, whatever tags the lines of their scripts look like.
Only a phase that is declared twice is declared once afterwards; so notes that declare no phase
twice are decoded exactly as they were. -/
theorem decode_text (h : n.Writable) (zeros : Bool) :
    ofBytes (n.text zeros).toUTF8.data.toList none =
        .ok { n with declared := distinct n.declared } ∧
      (n.declared.Nodup → ofBytes (n.text zeros).toUTF8.data.toList none = .ok n) := by
  have hdecode : ofBytes (n.text zeros).toUTF8.data.toList none =
      .ok { n with declared := distinct n.declared } := by
    rw [ofBytes_toUTF8, ofString_text h]
  refine ⟨hdecode, fun hnodup => ?_⟩
  rw [hdecode, distinct_eq_self hnodup]

/-- Notes with scripts that look like tags. -/
def lookalike : Notes where
  sequence := { ActionSequence.standard with
    setup := ["<whole action>", "</whole action>", "<cooldown: 3>", "<action copy: skill: 4>"]
    target := [] }
  declared := [.target, .setup]
  copy := some (.item 7)
  cooldown := {
    cooldown := some 2
    skillCooldown := ⟨[(4, 3), (1, 0)]⟩
    bypass := true
    steps := some 10
    afterBattle := some 1
    stypeChange := ⟨[(2, -6)]⟩
    globalChange := -5 }

theorem decode_text_lookalike :
    lookalike.Writable ∧ lookalike.declared.Nodup ∧
      ofBytes (lookalike.text false).toUTF8.data.toList none = .ok lookalike := by
  have hwritable : lookalike.Writable := {
    declared := by decide +kernel
    undeclared := by
      intro p hp
      cases p with
      | setup => exact absurd (by decide) hp
      | target => exact absurd (by decide) hp
      | whole => rfl
      | follow => rfl
      | finish => rfl
    copy := by decide
    cooldown := {
      cooldown := by decide
      skillCooldown := ⟨by decide, by decide, by decide⟩
      stypeCooldown := ⟨by decide, by decide, by decide⟩
      globalCooldown := by decide
      warmup := by decide
      steps := by decide
      afterBattle := by decide
      skillChange := ⟨by decide, by decide, by decide⟩
      stypeChange := ⟨by decide, by decide, by decide⟩
      globalChange := by decide } }
  have hnodup : lookalike.declared.Nodup := by decide
  exact ⟨hwritable, hnodup, (decode_text hwritable false).2 hnodup⟩

end Notes

end BattleScript
