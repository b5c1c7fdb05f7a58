import BattleScript.Proofs.Note.RoundTrip
import BattleScript.Proofs.Text.Collapse
import Mathlib.Logic.Relation

/-!
# The layout of notes does not matter

Line ends, blanks at the ends of lines and blank lines can be edited (`LayoutEdit`) without a change
to what a note text says. The reader trims every line and passes over blank ones, inside and outside
of blocks, so all that it takes from a text are its lines that are not blank, trimmed
(`Notes.ofChars_eq`); and this, the `content` of the text, is kept by every edit
(`LayoutEdit.content_eq`).

A byte order mark counts as layout only at the very start, and is a character like any other when
something stands before it. Edits that put something there or take it away are the ones that do
matter (`Notes.decode_layout_before_mark`).
-/

namespace BattleScript

namespace Text

variable {b : Char} {bs cs ds xs ys : List Char}

/-! ## What lines say -/

/-- The lines that are not blank, without the blanks at their ends. -/
def said (lines : List (List Char)) : List (List Char) := (lines.map trim).filter (· ≠ [])

/-- What the lines of the text say. -/
def content (cs : List Char) : List (List Char) := said (splitOn (· == '\n') cs)

/-- A blank line says nothing, any other what it is when trimmed. -/
theorem said_cons (line : List Char) (lines : List (List Char)) :
    said (line :: lines) = if trim line = [] then said lines else trim line :: said lines := by
  by_cases h : trim line = [] <;> simp [said, h]

theorem said_append (lines lines' : List (List Char)) :
    said (lines ++ lines') = said lines ++ said lines' := by
  simp [said]

/-- What stands on both sides of a line feed is said apart. -/
theorem content_append_lineFeed (xs ys : List Char) :
    content (xs ++ '\n' :: ys) = content xs ++ content ys := by
  rw [content, splitOn_append_cons rfl, said_append, content, content]

/-- A blank in front of a text is one in front of its first line, or a blank line. -/
theorem content_cons_blank (hb : isBlank b) (cs : List Char) : content (b :: cs) = content cs := by
  by_cases hfeed : b = '\n'
  · subst hfeed
    exact content_append_lineFeed [] cs
  · rw [content, content, splitOn, if_neg (by simpa using hfeed)]
    cases splitOn (· == '\n') cs with
    | nil => rfl
    | cons line lines => rw [List.modifyHead_cons, said_cons, said_cons, trim_cons_blank hb]

/-- So are any number of them. -/
theorem content_blanks_append (hbs : ∀ b ∈ bs, isBlank b) (cs : List Char) :
    content (bs ++ cs) = content cs := by
  induction bs with
  | nil => rfl
  | cons b bs ih =>
    obtain ⟨hb, hbs⟩ := List.forall_mem_cons.mp hbs
    rw [List.cons_append, content_cons_blank hb, ih hbs]

/-- A text of blanks says nothing. -/
theorem content_blanks (hbs : ∀ b ∈ bs, isBlank b) : content bs = [] := by
  have hblanks := content_blanks_append hbs []
  rwa [List.append_nil] at hblanks

/-- The last line may end with a blank. -/
theorem content_append_blank (hb : isBlank b) (cs : List Char) :
    content (cs ++ [b]) = content cs := by
  by_cases hfeed : b = '\n'
  · subst hfeed
    rw [content_append_lineFeed]
    exact List.append_nil _
  · -- the lines before the last one are those of the text up to its last line feed
    suffices h : ∀ line, '\n' ∉ line → content (line ++ cs ++ [b]) = content (line ++ cs) from
      h [] List.not_mem_nil
    induction cs with
    | nil =>
      intro line hline
      have hconcat : '\n' ∉ line ++ [b] := by simpa [hline] using Ne.symm hfeed
      rw [List.append_nil, content, content, splitOn_of_not_mem hconcat, splitOn_of_not_mem hline,
        said_cons, said_cons, trim_append_blanks (List.forall_mem_singleton.mpr hb)]
    | cons c cs ih =>
      intro line hline
      by_cases hc : c = '\n'
      · subst hc
        have hrest := ih [] List.not_mem_nil
        rw [List.append_assoc, List.cons_append, content_append_lineFeed, content_append_lineFeed]
        exact congrArg (content line ++ ·) hrest
      · have hnext : '\n' ∉ line ++ [c] := by simpa [hline] using Ne.symm hc
        have hrest := ih (line ++ [c]) hnext
        rwa [List.append_assoc line, List.singleton_append] at hrest

/-- Blanks behind a text say nothing either. -/
theorem content_append_blanks (hbs : ∀ b ∈ bs, isBlank b) (cs : List Char) :
    content (cs ++ bs) = content cs := by
  induction bs generalizing cs with
  | nil => rw [List.append_nil]
  | cons b bs ih =>
    obtain ⟨hb, hbs⟩ := List.forall_mem_cons.mp hbs
    rw [List.append_cons, ih hbs, content_append_blank hb]

/-! ## Edits -/

/-- A line begins behind the text. -/
def AtLineStart (xs : List Char) : Prop := ∀ c ∈ xs.getLast?, c = '\n'

/-- A line ends in front of the text. -/
def AtLineEnd (ys : List Char) : Prop := ∀ c ∈ ys.head?, c = '\n'

instance (xs : List Char) : Decidable (AtLineStart xs) := by unfold AtLineStart; infer_instance

/-- One edit to the layout of a text, in the direction that makes it longer. -/
inductive LayoutEdit : List Char → List Char → Prop
  /-- A line feed becomes a carriage return and a line feed. -/
  | carriageReturn (xs ys : List Char) : LayoutEdit (xs ++ '\n' :: ys) (xs ++ '\r' :: '\n' :: ys)
  /-- Blanks come before a line. -/
  | indent {xs bs : List Char} (hxs : AtLineStart xs) (hbs : ∀ b ∈ bs, isBlank b ∧ b ≠ '\n')
    (ys : List Char) : LayoutEdit (xs ++ ys) (xs ++ (bs ++ ys))
  /-- Blanks come after a line. -/
  | trail (xs : List Char) {bs ys : List Char} (hbs : ∀ b ∈ bs, isBlank b ∧ b ≠ '\n')
    (hys : AtLineEnd ys) : LayoutEdit (xs ++ ys) (xs ++ (bs ++ ys))
  /-- A blank line comes before a line. -/
  | blankLine {xs bs : List Char} (hxs : AtLineStart xs) (hbs : ∀ b ∈ bs, isBlank b ∧ b ≠ '\n')
    (ys : List Char) : LayoutEdit (xs ++ ys) (xs ++ (bs ++ '\n' :: ys))
  /-- A blank line comes after the last one. -/
  | lastBlankLine (xs : List Char) {bs : List Char} (hbs : ∀ b ∈ bs, isBlank b ∧ b ≠ '\n') :
    LayoutEdit xs (xs ++ '\n' :: bs)

/-- Blanks at the start of a line, perhaps with line feeds among them, do not change what is said.
-/
theorem content_insert_atLineStart (hxs : AtLineStart xs) (hbs : ∀ b ∈ bs, isBlank b)
    (ys : List Char) : content (xs ++ (bs ++ ys)) = content (xs ++ ys) := by
  rcases List.eq_nil_or_concat xs with rfl | ⟨init, c, rfl⟩
  · exact content_blanks_append hbs ys
  · rw [List.concat_eq_append] at hxs ⊢
    rw [hxs c (by simp), List.append_assoc, List.append_assoc, List.singleton_append,
      List.singleton_append, content_append_lineFeed, content_append_lineFeed,
      content_blanks_append hbs]

/-- Nor do blanks at the end of a line. -/
theorem content_insert_atLineEnd (xs : List Char) (hbs : ∀ b ∈ bs, isBlank b)
    (hys : AtLineEnd ys) : content (xs ++ (bs ++ ys)) = content (xs ++ ys) := by
  rw [← List.append_assoc]
  cases ys with
  | nil => rw [List.append_nil, List.append_nil, content_append_blanks hbs]
  | cons c ys =>
    rw [hys c rfl, content_append_lineFeed, content_append_lineFeed, content_append_blanks hbs]

/-- **An edit to the layout of a text keeps what its lines say.** -/
theorem LayoutEdit.content_eq (h : LayoutEdit cs ds) : content cs = content ds := by
  cases h with
  | carriageReturn xs ys =>
    -- the carriage return is a blank at the end of its line
    have hreturn : ∀ b ∈ ['\r'], isBlank b := List.forall_mem_singleton.mpr rfl
    have hend : AtLineEnd ('\n' :: ys) := fun c hc => (Option.some.inj hc).symm
    exact (content_insert_atLineEnd xs hreturn hend).symm
  | indent hxs hbs ys => exact (content_insert_atLineStart hxs (fun b hb => (hbs b hb).1) ys).symm
  | trail xs hbs hys => exact (content_insert_atLineEnd xs (fun b hb => (hbs b hb).1) hys).symm
  | @blankLine xs bs hxs hbs ys =>
    -- a blank line is blanks in front of the line that follows it
    have hblanks : ∀ b ∈ bs ++ ['\n'], isBlank b := by
      intro b hb
      rcases List.mem_append.mp hb with hb | hb
      · exact (hbs b hb).1
      · rw [List.mem_singleton.mp hb]
        rfl
    have hinsert := content_insert_atLineStart hxs hblanks ys
    rw [List.append_assoc, List.singleton_append] at hinsert
    exact hinsert.symm
  | lastBlankLine xs hbs =>
    rw [content_append_lineFeed, content_blanks fun b hb => (hbs b hb).1, List.append_nil]

/-- So do any edits, backwards as well. -/
theorem content_eq_of_edits (h : Relation.EqvGen LayoutEdit cs ds) : content cs = content ds := by
  induction h with
  | rel _ _ h => exact h.content_eq
  | refl _ => rfl
  | symm _ _ _ ih => exact ih.symm
  | trans _ _ _ _ _ ih ih' => exact ih.trans ih'

/-- To trim the end first makes no difference. -/
theorem trim_trimEnd (cs : List Char) : trim (trimEnd cs) = trim cs := by
  obtain ⟨bs, hbs, hcs⟩ := exists_trimEnd_append cs
  rw [← trim_append_blanks hbs (trimEnd cs), hcs]

/-- A character that is no blank is at the head of what a text says that begins with it. -/
theorem exists_content_cons (hb : isBlank b = false) (cs : List Char) :
    ∃ line lines, content (b :: cs) = (b :: line) :: said lines ∧
      content cs = said (line :: lines) := by
  have hfeed : b ≠ '\n' := by
    rintro rfl
    cases hb
  cases hcs : splitOn (· == '\n') cs with
  | nil => exact absurd hcs (splitOn_ne_nil _ cs)
  | cons line lines =>
    refine ⟨trimEnd line, lines, ?_, ?_⟩
    · rw [content, splitOn, if_neg (by simpa using hfeed), hcs, List.modifyHead_cons, said_cons,
        trim_cons hb, if_neg (List.cons_ne_nil _ _)]
    · rw [content, hcs, said_cons, said_cons, trim_trimEnd]

/-- What is said behind a character that is no blank is known from what is said with it. -/
theorem content_tail (hb : isBlank b = false) (h : content (b :: cs) = content (b :: ds)) :
    content cs = content ds := by
  obtain ⟨line, lines, hcons, hcs⟩ := exists_content_cons hb cs
  obtain ⟨line', lines', hcons', hds⟩ := exists_content_cons hb ds
  rw [hcons, hcons', List.cons_eq_cons, List.cons_eq_cons] at h
  obtain ⟨⟨-, hline⟩, hlines⟩ := h
  rw [hcs, hds, said_cons, said_cons, hline, hlines]

end Text

open Text

namespace Notes

/-! ## Reading -/

namespace Reader

/-- The reader trims every line itself. -/
theorem step_trim (r : Reader) (line : List Char) : r.step (trim line) = r.step line := by
  rw [step, step, (isTrimmed_trim line).trim_eq]

/-- A blank line is passed over, in a block and outside. -/
theorem step_blank {line : List Char} (h : trim line = []) (r : Reader) : r.step line = r := by
  have hclosing : closingTag? [] = none := by decide +kernel
  have hopening : openingTag? [] = none := by decide +kernel
  have hcopy : search copyTagAt? [] = none := by decide +kernel
  have hcooldown : CooldownTag.find? [] = none := by decide +kernel
  obtain ⟨n, block⟩ := r
  cases block with
  | none => simp only [step, h, hopening, remark, hcopy, hcooldown]
  | some block => simp only [step, h, hclosing, reduceCtorEq, if_false, if_true]

/-- Only what the lines say is read of them. -/
theorem foldl_step_said (lines : List (List Char)) (r : Reader) :
    (said lines).foldl step r = lines.foldl step r := by
  induction lines generalizing r with
  | nil => rfl
  | cons line lines ih =>
    rw [said_cons, List.foldl_cons]
    by_cases h : trim line = []
    · rw [if_pos h, ih, step_blank h]
    · rw [if_neg h, List.foldl_cons, ih, step_trim]

end Reader

/-- **Notes are what the lines of the text say.** -/
theorem ofChars_eq (cs : List Char) : ofChars cs = ((content cs).foldl Reader.step {}).close := by
  rw [content, Reader.foldl_step_said, ofChars]

/-- Texts that say the same are read as the same notes. -/
theorem ofChars_congr {cs ds : List Char} (h : content cs = content ds) :
    ofChars cs = ofChars ds := by
  rw [ofChars_eq, ofChars_eq, h]

/-! ## Decoding -/

/-- The UTF-8 bytes of the text. -/
def bytes (s : String) : List UInt8 := s.toUTF8.data.toList

/-- The UTF-8 bytes of the byte order mark. -/
def markBytes : List UInt8 := [0xEF, 0xBB, 0xBF]

/-- The text begins with a byte order mark. -/
def Marked (s : String) : Prop := s.toList.head? = some '\uFEFF'

instance (s : String) : Decidable (Marked s) := by unfold Marked; infer_instance

/-- The bytes are decoded, both as the same notes. -/
def DecodedAlike (bs bs' : List UInt8) : Prop :=
  ∃ n, ofBytes bs none = .ok n ∧ ofBytes bs' none = .ok n

variable {s t : String}

/-- The bytes of a text are decoded as the text without its mark. -/
theorem ofBytes_bytes (s : String) :
    ofBytes (bytes s) none = .ok (ofChars (Utf8.dropMark s.toList)) :=
  ofBytes_toUTF8 s

/-- A mark in front of the bytes is dropped, and nothing else. -/
theorem ofBytes_markBytes (s : String) :
    ofBytes (markBytes ++ bytes s) none = .ok (ofChars s.toList) := by
  have hdecode : Utf8.decode (markBytes ++ bytes s) = Utf8.decodeFrom none (bytes s) := rfl
  rw [ofBytes, hdecode, bytes, Utf8.toList_toUTF8, Utf8.decodeFrom_flatMap]

/-- Without a mark there is nothing to drop. -/
theorem dropMark_of_not_marked (h : ¬ Marked s) : Utf8.dropMark s.toList = s.toList := by
  unfold Utf8.dropMark
  split
  · next cs hcs => exact absurd (by rw [Marked, hcs]; rfl) h
  · rfl

/-- If both texts begin with a mark or neither does, they say the same without it as with it. -/
theorem content_dropMark (h : content s.toList = content t.toList) (hmark : Marked s ↔ Marked t) :
    content (Utf8.dropMark s.toList) = content (Utf8.dropMark t.toList) := by
  by_cases hs : Marked s
  · obtain ⟨cs, hcs⟩ := List.head?_eq_some_iff.mp hs
    obtain ⟨ds, hds⟩ := List.head?_eq_some_iff.mp (hmark.mp hs)
    rw [hcs, hds] at h ⊢
    exact content_tail rfl h
  · have ht : ¬ Marked t := fun ht => hs (hmark.mpr ht)
    rw [dropMark_of_not_marked hs, dropMark_of_not_marked ht]
    exact h

/-- **The layout of notes does not matter.** A text that comes from another by edits to its layout
is decoded as the same notes, as long as both begin with a byte order mark or neither does. Behind
a mark the text may be edited freely; and a mark may be put in front of a text that begins with
none. -/
theorem decode_layout :
    (∀ s t : String, Relation.EqvGen LayoutEdit s.toList t.toList → (Marked s ↔ Marked t) →
      DecodedAlike (bytes s) (bytes t)) ∧
    (∀ s t : String, Relation.EqvGen LayoutEdit s.toList t.toList →
      DecodedAlike (markBytes ++ bytes s) (markBytes ++ bytes t)) ∧
    ∀ s : String, ¬ Marked s → DecodedAlike (markBytes ++ bytes s) (bytes s) := by
  refine ⟨?_, ?_, ?_⟩
  · intro s t h hmark
    have hcontent := content_dropMark (content_eq_of_edits h) hmark
    refine ⟨_, ofBytes_bytes s, ?_⟩
    rw [ofBytes_bytes, ofChars_congr hcontent]
  · intro s t h
    refine ⟨_, ofBytes_markBytes s, ?_⟩
    rw [ofBytes_markBytes, ofChars_congr (content_eq_of_edits h)]
  · intro s hmark
    refine ⟨_, ofBytes_markBytes s, ?_⟩
    rw [ofBytes_bytes, dropMark_of_not_marked hmark]

/-- A line end, an indentation and a blank line in a block. -/
theorem decode_layout_block :
    let s := "<setup>\nwait: 5\n</setup>"
    let t := "<setup>\r\n\t\n  wait: 5\n</setup>"
    Relation.EqvGen LayoutEdit s.toList t.toList ∧ (Marked s ↔ Marked t) ∧ ¬ Marked s ∧
      DecodedAlike (bytes s) (bytes t) ∧
      DecodedAlike (markBytes ++ bytes s) (markBytes ++ bytes t) ∧
      DecodedAlike (markBytes ++ bytes s) (bytes s) := by
  intro s t
  have hedits : Relation.EqvGen LayoutEdit s.toList t.toList := by
    have hreturn : LayoutEdit "<setup>\nwait: 5\n</setup>".toList
        "<setup>\r\nwait: 5\n</setup>".toList :=
      .carriageReturn "<setup>".toList "wait: 5\n</setup>".toList
    have hblank : LayoutEdit "<setup>\r\nwait: 5\n</setup>".toList
        "<setup>\r\n\t\nwait: 5\n</setup>".toList :=
      @LayoutEdit.blankLine "<setup>\r\n".toList ['\t'] (by decide) (by decide)
        "wait: 5\n</setup>".toList
    have hindent : LayoutEdit "<setup>\r\n\t\nwait: 5\n</setup>".toList
        "<setup>\r\n\t\n  wait: 5\n</setup>".toList :=
      @LayoutEdit.indent "<setup>\r\n\t\n".toList [' ', ' '] (by decide) (by decide)
        "wait: 5\n</setup>".toList
    exact (Relation.EqvGen.rel _ _ hreturn).trans _ _ _
      ((Relation.EqvGen.rel _ _ hblank).trans _ _ _ (.rel _ _ hindent))
  have hs : ¬ Marked s := by decide
  have ht : ¬ Marked t := by decide
  have hmark : Marked s ↔ Marked t := iff_of_false hs ht
  exact ⟨hedits, hmark, hs, decode_layout.1 s t hedits hmark, decode_layout.2.1 s t hedits,
    decode_layout.2.2 s hs⟩

/-- A blank line in front of a byte order mark makes it a character of the line behind it, which is
no tag then. -/
theorem decode_layout_before_mark :
    let s := "\uFEFF<setup>\nwait: 5\n</setup>"
    let t := "\n\uFEFF<setup>\nwait: 5\n</setup>"
    LayoutEdit s.toList t.toList ∧
      ofBytes (bytes s) none = .ok (({} : Notes).declare .setup ["wait: 5"]) ∧
      ofBytes (bytes t) none = .ok {} ∧ ¬ DecodedAlike (bytes s) (bytes t) := by
  intro s t
  have hedit : LayoutEdit "\uFEFF<setup>\nwait: 5\n</setup>".toList
      "\n\uFEFF<setup>\nwait: 5\n</setup>".toList :=
    @LayoutEdit.blankLine [] [] (by decide) (by decide)
      "\uFEFF<setup>\nwait: 5\n</setup>".toList
  have hs : ofBytes (bytes s) none = .ok (({} : Notes).declare .setup ["wait: 5"]) := by
    rw [ofBytes_bytes]
    decide +kernel
  have ht : ofBytes (bytes t) none = .ok {} := by
    rw [ofBytes_bytes]
    decide +kernel
  refine ⟨hedit, hs, ht, ?_⟩
  rintro ⟨n, hn, hn'⟩
  rw [hs] at hn
  rw [ht] at hn'
  have heq : ({} : Notes).declare .setup ["wait: 5"] = {} :=
    (Except.ok.inj hn).trans (Except.ok.inj hn').symm
  -- one of the two has a script, and the other has none
  revert heq
  decide

end Notes

end BattleScript
