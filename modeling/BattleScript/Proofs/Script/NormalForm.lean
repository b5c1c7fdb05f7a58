import BattleScript.Proofs.Text.Collapse

/-!
# Commands have a normal form

A line is read as a name and arguments, and these can be written as a line again: the name, a colon,
and the arguments with commas between them (`Command.text`). What is read from that line is the same
name and the same arguments, so the written form is a normal form of the line.

Which names and arguments come about in this way is said without reading: `IsName` and `IsArgument`.
Of the names and lists of arguments that look like this, only the list of a single blank argument is
never read, for its clause is blank and says that there are none. Everything rests on
`Command.read_text`, that the others are read as they were written.
-/

namespace BattleScript

open Text

namespace Command

/-- What the name of a command looks like. -/
structure IsName (name : String) : Prop where
  tidy : IsTidy name.toList
  colon : ':' ∉ name.toList
  upper : uppered name = name

/-- What an argument of a command looks like. -/
structure IsArgument (arg : String) : Prop where
  trimmed : IsTrimmed arg.toList
  comma : ',' ∉ arg.toList

/-- A name and arguments, written as a line. -/
def text (name : String) (args : List String) : String :=
  if args = [] then name else name ++ ":" ++ ",".intercalate args

variable {name arg : String} {args : List String} {cs : List Char}

/-! ## What is read -/

theorem toList_name (c : Command) : c.name.toList = join [' '] (c.words.map String.toList) :=
  String.toList_intercalate

/-- The words of a name are those of its text, in upper case. -/
theorem map_toList_wordsOfName (cs : List Char) :
    (wordsOfName cs).map String.toList = (Text.words cs).map upper := by
  simp [wordsOfName, Function.comp_def]

/-- The name of a command with the words of a text is the text in upper case with its blanks
collapsed. -/
theorem join_wordsOfName (cs : List Char) :
    join [' '] ((wordsOfName cs).map String.toList) = upper (join [' '] (Text.words cs)) := by
  rw [map_toList_wordsOfName, upper_join]

/-- The words of a name are words in upper case too, which brings in no blanks. -/
theorem isWord_of_mem_wordsOfName {w : List Char}
    (h : w ∈ (wordsOfName cs).map String.toList) : IsWord w := by
  rw [map_toList_wordsOfName] at h
  obtain ⟨v, hv, rfl⟩ := List.mem_map.mp h
  exact IsWord.upper (mem_words hv)

/-- Where there is no colon, nothing is cut off. -/
theorem cut_of_not_mem (h : ':' ∉ cs) : cut (· == ':') cs = (cs, none) := by
  induction cs with
  | nil => rfl
  | cons c cs ih =>
    obtain ⟨hc, hcs⟩ := List.ne_and_not_mem_of_not_mem_cons h
    rw [cut, if_neg (by simpa using Ne.symm hc), ih hcs]
    rfl

/-- What stands in front of the first colon has no colon. -/
theorem colon_not_mem_cut (cs : List Char) : ':' ∉ (cut (· == ':') cs).1 := by
  induction cs with
  | nil => simp [cut]
  | cons c cs ih =>
    rw [cut]
    split
    · simp
    · next hc =>
      show ':' ∉ c :: (cut (· == ':') cs).1
      rw [List.mem_cons, not_or]
      exact ⟨fun heq => hc (beq_iff_eq.mpr heq.symm), ih⟩

/-- Putting words together adds no colons. -/
theorem colon_not_mem_join_words (h : ':' ∉ cs) : ':' ∉ join [' '] (Text.words cs) := by
  intro hcolon
  rcases mem_join hcolon with hspace | ⟨w, hw, hmem⟩
  · cases hspace
  · exact h (mem_of_mem_splitOn (List.mem_of_mem_filter hw) hmem)

/-- Every line has a name that looks like one. -/
theorem isName_ofLine (line : String) : IsName (ofLine line).name := by
  have hname : (ofLine line).name.toList =
      upper (join [' '] (Text.words (cut (· == ':') (trim line.toList)).1)) := by
    rw [toList_name, ← join_wordsOfName]
    rfl
  -- tidy as its words are, without a colon as that was cut off, and in upper case for good
  constructor
  · rw [toList_name]
    exact isTidy_join fun w hw => isWord_of_mem_wordsOfName hw
  · rw [hname]
    exact colon_not_mem_upper (colon_not_mem_join_words (colon_not_mem_cut _))
  · rw [uppered, hname, upper_upper, ← hname, String.ofList_toList]

/-- Every argument that is read looks like one. -/
theorem isArgument_of_mem_argsOfClause {clause : List Char} (h : arg ∈ argsOfClause clause) :
    IsArgument arg := by
  unfold argsOfClause at h
  split at h
  · cases h
  · obtain ⟨piece, hpiece, rfl⟩ := List.mem_map.mp h
    constructor
    · rw [String.toList_ofList]
      exact isTrimmed_trim piece
    · rw [String.toList_ofList]
      intro hcomma
      have hno := not_mem_of_mem_splitOn hpiece ',' (mem_of_mem_trim hcomma)
      cases hno

/-- A clause that is not blank has no argument, or one that is not blank, or several. -/
theorem argsOfClause_ne_blank (clause : List Char) : argsOfClause clause ≠ [""] := by
  unfold argsOfClause
  split
  · simp
  · next hblank =>
    intro hargs
    obtain ⟨piece, hpieces, htrim⟩ := List.map_eq_singleton_iff.mp hargs
    -- a single piece is the whole clause
    have hpiece : clause = piece := by
      rw [← intercalate_splitOn ',' clause, hpieces, join_singleton]
    rw [hpiece] at hblank
    exact hblank (by simpa using congrArg String.toList htrim)

/-! ## Reading what was written -/

/-- The words of a name are those that it is made of. -/
theorem join_wordsOfName_of_isName (h : IsName name) :
    join [' '] ((wordsOfName name.toList).map String.toList) = name.toList := by
  rw [join_wordsOfName, join_words h.tidy, ← String.toList_ofList (l := upper name.toList)]
  exact congrArg String.toList h.upper

/-- The clause needs no trimming if its arguments need none. -/
theorem isTrimmed_join_args (hargs : ∀ arg ∈ args, IsArgument arg) :
    IsTrimmed (join [','] (args.map String.toList)) := by
  refine isTrimmed_join rfl ?_
  intro w hw
  obtain ⟨arg, harg, rfl⟩ := List.mem_map.mp hw
  exact (hargs arg harg).trimmed

/-- Arguments with commas between them are the arguments of a clause, unless there is just a blank
one. -/
theorem argsOfClause_join (hargs : ∀ arg ∈ args, IsArgument arg) (hne : args ≠ [])
    (h : args ≠ [""]) : argsOfClause (join [','] (args.map String.toList)) = args := by
  -- no argument has a comma, so the commas are those that were put in
  have hpieces : splitOn (· == ',') (join [','] (args.map String.toList)) =
      args.map String.toList := by
    refine splitOn_join (by simpa using hne) ?_
    intro w hw
    obtain ⟨arg, harg, rfl⟩ := List.mem_map.mp hw
    exact (hargs arg harg).comma
  have hclause : join [','] (args.map String.toList) ≠ [] := by
    intro hnil
    rw [hnil] at hpieces
    obtain ⟨arg, hsingle, harg⟩ := List.map_eq_singleton_iff.mp hpieces.symm
    exact h (by rw [hsingle, String.toList_eq_nil_iff.mp harg])
  rw [argsOfClause, (isTrimmed_join_args hargs).trim_eq, if_neg hclause, hpieces, List.map_map]
  refine (List.map_congr_left ?_).trans (List.map_id args)
  intro arg harg
  show String.ofList (trim arg.toList) = arg
  rw [(hargs arg harg).trimmed.trim_eq, String.ofList_toList]

/-- Names and arguments are read as they were written. -/
theorem read_text (hname : IsName name) (hargs : ∀ arg ∈ args, IsArgument arg) (h : args ≠ [""]) :
    (ofLine (text name args)).name = name ∧ (ofLine (text name args)).args = args := by
  suffices hread : (ofLine (text name args)).words = wordsOfName name.toList ∧
      (ofLine (text name args)).args = args by
    refine ⟨String.toList_injective ?_, hread.2⟩
    rw [toList_name, hread.1, join_wordsOfName_of_isName hname]
  -- a command without arguments is written without a colon
  by_cases hne : args = []
  · rw [text, if_pos hne, ofLine, hname.tidy.toIsTrimmed.trim_eq, cut_of_not_mem hname.colon]
    exact ⟨rfl, hne.symm⟩
  · have hline : trim (text name args).toList =
        name.toList ++ ':' :: join [','] (args.map String.toList) := by
      have htext : (text name args).toList =
          name.toList ++ ':' :: join [','] (args.map String.toList) := by
        rw [text, if_neg hne]
        simp [join]
      rw [htext]
      exact (hname.tidy.toIsTrimmed.append rfl (isTrimmed_join_args hargs)).trim_eq
    rw [ofLine_append hline hname.colon]
    exact ⟨rfl, argsOfClause_join hargs hne h⟩

/-- **Commands have a normal form.** Every line has a name with single spaces at most and without
a colon, in upper case, and trimmed arguments without commas, never just a blank one; and these,
written as a line, are read as they are. Nor is anything left out: every such name with every such
list of arguments is read as it was written. -/
theorem normal_form :
    (∀ line, let c := ofLine line
      IsName c.name ∧ (∀ arg ∈ c.args, IsArgument arg) ∧ c.args ≠ [""] ∧
        (ofLine (text c.name c.args)).name = c.name ∧
        (ofLine (text c.name c.args)).args = c.args) ∧
    ∀ name args, IsName name → (∀ arg ∈ args, IsArgument arg) → args ≠ [""] →
      (ofLine (text name args)).name = name ∧ (ofLine (text name args)).args = args := by
  constructor
  · intro line c
    have hname : IsName c.name := isName_ofLine line
    have hargs : ∀ arg ∈ c.args, IsArgument arg := fun arg harg =>
      isArgument_of_mem_argsOfClause harg
    have hblank : c.args ≠ [""] := argsOfClause_ne_blank _
    exact ⟨hname, hargs, hblank, read_text hname hargs hblank⟩
  · intro name args hname hargs hblank
    exact read_text hname hargs hblank

/-- Colons and blanks between commas stay in the arguments. -/
theorem normal_form_bell :
    IsName "PLAY SE" ∧ (∀ arg ∈ ["", "80:", "Bell 3", ""], IsArgument arg) ∧
      text "PLAY SE" ["", "80:", "Bell 3", ""] = "PLAY SE:,80:,Bell 3," ∧
      (ofLine "PLAY SE:,80:,Bell 3,").name = "PLAY SE" ∧
      (ofLine "PLAY SE:,80:,Bell 3,").args = ["", "80:", "Bell 3", ""] := by
  have hname : IsName "PLAY SE" :=
    ⟨⟨⟨by decide, by decide⟩, by decide, by decide⟩, by decide, by decide +kernel⟩
  have hargs : ∀ arg ∈ ["", "80:", "Bell 3", ""], IsArgument arg := by
    have htrimmed : ∀ arg ∈ ["", "80:", "Bell 3", ""], IsTrimmed arg.toList := by decide
    have hcomma : ∀ arg ∈ ["", "80:", "Bell 3", ""], ',' ∉ arg.toList := by decide
    intro arg harg
    exact ⟨htrimmed arg harg, hcomma arg harg⟩
  have htext : text "PLAY SE" ["", "80:", "Bell 3", ""] = "PLAY SE:,80:,Bell 3," := by
    decide +kernel
  have hread := normal_form.2 _ _ hname hargs (by decide)
  rw [htext] at hread
  exact ⟨hname, hargs, htext, hread⟩

end Command

end BattleScript
