import BattleScript.Proofs.Cooldown.Scope
import BattleScript.Proofs.Note.TagLine
import BattleScript.Proofs.Script.Integer
import BattleScript.Proofs.Target.Grammar
import Mathlib.Data.List.TakeWhile

/-!
# Writing cooldown commands

The line that adds to the cooldowns of a scope: the words that name the scope, whom it means, and
the number with its sign. It is read back as it was written, whatever the specifier is, as long as
there is no comma in it (`CooldownScope.ofLine_line`), and its words name the scope again if the
number of the scope fits (`CooldownScope.isNamedBy_nameChars`).
-/

namespace BattleScript

open Text

namespace CooldownScope

/-- How a command of the scope begins. -/
def title : CooldownScope → String
  | known => "GLOBAL"
  | skill n => "SKILL " ++ toString n
  | skillType stype => "STYPE " ++ toString stype

/-- The line that adds to the cooldowns in the scope, of those whom a specifier means. -/
def line (scope : CooldownScope) (target : String) (x : Int) : String :=
  scope.title ++ " COOLDOWN: " ++ target ++ ", " ++ numeralText true x

/-- The number that names the scope is an unsigned 32-bit one. -/
def Fits : CooldownScope → Prop
  | known => True
  | skill n | skillType n => n ≤ nat32Max

instance (scope : CooldownScope) : Decidable scope.Fits := by
  cases scope <;> unfold Fits <;> infer_instance

variable {scope : CooldownScope} {target : String} {x : Int}

/-- A word, a number and the word for cooldowns are read as these three words. -/
theorem wordsOfName_numbered {word : String} (hne : word.toList ≠ [])
    (hword : word.toList.all isCapital) (n : Nat) :
    Command.wordsOfName (word.toList ++ ' ' :: (Nat.toDigits 10 n ++ ' ' :: "COOLDOWN".toList)) =
      [word, toString n, "COOLDOWN"] := by
  have hdigit (c : Char) (hc : c ∈ Nat.toDigits 10 n) : isCapital c :=
    isCapital_of_isDigit (isDigit_of_mem_toDigits hc)
  have hcapitals {cs : List Char} (hcs : cs ≠ []) (h : ∀ c ∈ cs, isCapital c) :
      words cs = [cs] ∧ upper cs = cs :=
    ⟨words_of_word hcs fun c hc => isBlank_of_isCapital (h c hc),
      upper_eq_self fun c hc => upperChar_of_isCapital (h c hc)⟩
  -- digits are no letters, so their upper case is themselves
  obtain ⟨hwords, hupper⟩ := hcapitals hne (List.all_eq_true.mp hword)
  obtain ⟨hwords', hupper'⟩ := hcapitals Nat.toDigits_ne_nil hdigit
  have hlast : (words "COOLDOWN".toList).map (fun w => String.ofList (upper w)) = ["COOLDOWN"] := by
    decide +kernel
  have htoString : String.ofList (Nat.toDigits 10 n) = toString n :=
    String.toList_inj.mp (by rw [String.toList_ofList, toList_toString])
  rw [Command.wordsOfName, words_append (by decide), words_append (by decide), hwords, hwords',
    List.map_append, List.map_append, hlast, List.map_singleton, List.map_singleton, hupper,
    hupper', String.ofList_toList, htoString]
  rfl

/-- The name of a written line. -/
def nameChars (scope : CooldownScope) : List Char := scope.title.toList ++ " COOLDOWN".toList

/-- The words that are written for a scope name the scope. -/
theorem isNamedBy_nameChars (h : scope.Fits) :
    scope.IsNamedBy (Command.wordsOfName scope.nameChars) := by
  cases scope with
  | known =>
    show Command.wordsOfName known.nameChars = ["GLOBAL", "COOLDOWN"]
    decide +kernel
  | skill n =>
    have hname : (skill n).nameChars =
        "SKILL".toList ++ ' ' :: (Nat.toDigits 10 n ++ ' ' :: "COOLDOWN".toList) := by
      simp [nameChars, title]
    rw [hname, wordsOfName_numbered (by decide) (by decide)]
    exact ⟨toString n, by rw [toList_toString, nat32?_toDigits h], rfl⟩
  | skillType n =>
    have hname : (skillType n).nameChars =
        "STYPE".toList ++ ' ' :: (Nat.toDigits 10 n ++ ' ' :: "COOLDOWN".toList) := by
      simp [nameChars, title]
    rw [hname, wordsOfName_numbered (by decide) (by decide)]
    exact ⟨toString n, by rw [toList_toString, nat32?_toDigits h], .inl rfl⟩

/-! A number with its sign has no blanks at its ends, and is read back. -/

/-- A number is written with its sign, also when it is not negative. -/
theorem toList_signed (x : Int) :
    (numeralText true x).toList = (if x < 0 then '-' else '+') :: Nat.toDigits 10 x.natAbs := by
  rw [toList_numeralText, if_pos rfl]
  split <;> rfl

theorem isBlank_sign (x : Int) : isBlank (if x < 0 then '-' else '+') = false := by
  split <;> decide

/-- Nothing that ends with a number ends with a blank. -/
theorem isBlank_getLast?_signed (cs : List Char) (x : Int) :
    ∀ c ∈ (cs ++ (numeralText true x).toList).getLast?, isBlank c = false := by
  rcases List.eq_nil_or_concat (Nat.toDigits 10 x.natAbs) with hnil | ⟨init, d, hdigits⟩
  · exact absurd hnil Nat.toDigits_ne_nil
  · rw [List.concat_eq_append] at hdigits
    have hd : d.isDigit :=
      isDigit_of_mem_toDigits (hdigits ▸ List.mem_append_right _ List.mem_cons_self)
    intro c hc
    rw [toList_signed, hdigits, ← List.cons_append, ← List.append_assoc, List.getLast?_concat] at hc
    cases hc
    exact isBlank_of_isDigit hd

/-- A written number has no blanks to trim. -/
theorem trim_signed (x : Int) : trim (numeralText true x).toList = (numeralText true x).toList := by
  refine trim_of_ends ?_ (isBlank_getLast?_signed [] x)
  rw [toList_signed]
  intro c hc
  cases hc
  exact isBlank_sign x

theorem isSigned_signed (x : Int) : Operand.IsSigned (numeralText true x) := by
  rw [Operand.IsSigned, trim_signed, toList_signed]
  split <;> simp

/-- A number with its sign is an integer, and this number. -/
theorem isInteger_signed (x : Int) : IsInteger (numeralText true x).toList x := by
  have hdigits := isDigits_toDigits x.natAbs
  rw [toList_signed]
  split
  · have hminus := IsInteger.minus hdigits
    rwa [show -(x.natAbs : Int) = x by omega] at hminus
  · have hplus := IsInteger.plus hdigits
    rwa [show (x.natAbs : Int) = x by omega] at hplus

/-- A number in the range is read back. -/
theorem int?_signed (h : FitsInt32 x) : Operand.int? (numeralText true x) = some x := by
  have hopens : OpensWithInteger (numeralText true x).toList x :=
    ⟨[], _, [], by simp, by simp, isInteger_signed x, by simp⟩
  rw [Operand.int?_of_opens hopens, if_pos h]

/-! A written line is read back. -/

theorem not_mem_toDigits {c : Char} (h : c.isDigit = false) (n : Nat) : c ∉ Nat.toDigits 10 n := by
  intro hc
  rw [isDigit_of_mem_toDigits hc] at h
  cases h

/-- The two arguments are cut at the comma between them. -/
theorem argsOfClause_written (h : ',' ∉ target.toList) (x : Int) :
    Command.argsOfClause (' ' :: target.toList ++ ',' :: ' ' :: (numeralText true x).toList) =
      [trimmed target, numeralText true x] := by
  have hnumber : ',' ∉ ' ' :: (numeralText true x).toList := by
    rw [toList_signed]
    have hdigits : ',' ∉ Nat.toDigits 10 x.natAbs := not_mem_toDigits rfl _
    split <;> simp [hdigits]
  have hcomma : ',' ∉ ' ' :: target.toList := by simpa using h
  have hmem : ',' ∈ ' ' :: target.toList ++ ',' :: ' ' :: (numeralText true x).toList := by simp
  -- the clause is not blank, for it has a comma
  have hne : trim (' ' :: target.toList ++ ',' :: ' ' :: (numeralText true x).toList) ≠ [] := by
    intro hnil
    obtain ⟨w, hw, -⟩ := exists_word_of_mem hmem (by decide)
    rw [← words_trim, hnil] at hw
    cases hw
  rw [Command.argsOfClause, if_neg hne, splitOn_append hcomma, splitOn_of_not_mem hnumber]
  simp only [List.map_cons, List.map_nil, trim_cons_blank (show isBlank ' ' by decide), trim_signed,
    String.ofList_toList]
  rfl

/-- A written line is read as its words and its two arguments. -/
theorem ofLine_line (h : ',' ∉ target.toList) (scope : CooldownScope) (x : Int) :
    Command.ofLine (scope.line target x) =
      ⟨Command.wordsOfName scope.nameChars, [trimmed target, numeralText true x],
        scope.line target x⟩ := by
  have hline : (scope.line target x).toList =
      scope.nameChars ++
        ':' :: (' ' :: target.toList ++ ',' :: ' ' :: (numeralText true x).toList) := by
    simp [line, nameChars]
  have htrim : trim (scope.line target x).toList = (scope.line target x).toList := by
    refine trim_of_ends ?_ ?_
    · rw [line]
      cases scope <;> simp [title, isBlank]
    · rw [line, String.toList_append]
      exact isBlank_getLast?_signed _ x
  -- no name of a scope has a colon, so the first colon is the one that was written
  have hname : ':' ∉ scope.nameChars := by
    have hdigits (n : Nat) : ':' ∉ Nat.toDigits 10 n := not_mem_toDigits rfl n
    cases scope <;> simp [nameChars, title, hdigits]
  rw [Command.ofLine_append (htrim.trans hline) hname, argsOfClause_written h, ← hline,
    String.ofList_toList]

end CooldownScope

end BattleScript
