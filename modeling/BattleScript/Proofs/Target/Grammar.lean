import BattleScript.Proofs.Text.Collapse
import BattleScript.Proofs.Text.Scan
import BattleScript.Target.Spec

/-!
# The grammar of target specifiers

`TargetSpec.Spelled` says in which words a specifier can be written: a fixed phrase, a group of a
side, or a place. The words are tried against phrases, groups and places in turn, and some of them
occur in all three (`ALL ALIVE`, `ALL ACTORS`, `ALL NOT USER`), but what is read is exactly what
is spelled (`TargetSpec.ofWords?_eq_some_iff`). So no words have two readings.

What comes before that, in `TargetSpec.ofString?_eq_some_iff`, is that a text is read by its words
in upper case, wherever its blanks are (`Text.words_join`, `Text.words_of_spread`).

The words are made of letters and digits (`TargetSpec.Spelled.word`), which leaves no place for a
comma: a specifier stays in one piece as an argument of a command.
-/

namespace BattleScript

open Text

/-- Whether a word is made of ASCII letters and digits. -/
def Text.isPlain (w : String) : Bool := w.toList.all Char.isAlphanum

/-! ## Spellings -/

/-- The word for a side in the plural. -/
def SideRef.plural : SideRef → String
  | .fixed .actor => "ACTORS"
  | .fixed .enemy => "ENEMIES"
  | .friends => "FRIENDS"
  | .opponents => "OPPONENTS"

/-- The word for a side in the singular. -/
def SideRef.singular : SideRef → String
  | .fixed .actor => "ACTOR"
  | .fixed .enemy => "ENEMY"
  | .friends => "FRIEND"
  | .opponents => "OPPONENT"

/-- The word that says which members are meant. -/
def Life.word : Life → String
  | .alive => "ALIVE"
  | .any => "ALL"
  | .dead => "DEAD"

/-- What may stand in front of a side to say which members are meant. -/
def Life.openings : Life → List (List String)
  | .alive => [[], ["EXISTING"], ["ALIVE"]]
  | .any => [["ALL"]]
  | .dead => [["DEAD"]]

namespace TargetSpec

/-- The fixed phrases for a specifier. -/
def phrases : TargetSpec → List (List String)
  | .user => [["USER"], ["SUBJECT"]]
  | .targets => [["TARGET"], ["TARGETS"]]
  | .allAlive => [["ALL", "ALIVE"]]
  | .allMembers => [["ALL", "MEMBERS"]]
  | .allDead => [["ALL", "DEAD"]]
  | .allNotUser => [["ALL", "NOT", "USER"]]
  | .focus => [["FOCUS"], ["PARTICIPANTS"]]
  | .notFocus => [["NOT", "FOCUS"], ["NONPARTICIPANTS"]]
  | .group .. | .slot .. | .character .. => []

/-- The words are a spelling of the specifier. -/
inductive Spelled : TargetSpec → List String → Prop
  | phrase {spec : TargetSpec} {ws : List String} (h : ws ∈ spec.phrases) : Spelled spec ws
  | group {side : SideRef} {life : Life} {opening : List String} (h : opening ∈ life.openings) :
    Spelled (.group side life false) (opening ++ [side.plural])
  | groupNotUser {side : SideRef} {life : Life} {opening : List String}
    (h : opening ∈ life.openings) :
    Spelled (.group side life true) (opening ++ [side.plural, "NOT", "USER"])
  | slot {side : SideRef} {ds : String} {n : Nat} (h : IsNumeral ds.toList n) :
    Spelled (.slot side n) [side.singular, ds]
  | character {ds : String} {n : Nat} (h : IsNumeral ds.toList n) :
    Spelled (.character n) ["CHARACTER", ds]

/-- The canonical words of a specifier. -/
def canonical : TargetSpec → List String
  | .user => ["USER"]
  | .targets => ["TARGETS"]
  | .group side life false => [life.word, side.plural]
  | .group side life true => [life.word, side.plural, "NOT", "USER"]
  | .slot side n => [side.singular, toString n]
  | .character n => ["CHARACTER", toString n]
  | .allAlive => ["ALL", "ALIVE"]
  | .allMembers => ["ALL", "MEMBERS"]
  | .allDead => ["ALL", "DEAD"]
  | .allNotUser => ["ALL", "NOT", "USER"]
  | .focus => ["FOCUS"]
  | .notFocus => ["NOT", "FOCUS"]

/-- The number of a place, if the specifier is one, is less than 2³². -/
def Fits : TargetSpec → Prop
  | .slot _ n | .character n => n < 2 ^ 32
  | _ => True

variable {spec spec' : TargetSpec} {ws : List String} {w ds s : String} {n : Nat}

/-! ## Reading words -/

/-- The words for groups of a side. -/
theorem sideOfPlural?_eq_some_iff {side : SideRef} :
    sideOfPlural? w = some side ↔ w = side.plural := by
  constructor
  · intro h
    unfold sideOfPlural? at h
    split at h <;> cases h <;> rfl
  · rintro rfl
    rcases side with (_ | _) | _ | _ <;> rfl

/-- The words for places of a side. -/
theorem sideOfSingular?_eq_some_iff {side : SideRef} :
    sideOfSingular? w = some side ↔ w = side.singular := by
  constructor
  · intro h
    unfold sideOfSingular? at h
    split at h <;> cases h <;> rfl
  · rintro rfl
    rcases side with (_ | _) | _ | _ <;> rfl

/-- The words that say whether the members have to be alive. -/
theorem lifeOfWord?_eq_some_iff {life : Life} :
    lifeOfWord? w = some life ↔ [w] ∈ life.openings := by
  constructor
  · intro h
    unfold lifeOfWord? at h
    split at h <;> cases h <;> decide
  · intro h
    cases life <;> simp [Life.openings] at h
    · rcases h with rfl | rfl <;> rfl
    · rw [h]; rfl
    · rw [h]; rfl

/-- What is read as a phrase is one of the phrases. -/
theorem spelled_of_phrase? (h : phrase? ws = some spec) : Spelled spec ws := by
  unfold phrase? at h
  split at h
  all_goals first
    | cases h; exact .phrase (by decide)
    | cases h

/-- What is read as a group has its opening, the plural of its side, and the user left out or not.
-/
theorem spelled_of_group? (h : group? ws = some spec) : Spelled spec ws := by
  unfold group? at h
  -- with or without an opening, with or without the user
  split at h
  · obtain ⟨side, hside, rfl⟩ := Option.map_eq_some_iff.mp h
    rw [sideOfPlural?_eq_some_iff.mp hside]
    have hopening : [] ∈ Life.alive.openings := by decide
    exact Spelled.group hopening
  · simp only [bind, Option.bind_eq_some_iff] at h
    obtain ⟨side, hside, life, hlife, hspec⟩ := h
    cases hspec
    rw [sideOfPlural?_eq_some_iff.mp hside]
    exact .group (lifeOfWord?_eq_some_iff.mp hlife)
  · obtain ⟨side, hside, rfl⟩ := Option.map_eq_some_iff.mp h
    rw [sideOfPlural?_eq_some_iff.mp hside]
    have hopening : [] ∈ Life.alive.openings := by decide
    exact Spelled.groupNotUser hopening
  · simp only [bind, Option.bind_eq_some_iff] at h
    obtain ⟨side, hside, life, hlife, hspec⟩ := h
    cases hspec
    rw [sideOfPlural?_eq_some_iff.mp hside]
    exact .groupNotUser (lifeOfWord?_eq_some_iff.mp hlife)
  · cases h

/-- What is read as a place is the singular of a side, or the word for a character, and a numeral.
-/
theorem spelled_of_place? (h : place? ws = some spec) : Spelled spec ws := by
  unfold place? at h
  -- one word stands for a character, the others for a side
  split at h
  · simp only [bind, Option.bind_eq_some_iff] at h
    obtain ⟨n, hn, h⟩ := h
    have hds := nat32?_eq_some_iff.mp hn
    split at h
    · next hword =>
      cases h
      rw [hword]
      exact .character hds
    · simp only [Option.bind_eq_some_iff] at h
      obtain ⟨side, hside, hspec⟩ := h
      cases hspec
      rw [sideOfSingular?_eq_some_iff.mp hside]
      exact .slot hds
  · cases h

/-! Phrases and groups are finitely many, and places begin with words that open neither. -/

/-- Phrases are read as they are. -/
theorem ofWords?_of_mem_phrases (h : ws ∈ spec.phrases) : ofWords? ws = some spec := by
  revert ws
  cases spec with
  | group | slot | character => simp [phrases]
  | _ => decide +kernel

/-- Groups are read as they are, though some of them look like phrases at first. -/
theorem ofWords?_group {opening : List String} {life : Life} (h : opening ∈ life.openings)
    (side : SideRef) : ofWords? (opening ++ [side.plural]) = some (.group side life false) ∧
      ofWords? (opening ++ [side.plural, "NOT", "USER"]) = some (.group side life true) := by
  revert opening
  rcases side with (_ | _) | _ | _ <;> cases life <;> decide +kernel

/-- Places are read as they are. -/
theorem ofWords?_slot (h : IsNumeral ds.toList n) (side : SideRef) :
    ofWords? [side.singular, ds] = some (.slot side n) := by
  have hread := nat32?_eq_some_iff.mpr h
  rcases side with (_ | _) | _ | _ <;>
    simp [ofWords?, phrase?, group?, lifeOfWord?, place?, hread, SideRef.singular, sideOfSingular?]

theorem ofWords?_character (h : IsNumeral ds.toList n) :
    ofWords? ["CHARACTER", ds] = some (.character n) := by
  have hread := nat32?_eq_some_iff.mpr h
  simp [ofWords?, phrase?, group?, lifeOfWord?, place?, hread]

/-- **What is read is what is spelled.** -/
theorem ofWords?_eq_some_iff : ofWords? ws = some spec ↔ Spelled spec ws := by
  constructor
  · intro h
    simp only [ofWords?, Option.or_eq_some_iff] at h
    rcases h with h | ⟨-, h | ⟨-, h⟩⟩
    · exact spelled_of_phrase? h
    · exact spelled_of_group? h
    · exact spelled_of_place? h
  · intro h
    cases h with
    | phrase h => exact ofWords?_of_mem_phrases h
    | group h => exact (ofWords?_group h _).1
    | groupNotUser h => exact (ofWords?_group h _).2
    | slot h => exact ofWords?_slot h _
    | character h => exact ofWords?_character h

/-- No words are a spelling of two specifiers. -/
theorem Spelled.unique (h : Spelled spec ws) (h' : Spelled spec' ws) : spec = spec' := by
  have hread := ofWords?_eq_some_iff.mpr h
  rw [ofWords?_eq_some_iff.mpr h'] at hread
  exact (Option.some.inj hread).symm

/-! ## Reading texts -/

/-- A numeral is a word of digits. -/
theorem word_of_isNumeral (h : IsNumeral ds.toList n) :
    ds ≠ "" ∧ isPlain ds ∧ ∀ c ∈ ds.toList, isCapital c := by
  refine ⟨mt String.toList_eq_nil_iff.mpr h.nonempty, List.all_eq_true.mpr fun c hc => ?_,
    h.capital⟩
  simp [Char.isAlphanum, h.digits c hc]

/-- Spellings are words of capitals and digits. -/
theorem Spelled.word (h : Spelled spec ws) :
    ∀ w ∈ ws, w ≠ "" ∧ isPlain w ∧ ∀ c ∈ w.toList, isCapital c := by
  -- finitely many words, and numerals
  cases h with
  | phrase h =>
    revert ws
    cases spec with
    | group | slot | character => simp [phrases]
    | _ => decide +kernel
  | @group side life opening h =>
    revert opening
    rcases side with (_ | _) | _ | _ <;> cases life <;> decide +kernel
  | @groupNotUser side life opening h =>
    revert opening
    rcases side with (_ | _) | _ | _ <;> cases life <;> decide +kernel
  | @slot side ds n h =>
    have hside : side.singular ≠ "" ∧ isPlain side.singular ∧
        ∀ c ∈ side.singular.toList, isCapital c := by
      rcases side with (_ | _) | _ | _ <;> decide
    simpa using And.intro hside (word_of_isNumeral h)
  | @character ds n h =>
    have hword : "CHARACTER" ≠ "" ∧ isPlain "CHARACTER" ∧
        ∀ c ∈ "CHARACTER".toList, isCapital c := by decide
    simpa using And.intro hword (word_of_isNumeral h)

theorem Spelled.capital (h : Spelled spec ws) : ∀ w ∈ ws, w ≠ "" ∧ ∀ c ∈ w.toList, isCapital c :=
  fun w hw => (h.word w hw).imp_right And.right

theorem Spelled.isWord (h : Spelled spec ws) : ∀ w ∈ ws.map String.toList, IsWord w := by
  intro w hw
  obtain ⟨word, hword, rfl⟩ := List.mem_map.mp hw
  obtain ⟨hne, hcapital⟩ := h.capital word hword
  exact ⟨fun hnil => hne (String.toList_eq_nil_iff.mp hnil),
    fun c hc => isBlank_of_isCapital (hcapital c hc)⟩

/-- The words of a spelling that was written with single spaces. -/
theorem Spelled.words_intercalate (h : Spelled spec ws) :
    words (" ".intercalate ws).toList = ws.map String.toList := by
  rw [String.toList_intercalate]
  exact words_join h.isWord

/-- A text is the spelling of no more than one list of words. -/
theorem Spelled.eq_of_intercalate_eq {ws' : List String} (h : Spelled spec ws)
    (h' : Spelled spec' ws') (htext : " ".intercalate ws = " ".intercalate ws') : ws = ws' := by
  have hwords : ws.map String.toList = ws'.map String.toList := by
    rw [← h.words_intercalate, htext, h'.words_intercalate]
  exact List.map_injective_iff.mpr (fun _ _ => String.toList_injective) hwords

end TargetSpec

/-- The text in upper case, with single spaces for the blanks between its words and none at its
ends. -/
def Text.collapsed (s : String) : String := String.ofList (upper (join [' '] (words s.toList)))

/-- The text is the words in any mix of cases, with any blanks around them and at least one between
two of them. -/
def Text.WrittenAs (s : String) (ws : List String) : Prop :=
  ∃ vs, Spread vs s.toList ∧ vs.map (·.map Char.toLower) = ws.map (·.toList.map Char.toLower)

namespace TargetSpec

variable {spec spec' : TargetSpec} {ws ws' : List String} {s : String}

theorem map_toList_wordsOf (s : String) :
    (wordsOf s).map String.toList = (words s.toList).map upper := by
  simp [wordsOf, Function.comp_def]

/-- A text has the words of a spelling if, collapsed, it is the spelling. -/
theorem wordsOf_eq_iff (h : Spelled spec ws) :
    wordsOf s = ws ↔ collapsed s = " ".intercalate ws := by
  have hcollapsed : (collapsed s).toList = join [' '] ((wordsOf s).map String.toList) := by
    rw [collapsed, String.toList_ofList, upper_join, map_toList_wordsOf]
  have hwords : ∀ w ∈ (wordsOf s).map String.toList, IsWord w := by
    intro w hw
    rw [map_toList_wordsOf] at hw
    obtain ⟨v, hv, rfl⟩ := List.mem_map.mp hw
    exact IsWord.upper (mem_words hv)
  -- words with single spaces between them and the text that they make are found from each other
  constructor
  · intro heq
    apply String.toList_injective
    rw [hcollapsed, heq, String.toList_intercalate]
    rfl
  · intro heq
    have hmap : (wordsOf s).map String.toList = ws.map String.toList := by
      rw [← words_join hwords, ← hcollapsed, heq, h.words_intercalate]
    exact List.map_injective_iff.mpr (fun _ _ => String.toList_injective) hmap

/-- A text is read as a specifier if, collapsed, it is a spelling of it. -/
theorem ofString?_eq_some_iff :
    ofString? s = some spec ↔ ∃ ws, Spelled spec ws ∧ collapsed s = " ".intercalate ws := by
  rw [ofString?, ofWords?_eq_some_iff]
  constructor
  · intro h
    exact ⟨wordsOf s, h, (wordsOf_eq_iff h).mp rfl⟩
  · rintro ⟨ws, h, hs⟩
    rw [(wordsOf_eq_iff h).mpr hs]
    exact h

/-- In any mix of cases, capitals are words still and have themselves as their upper case. -/
theorem upper_of_sameCase {vs : List (List Char)}
    (hws : ∀ w ∈ ws, w ≠ "" ∧ ∀ c ∈ w.toList, isCapital c)
    (h : vs.map (·.map Char.toLower) = ws.map (·.toList.map Char.toLower)) :
    (∀ v ∈ vs, IsWord v) ∧ (vs.map fun v => String.ofList (upper v)) = ws := by
  induction ws generalizing vs with
  | nil =>
    rw [List.map_eq_nil_iff.mp h]
    exact ⟨by simp, rfl⟩
  | cons w ws ih =>
    obtain ⟨⟨hne, hcapital⟩, hws⟩ := List.forall_mem_cons.mp hws
    obtain ⟨v, vs, rfl, hv, hvs⟩ := List.map_eq_cons_iff.mp h
    obtain ⟨hwords, hupper⟩ := ih hws hvs
    have hword : IsWord v :=
      isWord_of_map_toLower_eq (mt String.toList_eq_nil_iff.mp hne) hcapital hv
    refine ⟨List.forall_mem_cons.mpr ⟨hword, hwords⟩, ?_⟩
    rw [List.map_cons, hupper, upper_of_map_toLower_eq hcapital hv, String.ofList_toList]

/-- A spelling is read in any mix of cases, however its words are spread out. -/
theorem ofString?_of_writtenAs (h : Spelled spec ws) (hs : WrittenAs s ws) :
    ofString? s = some spec := by
  obtain ⟨vs, hspread, hcase⟩ := hs
  obtain ⟨hwords, hupper⟩ := upper_of_sameCase h.capital hcase
  rw [ofString?, wordsOf, words_of_spread hspread hwords, hupper, ofWords?_eq_some_iff]
  exact h

/-- There is no comma in a specifier. -/
theorem comma_not_mem (h : ofString? s = some spec) : ',' ∉ s.toList := by
  intro hcomma
  obtain ⟨w, hw, hmem⟩ := exists_word_of_mem hcomma (by decide)
  have hupper : ',' ∈ upper w := List.mem_flatMap.mpr ⟨',', hmem, by decide⟩
  have hplain : isPlain (String.ofList (upper w)) :=
    ((ofWords?_eq_some_iff.mp h).word _ (List.mem_map_of_mem hw)).2.1
  rw [isPlain, String.toList_ofList, List.all_eq_true] at hplain
  exact absurd (hplain ',' hupper) (by decide)

/-- A blank text is no specifier. -/
theorem trim_ne_nil (h : ofString? s = some spec) : trim s.toList ≠ [] := by
  intro htrim
  rw [ofString?, wordsOf, ← words_trim, htrim] at h
  cases h

/-- Blanks around a specifier do not matter. -/
theorem ofString?_trimmed (s : String) : ofString? (trimmed s) = ofString? s := by
  rw [ofString?, wordsOf, trimmed, String.toList_ofList, words_trim, ofString?, wordsOf]

/-! ## Canonical words -/

/-- The canonical words of a specifier spell it. -/
theorem spelled_canonical (h : spec.Fits) : Spelled spec spec.canonical := by
  cases spec with
  | group side life excludeUser =>
    have hopening : [life.word] ∈ life.openings := by cases life <;> decide
    cases excludeUser with
    | false => exact .group hopening
    | true => exact .groupNotUser hopening
  | slot side n => exact .slot (isNumeral_toString h)
  | character n => exact .character (isNumeral_toString h)
  | _ => exact .phrase (by decide)

/-- **Specifiers are read as they are spelled.** The canonical words of a specifier, and any other
spelling of it, are read as that specifier, in any mix of cases and with any blanks around and
between the words. A text that is read as a specifier is, collapsed and in upper case, one of its
spellings; and no text is a spelling of two. -/
theorem read_as_spelled :
    (∀ spec s, spec.Fits → WrittenAs s spec.canonical → ofString? s = some spec) ∧
    (∀ spec ws s, Spelled spec ws → WrittenAs s ws → ofString? s = some spec) ∧
    (∀ spec s, ofString? s = some spec ↔
      ∃ ws, Spelled spec ws ∧ collapsed s = " ".intercalate ws) ∧
    ∀ spec spec' ws ws', Spelled spec ws → Spelled spec' ws' →
      " ".intercalate ws = " ".intercalate ws' → spec = spec' := by
  refine ⟨?_, ?_, ?_, ?_⟩
  · intro spec s hfits hs
    exact ofString?_of_writtenAs (spelled_canonical hfits) hs
  · intro spec ws s hspelled hs
    exact ofString?_of_writtenAs hspelled hs
  · intro spec s
    exact ofString?_eq_some_iff
  · intro spec spec' ws ws' h h' htext
    rw [h.eq_of_intercalate_eq h' htext] at h
    exact h.unique h'

/-- The dead enemies but for the user, spelled carelessly. -/
theorem read_as_spelled_careless :
    let s := "\tdEAd  enemies\u3000Not user\n"
    let spec := TargetSpec.group (.fixed .enemy) .dead true
    spec.Fits ∧ WrittenAs s spec.canonical ∧ ofString? s = some spec := by
  intro s spec
  have htext : s.toList = ['\t'] ++ "dEAd".toList ++ ([' ', ' '] ++ "enemies".toList ++
      (['\u3000'] ++ "Not".toList ++ ([' '] ++ "user".toList ++ ['\n']))) := by
    decide
  have hspread :
      Spread ["dEAd".toList, "enemies".toList, "Not".toList, "user".toList] s.toList := by
    rw [htext]
    refine .word _ _ (by decide) (by decide) ?_
    refine .word _ _ (by decide) (by decide) ?_
    refine .word _ _ (by decide) (by decide) ?_
    refine .word _ _ (by decide) (by decide) ?_
    exact .blanks _ (by decide)
  have hwritten : WrittenAs s spec.canonical := ⟨_, hspread, by decide⟩
  exact ⟨trivial, hwritten, read_as_spelled.1 spec s trivial hwritten⟩

end TargetSpec

end BattleScript
