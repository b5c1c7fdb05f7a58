import BattleScript.Opcode.Effect
import BattleScript.Proofs.Text.Words

/-!
# The forms of effect commands

An effect command has one of ten forms. Each form has a reader, and the readers are asked one
after the other; but no two forms overlap. The words of a name leave no more than one form open
(`EffectOp.formOfWords`), an instruction shows which form it was read from (`EffectOp.origin`),
and a reader only reads commands of its form (`EffectOp.fits_of_read?`). So the order of the
readers makes no difference: an instruction is read from a command exactly if the reader of its
form reads it (`EffectOp.ofCommand?_eq_some_iff`).

The first word all but decides. Where it does not, the last one tells buffs from states, whose names
end in digits, and the second one tells switches from variables. The names of channels begin with no
word of another form.
-/

namespace BattleScript

namespace EffectOp

variable {c : Command} {op : EffectOp}

/-- The forms of effect commands. -/
inductive Form
  | buff
  | state
  | animation
  | switches
  | assign
  | gainItem
  | gold
  | pool
  | audio
  | phrase
  deriving DecidableEq, Repr

/-- The reader of a form. -/
def Form.read? : Form → Command → Option EffectOp
  | buff => buff?
  | state => state?
  | animation => animation?
  | switches => switches?
  | assign => assign?
  | gainItem => gainItem?
  | gold => gold?
  | pool => pool?
  | audio => audio?
  | phrase => phrase?

/-- The form that an instruction is read from. -/
def origin : EffectOp → Form
  | buff .. => .buff
  | state .. => .state
  | animation .. => .animation
  | switches .. => .switches
  | assign .. => .assign
  | gainItem .. => .gainItem
  | gold _ => .gold
  | pool .. => .pool
  | audio .. => .audio
  | collapse .. | commonEvent _ | refreshStatus => .phrase

/-- The first words that speak for a form. -/
def formOpenings : List (String × Form) :=
  ["ADD_STATE", "ADD_STATES", "REMOVE_STATE", "REMOVE_STATES"].map (·, .state) ++
  [("ANIMATION", .animation), ("CHANGE", .assign), ("GAIN", .gainItem), ("LOSE", .gainItem),
    ("GOLD", .gold), ("HP", .pool), ("MP", .pool), ("TP", .pool), ("COLLAPSE", .phrase),
    ("COMMON", .phrase), ("REFRESH", .phrase)]

/-- The only form that commands which go by these words can have. -/
def formOfWords : List String → Form
  | "ADD" :: rest | "REMOVE" :: rest =>
    if rest.getLast? = some "BUFF" ∨ rest.getLast? = some "DEBUFF" then .buff else .state
  | "CHANGE" :: "SWITCH" :: _ => .switches
  | word :: _ => ((formOpenings.find? (·.1 = word)).map (·.2)).getD .audio
  | [] => .audio

/-- The words of the command and the instruction are both of the form. -/
structure Form.Fits (f : Form) (c : Command) (op : EffectOp) : Prop where
  words : formOfWords c.words = f
  origin : op.origin = f

/-! ## Buffs and states -/

/-- A buff ends with its word, whatever the parameter is called in between. -/
theorem fits_of_buff? (h : buff? c = some op) : Form.buff.Fits c op := by
  unfold buff? at h
  split at h
  · next first second rest hw =>
    simp only [Option.bind_eq_bind, Option.bind_eq_some_iff] at h
    obtain ⟨add, hadd, last, hlast, change, hchange, hop⟩ := h
    cases hop
    have hend : (second :: rest).getLast? = some "BUFF" ∨
        (second :: rest).getLast? = some "DEBUFF" := by
      rw [List.getLast?_cons, hlast, Option.getD_some]
      unfold buffChange? at hchange
      split at hchange <;> first | decide | cases hchange
    refine ⟨?_, rfl⟩
    rw [hw]
    unfold isAdding? at hadd
    split at hadd
    · exact if_pos hend
    · exact if_pos hend
    · cases hadd
  · cases h

/-- The words for the states are digits, with commas between the numerals. -/
theorem words_of_state? (h : state? c = some op) :
    op.origin = .state ∧ ∃ add ids, stateWords? c.words = some (add, ids) ∧
      ∀ w ∈ ids, ∀ ch ∈ w.toList, Text.isBlank ch ∨ ch = ',' ∨ Text.isDigit ch := by
  obtain ⟨⟨add, ids⟩, hwords, hread⟩ := Option.bind_eq_some_iff.mp h
  obtain ⟨_, hguard, hop⟩ := Option.bind_eq_some_iff.mp hread
  obtain ⟨hnumerals, -⟩ := Option.ite_none_right_eq_some.mp hguard
  cases hop
  refine ⟨rfl, add, ids, hwords, fun w hw ch hch => ?_⟩
  have hmem : ch ∈ (spaced ids).toList := by
    rw [spaced, String.toList_intercalate]
    exact Text.mem_join_of_mem (List.mem_map_of_mem hw) hch
  by_cases hcomma : ch = ','
  · exact .inr (.inl hcomma)
  · -- the character is in a piece between commas, and the piece is a numeral with blanks around it
    obtain ⟨piece, hpiece, hch⟩ :=
      Text.exists_piece_of_mem (p := (· == ',')) hmem (beq_false_of_ne hcomma)
    obtain ⟨bs, bs', hbs, hbs', htrim⟩ := Text.exists_trim_append piece
    have hnumeral := List.all_eq_true.mp hnumerals _ (List.mem_map_of_mem hpiece)
    rw [decide_eq_true_eq, List.all_eq_true] at hnumeral
    rw [htrim, List.mem_append, List.mem_append] at hch
    rcases hch with hch | hch | hch
    · exact .inl (hbs ch hch)
    · exact .inr (.inr (hnumeral.2 ch hch))
    · exact .inl (hbs' ch hch)

/-- So the last word is not that of a buff, which has an F in it. -/
theorem getLast?_of_state? {word : String} {ids : List String} (hword : word ∈ ["STATE", "STATES"])
    (hids : ∀ w ∈ ids, ∀ ch ∈ w.toList, Text.isBlank ch ∨ ch = ',' ∨ Text.isDigit ch) :
    ¬ ((word :: ids).getLast? = some "BUFF" ∨ (word :: ids).getLast? = some "DEBUFF") := by
  have hletter : ¬ (Text.isBlank 'F' ∨ 'F' = ',' ∨ Text.isDigit 'F') := by decide +kernel
  -- the last word is the word for states, or has nothing but numbers in it
  have hnot {w : String} (hw : w ∉ ["STATE", "STATES"]) (hF : 'F' ∈ w.toList) :
      (word :: ids).getLast? ≠ some w := by
    intro hlast
    rcases List.mem_cons.mp (List.mem_of_getLast? hlast) with rfl | hmem
    · exact hw hword
    · exact hletter (hids w hmem 'F' hF)
  rintro (hbuff | hdebuff)
  · exact hnot (by decide) (by decide) hbuff
  · exact hnot (by decide) (by decide) hdebuff

/-- A state has numbers after its word, or nothing. -/
theorem fits_of_state? (h : state? c = some op) : Form.state.Fits c op := by
  obtain ⟨horigin, add, ids, hwords, hids⟩ := words_of_state? h
  refine ⟨?_, horigin⟩
  unfold stateWords? at hwords
  split at hwords
  all_goals cases hwords
  all_goals
    next hw =>
    rw [hw]
    first
      | rfl
      | exact if_neg (getLast?_of_state? (by decide) hids)

/-! ## Channels -/

/-- The keywords of the channels. -/
def channelKeywords : List String :=
  ["BGM", "MUSIC", "SONG", "BGS", "AMBIENCE", "ME", "FANFARE", "SE", "SOUND", "SFX"]

/-- The words for channels are these. -/
theorem keyword_mem_of_ofKeyword? {s : String} {channel : Channel}
    (h : Channel.ofKeyword? s = some channel) : Text.keyword s ∈ channelKeywords := by
  unfold Channel.ofKeyword? at h
  split at h
  all_goals first
    | next hk => rw [hk]; decide
    | cases h

/-- Whether the word is one of capitals that no keyword of a channel begins with. -/
def opensNoChannel (word : String) : Bool :=
  word.toList != [] && word.toList.all Text.isCapital &&
    channelKeywords.all fun k => !word.toList.isPrefixOf k.toList

/-- A command that opens with such a word says nothing to a channel. -/
theorem audio?_eq_none {word : String} (hword : opensNoChannel word) {rest : List String}
    (hw : c.words = word :: rest) : audio? c = none := by
  simp only [opensNoChannel, Bool.and_eq_true, bne_iff_ne, List.all_eq_true,
    Bool.not_eq_true'] at hword
  obtain ⟨⟨hne, hcapital⟩, hstart⟩ := hword
  obtain ⟨cs, hname⟩ : ∃ cs, c.name.toList = word.toList ++ cs := by
    rw [Command.name, hw, String.toList_intercalate]
    cases rest <;> simp [List.intercalate]
  have hupper : Text.upper word.toList = word.toList :=
    Text.upper_eq_self fun ch hch => Text.upperChar_of_isCapital (hcapital ch hch)
  -- capitals are kept by trimming and by upper case, so the word stays in front
  have hkeyword : word.toList.isPrefixOf (Text.keyword c.name).toList := by
    rw [Text.keyword, String.toList_ofList, hname,
      Text.trim_append hne fun ch hch => Text.isBlank_of_isCapital (hcapital ch hch), Text.upper,
      List.flatMap_append, List.isPrefixOf_iff_prefix]
    exact ⟨_, congrArg (· ++ _) hupper.symm⟩
  cases hchannel : Channel.ofKeyword? c.name with
  | none => rw [audio?, hchannel]; rfl
  | some channel =>
    rw [hstart _ (keyword_mem_of_ofKeyword? hchannel)] at hkeyword
    cases hkeyword

/-- None of the other openings is the start of a word for a channel. -/
theorem formOpenings_plain :
    (["ADD", "REMOVE"] ++ formOpenings.map (·.1)).all opensNoChannel := by
  decide +kernel

/-- Words that begin with no known one are left to the channels. -/
theorem formOfWords_of_not_mem {word : String}
    (h : word ∉ ["ADD", "REMOVE"] ++ formOpenings.map (·.1)) (rest : List String) :
    formOfWords (word :: rest) = .audio := by
  rw [List.mem_append, not_or] at h
  obtain ⟨hbuff, hother⟩ := h
  have hfind : formOpenings.find? (·.1 = word) = none :=
    List.find?_eq_none.mpr fun e he hword =>
      hother (of_decide_eq_true hword ▸ List.mem_map_of_mem he)
  have hchange : word ≠ "CHANGE" := fun heq => hother (heq ▸ by decide)
  rw [formOfWords, hfind]
  · rfl
  · rintro rfl
    exact hbuff (by decide)
  · rintro rfl
    exact hbuff (by decide)
  · exact fun _ heq _ => hchange heq

/-- A name that says something to a channel begins with no opening of another form. -/
theorem fits_of_audio? (h : audio? c = some op) : Form.audio.Fits c op := by
  refine ⟨?_, ?_⟩
  · cases hw : c.words with
    | nil => rfl
    | cons word rest =>
      refine formOfWords_of_not_mem (fun hmem => ?_) rest
      rw [audio?_eq_none (List.all_eq_true.mp formOpenings_plain word hmem) hw] at h
      cases h
  · obtain ⟨channel, -, rfl⟩ := Option.map_eq_some_iff.mp h
    rfl

/-! ## The other forms -/

/-- An animation, as the forms below, is known by its first words. -/
theorem fits_of_animation? (h : animation? c = some op) : Form.animation.Fits c op := by
  unfold animation? at h
  split at h
  · next hw =>
    obtain ⟨ds, -, hop⟩ := Option.bind_eq_some_iff.mp h
    cases hop
    exact ⟨by rw [hw]; rfl, rfl⟩
  · cases h

theorem fits_of_switches? (h : switches? c = some op) : Form.switches.Fits c op := by
  unfold switches? at h
  split at h
  · next hw =>
    simp only [Option.bind_eq_bind, Option.bind_eq_some_iff] at h
    obtain ⟨range, -, first, -, hop⟩ := h
    cases hop
    exact ⟨by rw [hw]; rfl, rfl⟩
  · cases h

theorem fits_of_assign? (h : assign? c = some op) : Form.assign.Fits c op := by
  unfold assign? at h
  split at h
  · next w id operator operand hw =>
    obtain ⟨_, hguard, hread⟩ := Option.bind_eq_some_iff.mp h
    obtain ⟨hvariable, -⟩ := Option.ite_none_right_eq_some.mp hguard
    obtain ⟨number, -, hread⟩ := Option.bind_eq_some_iff.mp hread
    obtain ⟨source, -, hop⟩ := Option.bind_eq_some_iff.mp hread
    cases hop
    refine ⟨?_, rfl⟩
    rw [hw]
    -- either word for a variable has the same form
    rcases hvariable with rfl | rfl <;> rfl
  · cases h

theorem fits_of_gainItem? (h : gainItem? c = some op) : Form.gainItem.Fits c op := by
  unfold gainItem? at h
  split at h
  · next verb kind n hw =>
    simp only [Option.bind_eq_bind, Option.bind_eq_some_iff] at h
    obtain ⟨sign, hsign, kind, -, id, -, hop⟩ := h
    cases hop
    refine ⟨?_, rfl⟩
    rw [hw]
    unfold gainSign? at hsign
    split at hsign <;> first | rfl | cases hsign
  · cases h

theorem fits_of_gold? (h : gold? c = some op) : Form.gold.Fits c op := by
  unfold gold? at h
  split at h
  · next w hw =>
    split at h
    · obtain ⟨_, -, hread⟩ := Option.bind_eq_some_iff.mp h
      obtain ⟨x, -, hop⟩ := Option.bind_eq_some_iff.mp hread
      cases hop
      exact ⟨by rw [hw]; rfl, rfl⟩
    · cases h
  · cases h

theorem fits_of_pool? (h : pool? c = some op) : Form.pool.Fits c op := by
  unfold pool? at h
  split at h
  · next w second rest hw =>
    obtain ⟨pool, hpool, hop⟩ := Option.bind_eq_some_iff.mp h
    cases hop
    refine ⟨?_, rfl⟩
    rw [hw]
    -- three words for pools, each an opening
    unfold poolOfWord? at hpool
    split at hpool <;> first | rfl | cases hpool
  · cases h

theorem fits_of_phrase? (h : phrase? c = some op) : Form.phrase.Fits c op := by
  unfold phrase? at h
  split at h
  all_goals cases h
  all_goals
    next hw =>
    exact ⟨by rw [hw]; rfl, rfl⟩

/-! ## One form at most -/

/-- A reader only reads commands of its form, as instructions of that form. -/
theorem fits_of_read? {f : Form} (h : f.read? c = some op) : f.Fits c op := by
  cases f with
  | buff => exact fits_of_buff? h
  | state => exact fits_of_state? h
  | animation => exact fits_of_animation? h
  | switches => exact fits_of_switches? h
  | assign => exact fits_of_assign? h
  | gainItem => exact fits_of_gainItem? h
  | gold => exact fits_of_gold? h
  | pool => exact fits_of_pool? h
  | audio => exact fits_of_audio? h
  | phrase => exact fits_of_phrase? h

/-- What is read, some reader reads. -/
theorem exists_of_ofCommand? (h : ofCommand? c = some op) : ∃ f : Form, f.read? c = some op := by
  simp only [ofCommand?, Option.orElse_eq_orElse, Option.orElse_eq_or, Option.or_eq_some_iff] at h
  rcases h with h | ⟨-, h | ⟨-, h | ⟨-, h | ⟨-, h | ⟨-, h | ⟨-, h | ⟨-, h | ⟨-, h | ⟨-, h⟩⟩⟩⟩⟩⟩⟩⟩⟩
  · exact ⟨.buff, h⟩
  · exact ⟨.state, h⟩
  · exact ⟨.animation, h⟩
  · exact ⟨.switches, h⟩
  · exact ⟨.assign, h⟩
  · exact ⟨.gainItem, h⟩
  · exact ⟨.gold, h⟩
  · exact ⟨.pool, h⟩
  · exact ⟨.audio, h⟩
  · exact ⟨.phrase, h⟩

/-- What is not read, no reader reads. -/
theorem read?_eq_none (h : ofCommand? c = none) (f : Form) : f.read? c = none := by
  simp only [ofCommand?, Option.orElse_eq_orElse, Option.orElse_eq_or, Option.or_eq_none_iff] at h
  obtain ⟨hbuff, hstate, hanimation, hswitches, hassign, hthings, hgold, hpool, haudio, hphrase⟩ :=
    h
  cases f with
  | buff => exact hbuff
  | state => exact hstate
  | animation => exact hanimation
  | switches => exact hswitches
  | assign => exact hassign
  | gainItem => exact hthings
  | gold => exact hgold
  | pool => exact hpool
  | audio => exact haudio
  | phrase => exact hphrase

/-- **No two forms overlap.** An instruction is read if and only if the reader of its form reads it,
whatever other readers come first. -/
theorem ofCommand?_eq_some_iff : ofCommand? c = some op ↔ op.origin.read? c = some op := by
  constructor
  · intro h
    obtain ⟨f, hf⟩ := exists_of_ofCommand? h
    rwa [(fits_of_read? hf).origin]
  · intro h
    cases hread : ofCommand? c with
    | none =>
      rw [read?_eq_none hread] at h
      cases h
    | some other =>
      -- whichever reader came first, it was that of the same form
      obtain ⟨f, hf⟩ := exists_of_ofCommand? hread
      rw [← (fits_of_read? hf).words, (fits_of_read? h).words, h] at hf
      exact hf.symm

end EffectOp

end BattleScript
