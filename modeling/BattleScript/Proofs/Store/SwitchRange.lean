import BattleScript.Proofs.Scenario
import BattleScript.Proofs.Script.NormalForm
import BattleScript.Proofs.Standard.Family
import BattleScript.Proofs.Text.Scan

/-!
# Ranges of switches

A `CHANGE SWITCH` names the switches that it is for by a range, and says by a value what becomes of
them. Both are described by how they are written: `IsSwitchRange` for the range with its two bounds,
`SwitchChange.Spelled` for the value.

The command goes through the switches one by one and writes the store that it reads from. No switch
comes up twice, and what a switch is to read is taken from the store as it was at first
(`EffectOp.get_foldl_switchOne`), so the readings afterwards are known switch by switch
(`Chain.switch_range_pointwise`).
-/

namespace BattleScript

open Text

/-! ## How ranges are written -/

/-- The words between the two bounds of a range. -/
def rangeWords : List String := ["..", "-", "TO", "THROUGH"]

/-- The text names the switches between two bounds: by one numeral or by two, in either order, with
a word and perhaps blanks between them. An upper end that is too great or in another script does not
count. -/
inductive IsSwitchRange : List Char → Nat → Nat → Prop
  | single {ds : List Char} {a : Nat} (ha : IsNumeral ds a) : IsSwitchRange ds a a
  | pair {ds es bs bs' : List Char} {w : String} {a b : Nat} (ha : IsNumeral ds a)
    (hb : IsNumeral es b) (hw : w ∈ rangeWords) (hbs : ∀ c ∈ bs, isBlank c)
    (hbs' : ∀ c ∈ bs', isBlank c) : IsSwitchRange (ds ++ (bs ++ (w.toList ++ (bs' ++ es)))) a b
  | openEnd {ds es bs bs' : List Char} {w : String} {a : Nat} (ha : IsNumeral ds a)
    (hne : es ≠ []) (hes : ∀ c ∈ es, isDigit c) (hb : ∀ b, ¬ IsNumeral es b) (hw : w ∈ rangeWords)
    (hbs : ∀ c ∈ bs, isBlank c) (hbs' : ∀ c ∈ bs', isBlank c) :
    IsSwitchRange (ds ++ (bs ++ (w.toList ++ (bs' ++ es)))) a a

/-- No word of a range begins another. -/
theorem findSome?_rangeWords {w : String} (hw : w ∈ rangeWords) (cs : List Char) :
    (rangeWords.findSome? fun v => afterExact v.toList (w.toList ++ cs)) = some cs := by
  simp only [rangeWords, List.mem_cons, List.not_mem_nil, or_false] at hw
  rcases hw with rfl | rfl | rfl | rfl <;> simp [rangeWords, afterExact]

theorem head_rangeWords {w : String} (hw : w ∈ rangeWords) :
    ∃ c cs, w.toList = c :: cs ∧ isBlank c = false ∧ isDigit c = false := by
  simp only [rangeWords, List.mem_cons, List.not_mem_nil, or_false] at hw
  rcases hw with rfl | rfl | rfl | rfl <;> exact ⟨_, _, rfl, by decide +kernel, by decide +kernel⟩

/-- A range is read as its two texts of digits. -/
theorem switchRange?_append {ds es bs bs' : List Char} {w : String} (hds : ds ≠ [])
    (hdigits : ∀ d ∈ ds, isDigit d) (hes : es ≠ []) (hdigits' : ∀ d ∈ es, isDigit d)
    (hw : w ∈ rangeWords) (hbs : ∀ c ∈ bs, isBlank c) (hbs' : ∀ c ∈ bs', isBlank c) :
    switchRange? (ds ++ (bs ++ (w.toList ++ (bs' ++ es)))) = some (ds, some es) := by
  obtain ⟨c, cs, hword, hblank, hdigit⟩ := head_rangeWords hw
  have hrest : ∀ d ∈ (bs ++ (w.toList ++ (bs' ++ es))).head?, isDigit d = false := by
    intro d hd
    cases bs with
    | nil =>
      rw [List.nil_append, hword, List.cons_append, List.head?_cons, Option.mem_some_iff] at hd
      exact hd ▸ hdigit
    | cons b bs =>
      rw [List.cons_append, List.head?_cons, Option.mem_some_iff] at hd
      exact isDigit_of_isBlank (hd ▸ hbs b List.mem_cons_self)
  have hbody : trimStart (bs ++ (w.toList ++ (bs' ++ es))) = w.toList ++ (bs' ++ es) := by
    rw [trimStart_blanks_append hbs, hword, List.cons_append, trimStart_cons hblank]
  have hend : trimStart (bs' ++ es) = es := by
    obtain ⟨e, es, rfl⟩ := List.exists_cons_of_ne_nil hes
    have hblank : isBlank e = false := isBlank_of_digit (hdigits' e List.mem_cons_self)
    rw [trimStart_blanks_append hbs', trimStart_cons hblank]
  have hne : bs ++ (w.toList ++ (bs' ++ es)) ≠ [] := by simp [hes]
  rw [switchRange?, digits_append_of_isDigit hds hdigits hrest, Option.bind_eq_bind,
    Option.bind_some]
  dsimp only
  rw [if_neg hne, hbody, show ["..", "-", "TO", "THROUGH"] = rangeWords from rfl,
    findSome?_rangeWords hw, Option.bind_eq_bind, Option.bind_some, hend,
    digits_self hes hdigits']
  rfl

/-- A single numeral is read as one bound only. -/
theorem switchRange?_single {ds : List Char} (hds : ds ≠ []) (hdigits : ∀ d ∈ ds, isDigit d) :
    switchRange? ds = some (ds, none) := by
  rw [switchRange?, digits_self hds hdigits]
  rfl

/-! ## How values are written -/

namespace SwitchChange

/-- The text, in upper case, asks for the change. -/
inductive Spelled : SwitchChange → List Char → Prop
  | on {w : String} (hw : w ∈ ["ON", "TRUE"]) : Spelled (.set true) w.toList
  | off {w : String} (hw : w ∈ ["OFF", "FALSE"]) : Spelled (.set false) w.toList
  | toggle {w : String} (hw : w ∈ ["TOGGLE", "OPPOSITE", "REVERSE"]) : Spelled .toggle w.toList
  | copyFrom {bs plus ds bs' : List Char} {source : Nat} (hbs : ∀ c ∈ bs, isBlank c)
    (hplus : plus = [] ∨ plus = ['+']) (hds : IsNumeral ds source) (hbs' : ∀ c ∈ bs', isBlank c) :
    Spelled (.copyFrom source) ("SWITCH".toList ++ (bs ++ (plus ++ ds ++ bs')))

/-- What the switch reads after the change, given what all of them read before. -/
def reading (change : SwitchChange) (before : Switches) (id : Nat) : Bool :=
  match change with
  | .set on => on
  | .toggle => !before.get id
  | .copyFrom source => before.get source

/-- A value that is read was spelled. -/
theorem spelled_of_ofString? {s : String} {change : SwitchChange}
    (h : ofString? s = some change) : Spelled change (upper s.toList) := by
  rw [← toList_uppered]
  unfold ofString? at h
  split at h
  · next hs => cases h; exact hs ▸ .on (by decide)
  · next hs => cases h; exact hs ▸ .on (by decide)
  · next hs => cases h; exact hs ▸ .off (by decide)
  · next hs => cases h; exact hs ▸ .off (by decide)
  · next hs => cases h; exact hs ▸ .toggle (by decide)
  · next hs => cases h; exact hs ▸ .toggle (by decide)
  · next hs => cases h; exact hs ▸ .toggle (by decide)
  · simp only [Option.bind_eq_bind, Option.bind_eq_some_iff] at h
    obtain ⟨rest, hrest, source, hsource, hchange⟩ := h
    cases hchange
    obtain ⟨plus, ds, hplus, hds, htrim⟩ := readUnsigned?_eq_some_iff.mp hsource
    obtain ⟨bs, bs', hbs, hbs', hblanks⟩ := exists_trim_append rest
    rw [eq_append_of_afterExact hrest, hblanks, htrim]
    exact .copyFrom hbs hplus hds hbs'

/-- What is spelled is read as it. -/
theorem ofString?_of_spelled {s : String} {change : SwitchChange}
    (h : Spelled change (upper s.toList)) : ofString? s = some change := by
  rw [← toList_uppered] at h
  generalize htext : (uppered s).toList = cs at h
  have hword {w : String} (hw : cs = w.toList) : uppered s = w :=
    String.toList_injective (htext.trans hw)
  cases h with
  | @on w hw =>
    rw [ofString?, hword rfl]
    simp only [List.mem_cons, List.not_mem_nil, or_false] at hw
    rcases hw with rfl | rfl <;> rfl
  | @off w hw =>
    rw [ofString?, hword rfl]
    simp only [List.mem_cons, List.not_mem_nil, or_false] at hw
    rcases hw with rfl | rfl <;> rfl
  | @toggle w hw =>
    rw [ofString?, hword rfl]
    simp only [List.mem_cons, List.not_mem_nil, or_false] at hw
    rcases hw with rfl | rfl | rfl <;> rfl
  | @copyFrom bs plus ds bs' source hbs hplus hds hbs' =>
    have hnumeral : IsWord (plus ++ ds) := by
      refine ⟨List.append_ne_nil_of_right_ne_nil plus hds.nonempty, ?_⟩
      intro c hc
      rcases List.mem_append.mp hc with hc | hc
      · rcases hplus with rfl | rfl
        · cases hc
        · rw [List.mem_singleton.mp hc]
          rfl
      · exact isBlank_of_isCapital (hds.capital c hc)
    have htrim : trim (bs ++ (plus ++ ds ++ bs')) = plus ++ ds := by
      rw [trim_blanks_append hbs, trim_append_blanks hbs', hnumeral.isTrimmed.trim_eq]
    have hread : readUnsigned? (plus ++ ds) = some source :=
      readUnsigned?_eq_some_iff.mpr ⟨plus, ds, hplus, hds, rfl⟩
    -- no word for another change begins like this
    have hhead {w : String} (hw : uppered s = w) : w.toList.head? = some 'S' := by
      rw [← hw, htext]
      rfl
    unfold ofString?
    split
    iterate 7
      next hs => exact absurd (hhead hs) (by decide)
    · rw [htext, afterExact_append]
      simp only [Option.bind_eq_bind, Option.bind_some, htrim, hread]
      rfl

end SwitchChange

/-! ## Running the command -/

/-- Each switch of a list is changed once, by what the switches read at first. -/
theorem EffectOp.get_foldl_switchOne (change : SwitchChange) (before : Switches) {ids : List Nat}
    (hids : ids.Nodup) {s : Switches} (hs : ∀ id ∈ ids, s.get id = before.get id) (id : Nat) :
    (ids.foldl (switchOne change before) s).get id =
      if id ∈ ids ∧ id ≠ 0 then change.reading before id else s.get id := by
  -- on the switches to come, which still read what they read at first
  induction ids generalizing s with
  | nil => simp
  | cons i ids ih =>
    obtain ⟨hi, hnodup⟩ := List.nodup_cons.mp hids
    obtain ⟨hsi, hs⟩ := List.forall_mem_cons.mp hs
    have hone (j : Nat) : (switchOne change before s i).get j =
        if j = i ∧ i ≠ 0 then change.reading before i else s.get j := by
      cases change with
      | set on => exact Switches.get_set s i j on
      | toggle =>
        rw [switchOne, Switches.get_set, hsi]
        rfl
      | copyFrom source => exact Switches.get_set s i j _
    have hrest : ∀ j ∈ ids, (switchOne change before s i).get j = before.get j := by
      intro j hj
      have hne : j ≠ i := fun heq => hi (heq ▸ hj)
      rw [hone, if_neg fun h => hne h.1, hs j hj]
    rw [List.foldl_cons, ih hnodup hrest, hone]
    by_cases hid : id = i
    · subst hid
      simp [hi]
    · simp [hid]

/-! ## Reading the command -/

namespace Command

/-- The command is a `CHANGE SWITCH` for the switches between two bounds. -/
def ChangesSwitches (c : Command) (a b : Nat) : Prop :=
  ∃ range, IsSwitchRange range a b ∧ c.name.toList = "CHANGE SWITCH ".toList ++ range

/-- The first argument of the command asks for a change of switches. -/
def AsksFor (c : Command) (change : SwitchChange) : Prop :=
  ∃ arg, c.arg 0 = some arg ∧ change.Spelled (upper arg.toList)

/-- The value that a line asks for is the one that is read from it. -/
theorem bind_arg_eq_some_iff {c : Command} {change : SwitchChange} :
    (c.arg 0).bind SwitchChange.ofString? = some change ↔ c.AsksFor change := by
  rw [Option.bind_eq_some_iff]
  constructor
  · rintro ⟨arg, harg, hread⟩
    exact ⟨arg, harg, SwitchChange.spelled_of_ofString? hread⟩
  · rintro ⟨arg, harg, hspelled⟩
    exact ⟨arg, harg, SwitchChange.ofString?_of_spelled hspelled⟩

/-- The range is in the words after the first two. -/
theorem words_of_name {line : String} {range : List Char}
    (h : (ofLine line).name.toList = "CHANGE SWITCH ".toList ++ range) :
    ∃ ws, (ofLine line).words = "CHANGE" :: "SWITCH" :: ws ∧ (spaced ws).toList = range := by
  have hwords : ∀ w ∈ (ofLine line).words.map String.toList, IsWord w := fun w hw =>
    isWord_of_mem_wordsOfName hw
  have hjoin : join [' '] ((ofLine line).words.map String.toList) =
      "CHANGE".toList ++ ' ' :: ("SWITCH".toList ++ ' ' :: range) := by
    rw [← toList_name]
    exact h
  -- the first two words are taken off the text one after the other
  obtain ⟨us, hus, hrest⟩ := exists_of_join_eq hwords (by decide) hjoin
  rw [hus] at hwords
  obtain ⟨vs, hvs, hrange⟩ :=
    exists_of_join_eq (List.forall_mem_cons.mp hwords).2 (by decide) hrest
  rw [hvs] at hus
  obtain ⟨change, ws, hall, hchange, hws⟩ := List.map_eq_cons_iff.mp hus
  obtain ⟨switch, ws, rfl, hswitch, hws⟩ := List.map_eq_cons_iff.mp hws
  rw [String.toList_injective hchange, String.toList_injective hswitch] at hall
  refine ⟨ws, hall, ?_⟩
  rw [spaced, String.toList_intercalate, hws]
  exact hrange

end Command

/-- A range is read as its bounds. Where the upper end does not count, that is the lower one
twice. -/
theorem IsSwitchRange.read {range : List Char} {a b : Nat} (h : IsSwitchRange range a b) :
    ∃ ds last, switchRange? range = some (ds, last) ∧ nat32? ds = some a ∧
      (last.bind nat32?).getD a = b := by
  have hdigits {ds : List Char} {n : Nat} (hds : IsNumeral ds n) : ∀ d ∈ ds, isDigit d :=
    fun d hd => isDigit_of_ascii (hds.digits d hd)
  cases h with
  | single ha =>
    exact ⟨_, none, switchRange?_single ha.nonempty (hdigits ha), nat32?_eq_some_iff.mpr ha, rfl⟩
  | @pair ds es bs bs' w a b ha hb hw hbs hbs' =>
    refine ⟨ds, some es, ?_, nat32?_eq_some_iff.mpr ha, ?_⟩
    · exact switchRange?_append ha.nonempty (hdigits ha) hb.nonempty (hdigits hb) hw hbs hbs'
    · rw [Option.bind_some, nat32?_eq_some_iff.mpr hb, Option.getD_some]
  | @openEnd ds es bs bs' w a ha hne hes hb hw hbs hbs' =>
    refine ⟨ds, some es, ?_, nat32?_eq_some_iff.mpr ha, ?_⟩
    · exact switchRange?_append ha.nonempty (hdigits ha) hne hes hw hbs hbs'
    · have hnone : nat32? es = none :=
        Option.eq_none_iff_forall_ne_some.mpr fun b hread => hb b (nat32?_eq_some_iff.mp hread)
      rw [Option.bind_some, hnone, Option.getD_none]

/-- A line that changes switches is read as such. -/
theorem EffectOp.ofCommand?_of_changesSwitches {line : String} {a b : Nat}
    (h : (Command.ofLine line).ChangesSwitches a b) :
    ofCommand? (.ofLine line) = some (.switches (min a b) (max a b)
      (((Command.ofLine line).arg 0).bind SwitchChange.ofString?)) := by
  obtain ⟨range, hrange, hname⟩ := h
  obtain ⟨ws, hwords, hspaced⟩ := Command.words_of_name hname
  obtain ⟨ds, last, hread, ha, hb⟩ := hrange.read
  have hswitches : switches? (.ofLine line) = some (.switches (min a b) (max a b)
      (((Command.ofLine line).arg 0).bind SwitchChange.ofString?)) := by
    simp [switches?, hwords, hspaced, hread, ha, hb]
  exact ofCommand?_eq_some_iff.mpr hswitches

namespace Chain

variable {line : String} {a b : Nat} {change : SwitchChange}

/-- What a change of switches makes of each of them. -/
theorem dispatch_of_asksFor (hline : (Command.ofLine line).ChangesSwitches a b)
    (h : (Command.ofLine line).AsksFor change) (scene : Scene) :
    ∃ after : Switches,
      standard.dispatch (.ofLine line) scene =
        (.proceed, { scene with battle := { scene.battle with switches := after } }) ∧
      ∀ id, after.get id =
        if 1 ≤ id ∧ min a b ≤ id ∧ id ≤ max a b then change.reading scene.battle.switches id
        else scene.battle.switches.get id := by
  rw [dispatch_effect (EffectOp.ofCommand?_of_changesSwitches hline),
    Command.bind_arg_eq_some_iff.mpr h]
  refine ⟨_, rfl, ?_⟩
  intro id
  rw [EffectOp.get_foldl_switchOne change _ List.nodup_range' (fun _ _ => rfl)]
  have hmem : id ∈ List.range' (min a b) (max a b + 1 - min a b) ∧ id ≠ 0 ↔
      1 ≤ id ∧ min a b ≤ id ∧ id ≤ max a b := by
    rw [List.mem_range'_1]
    omega
  by_cases hid : 1 ≤ id ∧ min a b ≤ id ∧ id ≤ max a b
  · rw [if_pos hid, if_pos (hmem.mpr hid)]
  · rw [if_neg hid, if_neg fun h => hid (hmem.mp h)]

/-- **Switch ranges.** A `CHANGE SWITCH` for the switches between two bounds, in either order,
changes nothing else. Each of these switches but zero reads what the value asks for: on, off, the
opposite of what it read before, or what the source read before, even if the source is one of them;
and all others read as before. A value that cannot be read changes nothing, and a toggle that is run
twice restores all readings. -/
theorem switch_range_pointwise (line : String) (a b : Nat)
    (hline : (Command.ofLine line).ChangesSwitches a b) (scene : Scene) :
    let c := Command.ofLine line
    let before := scene.battle.switches
    (∀ change, c.AsksFor change → ∃ after : Switches,
      standard.dispatch c scene =
        (.proceed, { scene with battle := { scene.battle with switches := after } }) ∧
      ∀ id, after.get id =
        if 1 ≤ id ∧ min a b ≤ id ∧ id ≤ max a b then change.reading before id
        else before.get id) ∧
    ((∀ change, ¬ c.AsksFor change) → standard.dispatch c scene = (.proceed, scene)) ∧
    (c.AsksFor .toggle → ∀ id,
      (standard.dispatch c (standard.dispatch c scene).2).2.battle.switches.get id =
        before.get id) := by
  intro c before
  refine ⟨?_, ?_, ?_⟩
  · intro change h
    exact dispatch_of_asksFor hline h scene
  · intro h
    have hnone : (c.arg 0).bind SwitchChange.ofString? = none :=
      Option.eq_none_iff_forall_ne_some.mpr fun change hread =>
        h change (Command.bind_arg_eq_some_iff.mp hread)
    rw [dispatch_effect (EffectOp.ofCommand?_of_changesSwitches hline), hnone]
    rfl
  · intro h id
    -- the first change reverses each switch in the range, and the second reverses it again
    obtain ⟨once, honce, hget⟩ := dispatch_of_asksFor hline h scene
    rw [honce]
    obtain ⟨twice, htwice, hget'⟩ := dispatch_of_asksFor hline h
      { scene with battle := { scene.battle with switches := once } }
    rw [htwice]
    show twice.get id = before.get id
    rw [hget']
    by_cases hid : 1 ≤ id ∧ min a b ≤ id ∧ id ≤ max a b
    · rw [if_pos hid]
      show (!once.get id) = before.get id
      rw [hget, if_pos hid]
      exact Bool.not_not _
    · rw [if_neg hid]
      show once.get id = before.get id
      rw [hget, if_neg hid]

/-- Switch 3 is copied to the switches around it, though it is one of them. -/
theorem switch_range_pointwise_around :
    let line := "Change  switch 5 through 2: Switch 3"
    let scene : Scene := ⟨{ Scenario.solo.battle with
      switches := (({} : Switches).set 3 true).set 6 true }, Scenario.solo.context⟩
    (Command.ofLine line).ChangesSwitches 5 2 ∧
      (Command.ofLine line).AsksFor (.copyFrom 3) ∧
      ∃ after : Switches, standard.dispatch (.ofLine line) scene =
          (.proceed, { scene with battle := { scene.battle with switches := after } }) ∧
        (List.range 8).map after.get = [false, false, true, true, true, true, true, false] := by
  intro line scene
  have hline : (Command.ofLine line).ChangesSwitches 5 2 := by
    refine ⟨['5'] ++ ([' '] ++ ("THROUGH".toList ++ ([' '] ++ ['2']))), ?_, by decide +kernel⟩
    exact .pair ⟨by decide, by decide, by decide, by decide⟩
      ⟨by decide, by decide, by decide, by decide⟩ (by decide) (by decide) (by decide)
  have hasks : (Command.ofLine line).AsksFor (.copyFrom 3) := by
    refine ⟨"Switch 3", by decide +kernel, ?_⟩
    have hupper : upper "Switch 3".toList = "SWITCH".toList ++ ([' '] ++ ([] ++ ['3'] ++ [])) := by
      decide +kernel
    rw [hupper]
    exact .copyFrom (by decide) (.inl rfl) ⟨by decide, by decide, by decide, by decide⟩ (by decide)
  obtain ⟨after, hafter, hget⟩ := (switch_range_pointwise line 5 2 hline scene).1 _ hasks
  refine ⟨hline, hasks, after, hafter, ?_⟩
  have hall : after.get = fun id =>
      if 1 ≤ id ∧ 2 ≤ id ∧ id ≤ 5 then scene.battle.switches.get 3
      else scene.battle.switches.get id := funext hget
  rw [hall]
  decide +kernel

end Chain

end BattleScript
