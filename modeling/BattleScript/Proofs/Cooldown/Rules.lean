import BattleScript.Item.Database
import BattleScript.Proofs.OrderedMap
import BattleScript.Proofs.Text.Scan

/-!
# The numbers of cooldown rules

Every number that a note gives to a cooldown rule is read in the signed 32-bit range; one that is
not in it does not count. So the rules of a skill stay in the range as its note is read, tag by
tag (`CooldownRules.Fits.note`) and line by line, and the rules of a skill made from a note fit
(`Usable.fits_ofNote`).
-/

namespace BattleScript

open Text

namespace CooldownTag

/-- The numbers of the tag are in range. -/
def Fits : CooldownTag → Prop
  | .own v | .afterBattle v | .warmup v | .skill _ _ v | .stype _ _ v | .global _ v =>
    ∀ x ∈ v, FitsInt32 x
  | .steps _ | .bypass => True

/-- A cost that is read is not negative and fits. -/
theorem bounds_magnitude? (ds : List Char) : ∀ x ∈ magnitude? ds, 0 ≤ x ∧ x ≤ int32Max := by
  intro x hx
  obtain ⟨n, -, hn⟩ := Option.bind_eq_some_iff.mp hx
  obtain ⟨-, hhigh⟩ := fitsInt32_of_signedInt32? hn
  simp only [signedInt32?, Bool.false_eq_true, if_false, Option.ite_none_right_eq_some,
    Option.some.injEq] at hn
  exact ⟨by omega, hhigh⟩

theorem fits_magnitude? (ds : List Char) : ∀ x ∈ magnitude? ds, FitsInt32 x := by
  intro x hx
  obtain ⟨n, -, hn⟩ := Option.bind_eq_some_iff.mp hx
  exact fitsInt32_of_signedInt32? hn

/-- A change may have a sign, and fits with it. -/
theorem fits_signedValue (s : Option Bool) (ds : List Char) :
    ∀ x ∈ (signedValue s ds).2, FitsInt32 x := by
  intro x hx
  obtain ⟨n, hn, rfl⟩ := Option.map_eq_some_iff.mp hx
  obtain ⟨hlow, hhigh⟩ := bounds_magnitude? ds n hn
  unfold FitsInt32 int32Min
  unfold int32Max at hhigh ⊢
  -- the negative of a number of the range is one of the range
  split <;> omega

/-- The value after a battle is read in the range. -/
theorem fits_of_afterBattle? {cs : List Char} {tag : CooldownTag} (h : afterBattle? cs = some tag) :
    tag.Fits := by
  simp only [afterBattle?, bind, Option.bind_eq_some_iff] at h
  obtain ⟨⟨sign, ds⟩, -, h⟩ := h
  cases sign with
  | none => cases h
  | some negative =>
    cases h
    intro x hx
    obtain ⟨n, -, hn⟩ := Option.bind_eq_some_iff.mp hx
    exact fitsInt32_of_signedInt32? hn

/-- Whatever tag a line is read as, its number fits. -/
theorem fits_of_find? {line : List Char} {tag : CooldownTag} (h : find? line = some tag) :
    tag.Fits := by
  simp only [find?, Option.orElse_eq_orElse, Option.orElse_eq_or, Option.or_eq_some_iff,
    Option.map_eq_some_iff] at h
  -- the readers of the tags, in the order in which they are tried
  rcases h with h | ⟨-, h | ⟨-, h | ⟨-, h | ⟨-, h | ⟨-, h | ⟨-, h | ⟨-, h⟩⟩⟩⟩⟩⟩⟩
  · obtain ⟨ds, -, rfl⟩ := h
    exact fits_magnitude? ds
  · obtain ⟨cs, hcs⟩ := exists_of_search h
    exact fits_of_afterBattle? hcs
  · obtain ⟨ds, -, rfl⟩ := h
    trivial
  · obtain ⟨ds, -, rfl⟩ := h
    exact fits_magnitude? ds
  · obtain ⟨⟨id, sign, ds⟩, -, rfl⟩ := h
    exact fits_signedValue sign ds
  · obtain ⟨⟨id, sign, ds⟩, -, rfl⟩ := h
    exact fits_signedValue sign ds
  · obtain ⟨⟨sign, ds⟩, -, rfl⟩ := h
    exact fits_signedValue sign ds
  · obtain ⟨-, -, rfl⟩ := h
    trivial

end CooldownTag

/-- All numbers that are added to counters or written to them are in range. -/
structure CooldownRules.Fits (r : CooldownRules) : Prop where
  cooldown : ∀ x ∈ r.cooldown, FitsInt32 x
  skillCooldown : ∀ x ∈ r.skillCooldown.values, FitsInt32 x
  stypeCooldown : ∀ x ∈ r.stypeCooldown.values, FitsInt32 x
  globalCooldown : FitsInt32 r.globalCooldown
  warmup : FitsInt32 r.warmup
  afterBattle : ∀ x ∈ r.afterBattle, FitsInt32 x
  skillChange : ∀ x ∈ r.skillChange.values, FitsInt32 x
  stypeChange : ∀ x ∈ r.stypeChange.values, FitsInt32 x
  globalChange : FitsInt32 r.globalChange

open OrderedMap (forall_mem_values_insert)

namespace CooldownRules.Fits

theorem empty : CooldownRules.Fits {} where
  cooldown := nofun
  skillCooldown := nofun
  stypeCooldown := nofun
  globalCooldown := by decide
  warmup := by decide
  afterBattle := nofun
  skillChange := nofun
  stypeChange := nofun
  globalChange := by decide

/-- Rules stay in range with one more tag. -/
theorem note {r : CooldownRules} (h : r.Fits) {tag : CooldownTag} (htag : tag.Fits) :
    (r.note tag).Fits := by
  unfold CooldownRules.note
  split
  · exact { h with cooldown := htag }
  · exact { h with afterBattle := htag }
  · exact { h with }
  · next v =>
    refine { h with warmup := ?_ }
    cases v with
    | none => exact (by decide : FitsInt32 0)
    | some x => exact htag x rfl
  · exact { h with skillCooldown := forall_mem_values_insert h.skillCooldown (htag _ rfl) }
  · exact { h with skillChange := forall_mem_values_insert h.skillChange (htag _ rfl) }
  · exact { h with stypeCooldown := forall_mem_values_insert h.stypeCooldown (htag _ rfl) }
  · exact { h with stypeChange := forall_mem_values_insert h.stypeChange (htag _ rfl) }
  · exact { h with globalCooldown := htag _ rfl }
  · exact { h with globalChange := htag _ rfl }
  · exact { h with }
  · exact h

end CooldownRules.Fits

namespace Notes

variable {n : Notes}

/-- Rules stay in range with one more line outside of the blocks. -/
theorem fits_remark (h : n.cooldown.Fits) (line : List Char) : (n.remark line).cooldown.Fits := by
  unfold remark
  split
  · exact h
  · split
    · next tag htag => exact h.note (CooldownTag.fits_of_find? htag)
    · exact h

/-- Lines inside a block change no rules. -/
theorem fits_step {r : Reader} (h : r.notes.cooldown.Fits) (line : List Char) :
    (r.step line).notes.cooldown.Fits := by
  unfold Reader.step
  dsimp only
  split
  · repeat' split
    all_goals exact h
  · split
    · exact h
    · exact fits_remark h _

/-- Whatever a note says, its cooldown rules are in range. -/
theorem fits_ofChars (cs : List Char) : (ofChars cs).cooldown.Fits := by
  have hreader (lines : List (List Char)) :
      (lines.foldl Reader.step {}).notes.cooldown.Fits :=
    List.foldlRecOn (motive := fun r : Reader => r.notes.cooldown.Fits) lines _ .empty
      fun _ h line _ => fits_step h line
  unfold ofChars Reader.close
  split
  · exact hreader _
  · exact hreader _

end Notes

/-- The rules of a skill that was made from a note fit. -/
theorem Usable.fits_ofNote (id : Nat) (name : String) (stypeId animationId : Nat) (note : String) :
    (Usable.ofNote id name stypeId animationId note).cooldown.Fits :=
  Notes.fits_ofChars _

end BattleScript
