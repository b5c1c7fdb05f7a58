import BattleScript.Text.Utf8

/-!
# Decoding what was encoded

The UTF-8 bytes of a text are decoded as the text (`decode_toUTF8`): the first byte of a character
says how many follow and in which interval the next one lies, and the encoding of a character that
is no surrogate, and not longer than it has to be, stays inside of the intervals.
-/

namespace BattleScript.Text.Utf8

/-! ## Bytes -/

/-- A byte that follows the first one of its character. -/
def follower (n : Nat) : UInt8 := UInt8.ofNat (n % 64 + 128)

/-- A following byte holds six bits. -/
theorem toNat_follower (n : Nat) : (follower n).toNat = n % 64 + 128 := by
  rw [follower, UInt8.toNat_ofNat']
  omega

theorem le_follower {b : UInt8} {n : Nat} (h : b.toNat ≤ n % 64 + 128) : b ≤ follower n := by
  rwa [UInt8.le_iff_toNat_le, toNat_follower]

theorem follower_le {b : UInt8} {n : Nat} (h : n % 64 + 128 ≤ b.toNat) : follower n ≤ b := by
  rwa [UInt8.le_iff_toNat_le, toNat_follower]

/-- Following bytes lie in one interval. -/
theorem follower_mem (n : Nat) : 0x80 ≤ follower n ∧ follower n ≤ 0xBF := by
  have hlow : (0x80 : UInt8).toNat = 128 := rfl
  have hhigh : (0xBF : UInt8).toNat = 191 := rfl
  exact ⟨le_follower (by omega), follower_le (by omega)⟩

/-- Characters of three bytes are neither so small that two would do, nor surrogates. -/
theorem second_of_three {n : Nat} (hlow : 0x800 ≤ n) (hvalid : n < 0xD800 ∨ 0xDFFF < n) :
    (if n / 4096 = 0 then 0xA0 else 0x80) ≤ follower (n / 64) ∧
      follower (n / 64) ≤ if n / 4096 = 13 then 0x9F else 0xBF := by
  have hA0 : (0xA0 : UInt8).toNat = 160 := rfl
  have h9F : (0x9F : UInt8).toNat = 159 := rfl
  constructor
  · split
    · exact le_follower (by omega)
    · exact (follower_mem _).1
  · split
    · exact follower_le (by omega)
    · exact (follower_mem _).2

/-- Characters of four bytes are neither so small that three would do, nor above the last one. -/
theorem second_of_four {n : Nat} (hlow : 0x10000 ≤ n) (hhigh : n < 0x110000) :
    (if n / 262144 = 0 then 0x90 else 0x80) ≤ follower (n / 4096) ∧
      follower (n / 4096) ≤ if n / 262144 = 4 then 0x8F else 0xBF := by
  have h90 : (0x90 : UInt8).toNat = 144 := rfl
  have h8F : (0x8F : UInt8).toNat = 143 := rfl
  constructor
  · split
    · exact le_follower (by omega)
    · exact (follower_mem _).1
  · split
    · exact follower_le (by omega)
    · exact (follower_mem _).2

variable {p : Partial} {b : UInt8} {bs : List UInt8}

/-- The last byte of a character. -/
theorem decodeFrom_last (hb : p.lower ≤ b ∧ b ≤ p.upper) (hneeded : p.needed ≤ 1) :
    decodeFrom (some p) (b :: bs) =
      Char.ofNat (p.bits * 64 + (b.toNat - 0x80)) :: decodeFrom none bs := by
  simp [decodeFrom, step, hb, hneeded]

/-- A byte in the midst of a character. -/
theorem decodeFrom_next (hb : p.lower ≤ b ∧ b ≤ p.upper) (hneeded : ¬ p.needed ≤ 1) :
    decodeFrom (some p) (b :: bs) =
      decodeFrom (some ⟨p.bits * 64 + (b.toNat - 0x80), p.needed - 1, 0x80, 0xBF⟩) bs := by
  simp [decodeFrom, step, hb, hneeded]

/-! The first bytes of characters of two, three and four bytes, by the bits that they hold. -/

theorem start_two : ∀ n < 32, 2 ≤ n →
    start (UInt8.ofNat (n % 32 + 192)) = ([], some ⟨n, 1, 0x80, 0xBF⟩) := by
  decide

theorem start_three : ∀ n < 16,
    start (UInt8.ofNat (n % 16 + 224)) =
      ([], some ⟨n, 2, if n = 0 then 0xA0 else 0x80, if n = 13 then 0x9F else 0xBF⟩) := by
  decide

theorem start_four : ∀ n < 5,
    start (UInt8.ofNat (n % 8 + 240)) =
      ([], some ⟨n, 3, if n = 0 then 0x90 else 0x80, if n = 4 then 0x8F else 0xBF⟩) := by
  decide

/-! ## Characters -/

/-- The bytes of a character are decoded as the character. -/
theorem decodeFrom_utf8EncodeChar (c : Char) :
    decodeFrom none (String.utf8EncodeChar c ++ bs) = c :: decodeFrom none bs := by
  have hvalid : c.toNat < 0xD800 ∨ 0xDFFF < c.toNat ∧ c.toNat < 0x110000 := c.valid
  have hchar : Char.ofNat c.toNat = c := Char.ofNat_toNat c
  rw [String.utf8EncodeChar]
  -- the same bytes, those after the first as `follower`
  change decodeFrom none ((if c.toNat ≤ 0x7f then [UInt8.ofNat c.toNat] else
    if c.toNat ≤ 0x7ff then [UInt8.ofNat (c.toNat / 64 % 32 + 192), follower c.toNat] else
    if c.toNat ≤ 0xffff then [UInt8.ofNat (c.toNat / 4096 % 16 + 224), follower (c.toNat / 64),
      follower c.toNat] else
    [UInt8.ofNat (c.toNat / 262144 % 8 + 240), follower (c.toNat / 4096),
      follower (c.toNat / 64), follower c.toNat]) ++ bs) = _
  split
  · next h =>
    have hstart : start (UInt8.ofNat c.toNat) = ([c], none) := by
      have hbyte : (UInt8.ofNat c.toNat).toNat = c.toNat := by
        rw [UInt8.toNat_ofNat']
        omega
      have hlow : UInt8.ofNat c.toNat < 0x80 := by
        rw [UInt8.lt_iff_toNat_lt, hbyte]
        exact Nat.lt_succ_of_le h
      rw [start, if_pos hlow, hbyte, hchar]
    simp [decodeFrom, step, hstart]
  split
  · have hstart := start_two (c.toNat / 64) (by omega) (by omega)
    have hbits : c.toNat / 64 * 64 + (c.toNat % 64 + 128 - 128) = c.toNat := by omega
    rw [List.cons_append, List.cons_append, decodeFrom, step, hstart, List.nil_append,
      decodeFrom_last (follower_mem _) (Nat.le_refl 1), toNat_follower, hbits, hchar,
      List.nil_append]
  split
  · -- only here surrogates have to be ruled out
    have hstart := start_three (c.toNat / 4096) (by omega)
    have hbits : (c.toNat / 4096 * 64 + (c.toNat / 64 % 64 + 128 - 128)) * 64 +
        (c.toNat % 64 + 128 - 128) = c.toNat := by omega
    rw [List.cons_append, List.cons_append, List.cons_append, decodeFrom, step, hstart,
      List.nil_append, decodeFrom_next (second_of_three (by omega) (by omega)) (by simp),
      decodeFrom_last (follower_mem _) (Nat.le_refl 1), toNat_follower, toNat_follower, hbits,
      hchar, List.nil_append]
  · have hstart := start_four (c.toNat / 262144) (by omega)
    have hbits : ((c.toNat / 262144 * 64 + (c.toNat / 4096 % 64 + 128 - 128)) * 64 +
        (c.toNat / 64 % 64 + 128 - 128)) * 64 + (c.toNat % 64 + 128 - 128) = c.toNat := by omega
    rw [List.cons_append, List.cons_append, List.cons_append, List.cons_append, decodeFrom, step,
      hstart, List.nil_append, decodeFrom_next (second_of_four (by omega) (by omega)) (by simp),
      decodeFrom_next (follower_mem _) (by simp),
      decodeFrom_last (follower_mem _) (Nat.le_refl 1), toNat_follower, toNat_follower,
      toNat_follower, hbits, hchar, List.nil_append]

/-! ## Texts -/

/-- The bytes of characters are decoded as the characters. -/
theorem decodeFrom_flatMap (cs : List Char) :
    decodeFrom none (cs.flatMap String.utf8EncodeChar) = cs := by
  induction cs with
  | nil => rfl
  | cons c cs ih => rw [List.flatMap_cons, decodeFrom_utf8EncodeChar, ih]

/-- The bytes of a text are those of its characters, one after the other. -/
theorem toList_toUTF8 (s : String) :
    s.toUTF8.data.toList = s.toList.flatMap String.utf8EncodeChar := by
  rw [String.toUTF8_eq_toByteArray, ← String.utf8Encode_toList]
  exact List.toList_data_toByteArray

/-- **The bytes of a text are decoded as the text**, without the byte order mark at its start. -/
theorem decode_toUTF8 (s : String) : decode s.toUTF8.data.toList = dropMark s.toList := by
  rw [toList_toUTF8]
  have hchars := decodeFrom_flatMap s.toList
  unfold decode
  split
  · next bs hbs =>
    -- the first three bytes are the mark
    rw [hbs] at hchars
    have hmark : decodeFrom none (0xEF :: 0xBB :: 0xBF :: bs) = '\uFEFF' :: decodeFrom none bs :=
      rfl
    rw [← hchars, hmark]
    rfl
  · next hbs =>
    rw [hchars]
    unfold dropMark
    split
    · next cs hcs =>
      -- a mark would be encoded as the three bytes
      exact absurd (by rw [hcs]; rfl) (hbs (cs.flatMap String.utf8EncodeChar))
    · rfl

end BattleScript.Text.Utf8
