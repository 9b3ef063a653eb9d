import Showcase.Text.Utf8

/-!
# Bytes and back

The bytes of a text are decoded as the text again (`decode_utf8`). A character is told apart by how
many bytes it has; its first byte announces the others and the range of the second one, which leaves
out longer spellings than needed and the halves of surrogate pairs.

Code points can be encoded exactly if they are a text (`encode_eq_ok_iff`). What else they are is a
text up to the first one that has no bytes, and that is where encoding fails
(`encode_eq_error_iff`).
-/

namespace Showcase.Text

/-! ## The bytes of one character -/

variable {p b : Nat} {bs : List Nat} {u : Unfinished}

theorem decodeFrom_begin {u : Unfinished} (hb : ¬ b < 0x80) (h : begin? p b = some u) :
    decodeFrom p none (b :: bs) = decodeFrom (p + 1) (some u) bs := by
  rw [decodeFrom, if_neg hb, h]

theorem decodeFrom_last (hu : u.further = 0) (hb : u.low ≤ b ∧ b ≤ u.high) :
    decodeFrom p (some u) (b :: bs) =
      (decodeFrom (p + 1) none bs).map (Char.ofNat (u.value * 64 + (b - 0x80)) :: ·) := by
  rw [decodeFrom, if_pos hb, hu]

theorem decodeFrom_more {k : Nat} (hu : u.further = k + 1) (hb : u.low ≤ b ∧ b ≤ u.high) :
    decodeFrom p (some u) (b :: bs) = decodeFrom (p + 1)
      (some ⟨u.first, u.byte, u.value * 64 + (b - 0x80), k, 0x80, 0xBF⟩) bs := by
  rw [decodeFrom, if_pos hb, hu]

/-! ### First bytes -/

theorem begin?_two {n : Nat} (h : 0x80 ≤ n) (hn : n < 0x800) (p : Nat) :
    begin? p (0xC0 + n / 64) = some ⟨p, 0xC0 + n / 64, n / 64, 0, 0x80, 0xBF⟩ := by
  rw [begin?, if_pos (by omega), Nat.add_sub_cancel_left]

theorem begin?_three {n : Nat} (hn : n < 0x10000) (p : Nat) :
    begin? p (0xE0 + n / 4096) = some ⟨p, 0xE0 + n / 4096, n / 4096, 1,
      if 0xE0 + n / 4096 = 0xE0 then 0xA0 else 0x80,
      if 0xE0 + n / 4096 = 0xED then 0x9F else 0xBF⟩ := by
  rw [begin?, if_neg (by omega), if_pos (by omega), Nat.add_sub_cancel_left]

theorem begin?_four {n : Nat} (hn : n < 0x110000) (p : Nat) :
    begin? p (0xF0 + n / 262144) = some ⟨p, 0xF0 + n / 262144, n / 262144, 2,
      if 0xF0 + n / 262144 = 0xF0 then 0x90 else 0x80,
      if 0xF0 + n / 262144 = 0xF4 then 0x8F else 0xBF⟩ := by
  rw [begin?, if_neg (by omega), if_neg (by omega), if_pos (by omega), Nat.add_sub_cancel_left]

/-! ### All bytes -/

/-- The cases are those of `utf8Char`: one, two, three or four bytes. In the last two, the range of
the second byte depends on the first one. -/
theorem decodeFrom_utf8Char (c : Char) (p : Nat) (bs : List Nat) :
    decodeFrom p none (utf8Char c ++ bs) =
      (decodeFrom (p + (utf8Char c).length) none bs).map (c :: ·) := by
  have hvalid : c.toNat < 0xD800 ∨ 0xDFFF < c.toNat ∧ c.toNat < 0x110000 := c.valid
  -- what the bytes write is the number of the character
  have hchar {n : Nat} (e : n = c.toNat) : Char.ofNat n = c := by rw [e, Char.ofNat_toNat]
  simp only [utf8Char]
  split
  · next h =>
    rw [List.singleton_append, decodeFrom, if_pos h, Char.ofNat_toNat]
    rfl
  · split
    · rw [List.cons_append, decodeFrom_begin (by omega) (begin?_two (by omega) (by omega) p),
        List.singleton_append, decodeFrom_last rfl (by simp only; omega),
        hchar (by simp only; omega)]
      rfl
    · split
      · rw [List.cons_append, decodeFrom_begin (by omega) (begin?_three (by omega) p),
          List.cons_append, decodeFrom_more rfl ?_, List.singleton_append, decodeFrom_last rfl ?_,
          hchar ?_]
        · rfl
        · simp only
          omega
        · simp only
          omega
        · simp only
          split <;> split <;> omega
      · rw [List.cons_append, decodeFrom_begin (by omega) (begin?_four (by omega) p),
          List.cons_append, decodeFrom_more rfl ?_, List.cons_append, decodeFrom_more rfl ?_,
          List.singleton_append, decodeFrom_last rfl ?_, hchar ?_]
        · rfl
        · simp only
          omega
        · simp only
          omega
        · simp only
          omega
        · simp only
          split <;> split <;> omega

/-! ## Texts -/

theorem decodeFrom_utf8 (t : Text) (p : Nat) : decodeFrom p none (utf8 t) = .ok t := by
  induction t generalizing p with
  | nil => rfl
  | cons c t ih =>
    rw [utf8, List.flatMap_cons, decodeFrom_utf8Char, ← utf8, ih]
    rfl

/-- **The bytes of a text are decoded as the text.** -/
theorem decode_utf8 (t : Text) : decode (utf8 t) = .ok t := decodeFrom_utf8 t 0

/-! ## Code points that are no text -/

/-- A code point is a character, or it has no bytes. -/
theorem exists_toNat_or_isNoCharacter (n : Nat) :
    (∃ c : Char, c.toNat = n) ∨ isNoCharacter n = true := by
  by_cases hn : n.isValidChar
  · exact .inl ⟨Char.ofNatAux n hn, rfl⟩
  · exact .inr (by simp [isNoCharacter, hn])

theorem encodeFrom_isNoCharacter {n : Nat} (hn : isNoCharacter n = true) (position : Nat)
    (ps : List Nat) : encodeFrom position (n :: ps) =
      .error ⟨position, position + (ps.takeWhile isNoCharacter).length, n⟩ := by
  rw [encodeFrom, if_pos hn]

/-- Code points are a text, or a text up to the first of them that has no bytes. -/
theorem exists_text_or_append (ps : List Nat) :
    (∃ t : Text, ps = t.map Char.toNat) ∨
      ∃ (t : Text) (n : Nat) (rest : List Nat), ps = t.map Char.toNat ++ n :: rest ∧
        isNoCharacter n = true := by
  induction ps with
  | nil => exact .inl ⟨[], rfl⟩
  | cons m ps ih =>
    obtain ⟨c, rfl⟩ | hm := exists_toNat_or_isNoCharacter m
    · obtain ⟨t, rfl⟩ | ⟨t, n, rest, rfl, hn⟩ := ih
      · exact .inl ⟨c :: t, rfl⟩
      · exact .inr ⟨c :: t, n, rest, rfl, hn⟩
    · exact .inr ⟨[], m, ps, rfl, hm⟩

/-- **What can be encoded** are texts. -/
theorem encode_eq_ok_iff {ps bytes : List Nat} :
    encode ps = .ok bytes ↔ ∃ t : Text, ps = t.map Char.toNat ∧ bytes = utf8 t := by
  constructor
  · intro h
    obtain ⟨t, rfl⟩ | ⟨t, n, rest, rfl, hn⟩ := exists_text_or_append ps
    · exact ⟨t, rfl, (Except.ok.inj ((encode_points t).symm.trans h)).symm⟩
    · rw [encode, encodeFrom_append, encodeFrom_isNoCharacter hn] at h
      cases h
  · rintro ⟨t, rfl, rfl⟩
    exact encode_points t

/-- **Where encoding fails**: at the first code point without bytes, and at all of those that follow
it right away. -/
theorem encode_eq_error_iff {ps : List Nat} {e : EncodingError} :
    encode ps = .error e ↔ ∃ (t : Text) (n : Nat) (rest : List Nat),
      ps = t.map Char.toNat ++ n :: rest ∧ isNoCharacter n = true ∧
      e = ⟨t.length, t.length + (rest.takeWhile isNoCharacter).length, n⟩ := by
  -- the characters before it are encoded one by one
  have herror {t : Text} {n : Nat} {rest : List Nat} (hn : isNoCharacter n = true) :
      encode (t.map Char.toNat ++ n :: rest) =
        .error ⟨t.length, t.length + (rest.takeWhile isNoCharacter).length, n⟩ := by
    rw [encode, encodeFrom_append, encodeFrom_isNoCharacter hn, Nat.zero_add]
    rfl
  constructor
  · intro h
    obtain ⟨t, rfl⟩ | ⟨t, n, rest, rfl, hn⟩ := exists_text_or_append ps
    · rw [encode_points] at h
      cases h
    · exact ⟨t, n, rest, rfl, hn, (Except.error.inj ((herror hn).symm.trans h)).symm⟩
  · rintro ⟨t, n, rest, rfl, hn, rfl⟩
    exact herror hn
end Showcase.Text
