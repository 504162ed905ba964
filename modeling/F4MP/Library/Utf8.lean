import Mathlib.Data.Nat.Bitwise

/-!
Valid UTF-8 as a list of bytes: when a text cut off after some bytes is still valid, and
that dropping bytes of ASCII characters keeps it valid.
-/

namespace F4MP.Library.Utf8

/-- The encoding of some characters. -/
def Valid (bytes : List UInt8) : Prop :=
  ∃ chars : List Char, bytes = chars.flatMap String.utf8EncodeChar

theorem valid_iff_isValidUTF8 {bytes : List UInt8} :
    Valid bytes ↔ bytes.toByteArray.IsValidUTF8 := by
  constructor
  · rintro ⟨chars, rfl⟩
    exact ⟨chars, rfl⟩
  · rintro ⟨chars, heq⟩
    refine ⟨chars, ?_⟩
    have hlist := congrArg (fun bytes : ByteArray => bytes.data.toList) heq
    simpa [List.utf8Encode] using hlist

/-- A position inside a valid text is the end of a valid one if the next byte is the first
of a character. -/
theorem isValidUTF8_take_iff {bytes : List UInt8} (h : bytes.toByteArray.IsValidUTF8)
    {count : Nat} (hlt : count < bytes.length) :
    (bytes.take count).toByteArray.IsValidUTF8 ↔ bytes[count].IsUTF8FirstByte := by
  have hboundary := String.Pos.Raw.isValid_iff_isUTF8FirstByte
    (s := .ofByteArray bytes.toByteArray h) (p := ⟨count⟩)
  rw [String.Pos.Raw.isValid_iff_isValidUTF8_extract_zero] at hboundary
  have hsize : (String.ofByteArray bytes.toByteArray h).rawEndPos = ⟨bytes.length⟩ := by
    simp [String.rawEndPos, String.utf8ByteSize]
  have hextract : bytes.toByteArray.extract 0 count = (bytes.take count).toByteArray := by
    apply ByteArray.ext
    apply Array.toList_inj.mp
    simp [List.extract]
  have hlt' : count < bytes.toByteArray.size := by simpa using hlt
  have hbyte : bytes.toByteArray[count] = bytes[count] := by
    simp [ByteArray.getElem_eq_getElem_data]
  rw [← hextract, ← hbyte]
  constructor
  · intro hvalid
    rcases hboundary.mp ⟨by rw [hsize]; exact Nat.le_of_lt hlt, hvalid⟩ with hend | ⟨_, hfirst⟩
    · rw [hsize] at hend
      exact absurd (congrArg String.Pos.Raw.byteIdx hend) (Nat.ne_of_lt hlt)
    · exact hfirst
  · intro hfirst
    exact (hboundary.mpr (.inr ⟨by rw [hsize]; exact hlt, hfirst⟩)).2

/-- A valid text cut off is valid exactly if what was cut off, if anything, began with the
first byte of a character. -/
theorem Valid.take_iff {bytes : List UInt8} (h : Valid bytes) (count : Nat) :
    Valid (bytes.take count) ↔ ∀ b, bytes[count]? = some b → b.IsUTF8FirstByte := by
  rcases Nat.lt_or_ge count bytes.length with hlt | hge
  · rw [valid_iff_isValidUTF8, isValidUTF8_take_iff (valid_iff_isValidUTF8.mp h) hlt,
      List.getElem?_eq_getElem hlt]
    exact ⟨fun hfirst b hb => Option.some.inj hb ▸ hfirst, fun hfirst => hfirst _ rfl⟩
  · rw [List.take_of_length_le hge, List.getElem?_eq_none hge]
    exact ⟨fun _ => by rintro _ ⟨⟩, fun _ => h⟩

theorem mem_utf8EncodeChar {c : Char} {b : UInt8} (h : b ∈ String.utf8EncodeChar c) :
    0x80 ≤ b ∨ String.utf8EncodeChar c = [b] := by
  have hhigh : ∀ low high : UInt8, 0x80 ≤ high → 0x80 ≤ low ||| high := by
    intro low high hle
    rw [UInt8.le_iff_toNat_le] at hle ⊢
    rw [UInt8.toNat_or]
    exact Nat.le_trans hle Nat.right_le_or
  obtain hsize | hsize | hsize | hsize : c.utf8Size = 1 ∨ c.utf8Size = 2 ∨ c.utf8Size = 3 ∨
      c.utf8Size = 4 := by
    have hpos := c.utf8Size_pos
    have hle := c.utf8Size_le_four
    omega
  · rw [String.utf8EncodeChar_eq_singleton hsize, List.mem_singleton] at h
    exact .inr (by rw [String.utf8EncodeChar_eq_singleton hsize, h])
  · rw [String.utf8EncodeChar_eq_cons_cons hsize] at h
    simp only [List.mem_cons, List.not_mem_nil, or_false] at h
    rcases h with rfl | rfl <;> exact .inl (hhigh _ _ (by decide))
  · rw [String.utf8EncodeChar_eq_cons_cons_cons hsize] at h
    simp only [List.mem_cons, List.not_mem_nil, or_false] at h
    rcases h with rfl | rfl | rfl <;> exact .inl (hhigh _ _ (by decide))
  · rw [String.utf8EncodeChar_eq_cons_cons_cons_cons hsize] at h
    simp only [List.mem_cons, List.not_mem_nil, or_false] at h
    rcases h with rfl | rfl | rfl | rfl <;> exact .inl (hhigh _ _ (by decide))

theorem Valid.append {bytes more : List UInt8} (h : Valid bytes) (hmore : Valid more) :
    Valid (bytes ++ more) := by
  obtain ⟨chars, rfl⟩ := h
  obtain ⟨others, rfl⟩ := hmore
  exact ⟨chars ++ others, List.flatMap_append.symm⟩

theorem Valid.filter {bytes : List UInt8} (h : Valid bytes) {keep : UInt8 → Bool}
    (hkeep : ∀ b, 0x80 ≤ b → keep b = true) : Valid (bytes.filter keep) := by
  obtain ⟨chars, rfl⟩ := h
  induction chars with
  | nil => exact ⟨[], rfl⟩
  | cons c chars ih =>
      rw [List.flatMap_cons, List.filter_append]
      refine Valid.append ?_ ih
      by_cases hall : ∀ b ∈ String.utf8EncodeChar c, keep b = true
      · rw [List.filter_eq_self.mpr hall]
        exact ⟨[c], (List.append_nil _).symm⟩
      · simp only [not_forall] at hall
        obtain ⟨b, hb, hdropped⟩ := hall
        rcases mem_utf8EncodeChar hb with hhigh | hone
        · exact absurd (hkeep b hhigh) hdropped
        · rw [hone, List.filter_cons_of_neg hdropped]
          exact ⟨[], rfl⟩

theorem isUTF8FirstByte_of_lt {b : UInt8} (h : b < 0x80) : b.IsUTF8FirstByte := by
  left
  apply UInt8.toNat_inj.mp
  have hbit : b.toNat.testBit 7 = false := Nat.testBit_lt_two_pow (UInt8.lt_iff_toNat_lt.mp h)
  calc (b &&& 0x80).toNat = b.toNat &&& 2 ^ 7 := UInt8.toNat_and b 0x80
    _ = (b.toNat.testBit 7).toNat * 2 ^ 7 := Nat.and_two_pow _ _
    _ = 0 := by rw [hbit]; rfl

/-- A valid text cut off stays valid without some ASCII characters exactly if it was valid
with them. -/
theorem Valid.filter_take_iff {bytes : List UInt8} (h : Valid bytes) {keep : UInt8 → Bool}
    (hkeep : ∀ b, 0x80 ≤ b → keep b = true) (count : Nat) :
    Valid ((bytes.take count).filter keep) ↔ ∀ b, bytes[count]? = some b → b.IsUTF8FirstByte := by
  constructor
  · intro hvalid b hb
    by_cases hkept : keep b = true
    · have hsplit : bytes.filter keep = (bytes.take count).filter keep ++
          b :: (bytes.drop (count + 1)).filter keep := by
        obtain ⟨hlt, rfl⟩ := List.getElem?_eq_some_iff.mp hb
        rw [← List.filter_cons_of_pos hkept, ← List.drop_eq_getElem_cons hlt, ← List.filter_append,
          List.take_append_drop]
      have hcut := (h.filter hkeep).take_iff ((bytes.take count).filter keep).length
      rw [hsplit, List.take_left' rfl, List.getElem?_append_right (Nat.le_refl _),
        Nat.sub_self] at hcut
      exact hcut.mp hvalid b rfl
    · apply isUTF8FirstByte_of_lt
      by_contra hhigh
      exact hkept (hkeep b (UInt8.not_lt.mp hhigh))
  · intro hcut
    exact ((h.take_iff count).mpr hcut).filter hkeep

end F4MP.Library.Utf8
