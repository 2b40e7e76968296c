import StructUnfold.Proofs.Text.Offset

/-!
# Bytes of a text

An ASCII character is one byte, and the bytes of all other characters are none of these. So what is
looked for among ASCII characters can be looked for in the bytes.

* `Text.encode`: the bytes of a text.
* `Text.head?_encode`: a text begins with an ASCII character if its bytes do.
* `Text.takeWhile_encode`: what is taken of the bytes up to an ASCII character.
-/

namespace StructUnfold.Text

variable {c d : Char} {s : List Char}

/-- The bytes of a text. -/
def encode (s : List Char) : List UInt8 :=
  s.flatMap String.utf8EncodeChar

/-- The byte of an ASCII character. -/
def byte (c : Char) : UInt8 :=
  c.val.toUInt8

@[simp] theorem encode_nil : encode [] = [] := rfl

theorem encode_cons (c : Char) (s : List Char) :
    encode (c :: s) = String.utf8EncodeChar c ++ encode s := rfl

theorem encode_append (s t : List Char) : encode (s ++ t) = encode s ++ encode t :=
  List.flatMap_append

theorem length_encode (s : List Char) : (encode s).length = byteSize s := by
  induction s with
  | nil => rfl
  | cons c s ih =>
    rw [encode_cons, List.length_append, String.length_utf8EncodeChar, ih, byteSize_cons]

/-- An ASCII character is one byte. -/
theorem encode_cons_of_ascii (h : c.utf8Size = 1) (s : List Char) :
    encode (c :: s) = byte c :: encode s := by
  rw [encode_cons, String.utf8EncodeChar_eq_singleton h]
  rfl

theorem toNat_byte (h : c.utf8Size = 1) : (byte c).toNat = c.toNat := by
  have hle : c.val.toNat ≤ 127 := UInt32.le_iff_toNat_le.1 (Char.utf8Size_eq_one_iff.1 h)
  rw [byte, UInt32.toNat_toUInt8]
  exact Nat.mod_eq_of_lt (by omega)

/-- ASCII characters are told apart by their bytes. -/
theorem byte_eq_iff (hc : c.utf8Size = 1) (hd : d.utf8Size = 1) : byte c = byte d ↔ c = d := by
  rw [← UInt8.toNat_inj, toNat_byte hc, toNat_byte hd, Char.toNat_inj]

/-- Other characters are made up of bytes that are none of ASCII characters. -/
theorem le_of_mem_utf8EncodeChar (h : c.utf8Size ≠ 1) {b : UInt8}
    (hb : b ∈ String.utf8EncodeChar c) : 128 ≤ b.toNat := by
  have hlarge : ¬c.val.toNat ≤ 127 := fun hle =>
    h (Char.utf8Size_eq_one_iff.2 (UInt32.le_iff_toNat_le.2 hle))
  rw [String.utf8EncodeChar, if_neg hlarge] at hb
  split at hb
  · simp only [List.mem_cons, List.not_mem_nil, or_false] at hb
    rcases hb with rfl | rfl <;> rw [UInt8.toNat_ofNat'] <;> omega
  · split at hb
    · simp only [List.mem_cons, List.not_mem_nil, or_false] at hb
      rcases hb with rfl | rfl | rfl <;> rw [UInt8.toNat_ofNat'] <;> omega
    · simp only [List.mem_cons, List.not_mem_nil, or_false] at hb
      rcases hb with rfl | rfl | rfl | rfl <;> rw [UInt8.toNat_ofNat'] <;> omega

theorem ne_of_high {b : UInt8} {c : Char} (hb : 128 ≤ b.toNat) (hc : c.utf8Size = 1) :
    b ≠ byte c := by
  rintro rfl
  have hle : c.val.toNat ≤ 127 := UInt32.le_iff_toNat_le.1 (Char.utf8Size_eq_one_iff.1 hc)
  have hval : c.toNat = c.val.toNat := rfl
  rw [toNat_byte hc] at hb
  omega

theorem ne_of_wide {c d : Char} (hc : c.utf8Size ≠ 1) (hd : d.utf8Size = 1) : c ≠ d := by
  rintro rfl
  exact hc hd

/-- The bytes of a character that is not ASCII begin with one that is the byte of no character. -/
theorem exists_encode_cons {c : Char} (hc : c.utf8Size ≠ 1) (s : List Char) :
    ∃ b bs, encode (c :: s) = b :: bs ∧ 128 ≤ b.toNat := by
  have hne : String.utf8EncodeChar c ≠ [] := by
    refine List.ne_nil_of_length_pos ?_
    rw [String.length_utf8EncodeChar]
    exact c.utf8Size_pos
  obtain ⟨b, bs, hbytes⟩ := List.exists_cons_of_ne_nil hne
  refine ⟨b, bs ++ encode s, by rw [encode_cons, hbytes, List.cons_append], ?_⟩
  exact le_of_mem_utf8EncodeChar hc (hbytes ▸ List.mem_cons_self)

/-- The bytes of a text begin with that of an ASCII character exactly if the text does. -/
theorem head?_encode (hd : d.utf8Size = 1) :
    (encode s).head? = some (byte d) ↔ s.head? = some d := by
  cases s with
  | nil => simp
  | cons c s =>
    by_cases hc : c.utf8Size = 1
    · rw [encode_cons_of_ascii hc, List.head?_cons, List.head?_cons, Option.some_inj,
        Option.some_inj, byte_eq_iff hc hd]
    · obtain ⟨b, bs, hbytes, hb⟩ := exists_encode_cons hc s
      rw [hbytes, List.head?_cons, List.head?_cons, Option.some_inj, Option.some_inj]
      exact iff_of_false (ne_of_high hb hd) (ne_of_wide hc hd)

/-- What is taken of the bytes up to an ASCII character is taken of the characters. -/
theorem takeWhile_encode {d : Char} (hd : d.utf8Size = 1) (s : List Char) :
    (encode s).takeWhile (· != byte d) = encode (s.takeWhile (· != d)) ∧
      (encode s).dropWhile (· != byte d) = encode (s.dropWhile (· != d)) := by
  induction s with
  | nil => exact ⟨rfl, rfl⟩
  | cons c s ih =>
    by_cases hc : c.utf8Size = 1
    · by_cases heq : c = d
      · subst heq
        simp [encode_cons_of_ascii hc]
      · have hbyte : (byte c != byte d) = true := by
          simpa using fun h => heq ((byte_eq_iff hc hd).1 h)
        have hchar : (c != d) = true := by simpa using heq
        rw [encode_cons_of_ascii hc, List.takeWhile_cons, if_pos hbyte, List.dropWhile_cons,
          if_pos hbyte, List.takeWhile_cons, if_pos hchar, List.dropWhile_cons, if_pos hchar, ih.1,
          ih.2, encode_cons_of_ascii hc]
        exact ⟨rfl, rfl⟩
    · have hbytes : ∀ b ∈ String.utf8EncodeChar c, (b != byte d) = true := fun b hb => by
        simpa using ne_of_high (le_of_mem_utf8EncodeChar hc hb) hd
      have hchar : (c != d) = true := by simpa using ne_of_wide hc hd
      rw [encode_cons, List.takeWhile_append_of_pos hbytes, List.dropWhile_append_of_pos hbytes,
        List.takeWhile_cons, if_pos hchar, List.dropWhile_cons, if_pos hchar, ih.1, ih.2,
        encode_cons]
      exact ⟨rfl, rfl⟩

end StructUnfold.Text
