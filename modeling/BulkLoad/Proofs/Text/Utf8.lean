import BulkLoad.Text.Utf8

/-!
# Decoding undoes encoding

Bytes that encode a text decode to it (`decode_encode`), and no others do (`encode_of_decode`). A
character within ASCII is encoded by the byte of its number, and the bytes of all others have their
highest bit set, so that a byte within ASCII stands for nothing else wherever it occurs
(`byte_of_char`).
-/

namespace BulkLoad.Text.Utf8

/-- The bytes of two texts after each other. -/
theorem encode_append (text more : List Char) :
    encode (text ++ more) = encode text ++ encode more := List.flatMap_append

/-- The bytes of a character and a text after it. -/
theorem encode_cons (c : Char) (text : List Char) :
    encode (c :: text) = String.utf8EncodeChar c ++ encode text :=
  List.flatMap_cons

/-- The bytes of a text of one character. -/
theorem encode_singleton (c : Char) : encode [c] = String.utf8EncodeChar c := by
  rw [encode_cons, encode, List.flatMap_nil, List.append_nil]

/-- A character is found at the beginning of bytes that begin with its own. -/
theorem decode_char (c : Char) (rest : List UInt8) :
    ((String.utf8EncodeChar c ++ rest).take 4).toByteArray.utf8DecodeChar? 0 = some c := by
  have hlength := String.length_utf8EncodeChar c
  have hsize := c.utf8Size_le_four
  rw [List.take_append, List.take_of_length_le (by omega), List.toByteArray_append]
  exact ByteArray.utf8DecodeChar?_utf8EncodeChar_append

/-- What comes before the bytes of a text makes no difference to what they decode to. -/
theorem decode_from_encode (valid : Nat) (text : List Char) :
    decodeFrom valid (encode text) = .ok text := by
  induction text generalizing valid with
  | nil => rw [encode, List.flatMap_nil, decodeFrom]
  | cons c text ih =>
      have hlength := String.length_utf8EncodeChar c
      have hpos := c.utf8Size_pos
      obtain ⟨b, rest, hbytes⟩ := List.exists_cons_of_length_pos (hlength ▸ hpos)
      have hall : encode (c :: text) = b :: (rest ++ encode text) := by
        rw [encode_cons, hbytes, List.cons_append]
      rw [hall, decodeFrom, ← hall, encode_cons, decode_char]
      show (decodeFrom _ ((String.utf8EncodeChar c ++ encode text).drop c.utf8Size)).map _ = _
      rw [List.drop_left' hlength, ih]
      rfl

/-- The bytes of a text decode to it. -/
theorem decode_encode (text : List Char) : decode (encode text) = .ok text :=
  decode_from_encode 0 text

/-- Bytes at whose beginning a character is found begin with its own. -/
theorem bytes_of_char {bytes : List UInt8} {c : Char}
    (h : (bytes.take 4).toByteArray.utf8DecodeChar? 0 = some c) :
    String.utf8EncodeChar c ++ bytes.drop c.utf8Size = bytes := by
  have hsplit := congrArg (·.data.toList) (ByteArray.eq_of_utf8DecodeChar?_eq_some h)
  simp only [List.toList_data_toByteArray, ByteArray.toList_data_append] at hsplit
  have hbegins : String.utf8EncodeChar c <+: bytes :=
    List.IsPrefix.trans ⟨_, hsplit.symm⟩ (List.take_prefix 4 bytes)
  obtain ⟨rest, rfl⟩ := hbegins
  rw [List.drop_left' (String.length_utf8EncodeChar c)]

/-- Bytes that decode to a text are those that encode it, whatever comes before them. -/
theorem encode_of_decode_from {valid : Nat} {bytes : List UInt8} {text : List Char}
    (h : decodeFrom valid bytes = .ok text) : encode text = bytes := by
  fun_induction decodeFrom valid bytes generalizing text with
  | case1 valid =>
      cases h
      rfl
  | case2 valid b rest hnone => cases h
  | case3 valid b rest c hchar ih =>
      cases hrest : decodeFrom (valid + c.utf8Size) ((b :: rest).drop c.utf8Size) with
      | error stop =>
          rw [hrest] at h
          cases h
      | ok later =>
          rw [hrest] at h
          obtain rfl := Except.ok.inj h
          rw [encode_cons, ih hrest]
          exact bytes_of_char hchar

/-- Bytes that decode to a text are those that encode it. -/
theorem encode_of_decode {bytes : List UInt8} {text : List Char} (h : decode bytes = .ok text) :
    encode text = bytes := encode_of_decode_from h

/-- A character within ASCII is encoded by the byte of its number. -/
theorem encode_ascii {c : Char} (hc : c.toNat < 128) :
    String.utf8EncodeChar c = [c.toNat.toUInt8] := by
  have hsmall : c.val.toNat ≤ 0x7f := Nat.le_of_lt_succ hc
  rw [String.utf8EncodeChar, if_pos hsmall]
  rfl

/-- The bytes of a character outside ASCII are outside ASCII as well. -/
theorem outside_ascii {c : Char} {b : UInt8} (hc : 128 ≤ c.toNat)
    (hb : b ∈ String.utf8EncodeChar c) : 128 ≤ b.toNat := by
  have hlarge : ¬ c.val.toNat ≤ 0x7f := Nat.not_le.mpr hc
  simp only [String.utf8EncodeChar, if_neg hlarge] at hb
  split at hb
  next =>
    simp only [List.mem_cons, List.not_mem_nil, or_false] at hb
    rcases hb with rfl | rfl <;> rw [UInt8.toNat_ofNat'] <;> omega
  next =>
    split at hb
    next =>
      simp only [List.mem_cons, List.not_mem_nil, or_false] at hb
      rcases hb with rfl | rfl | rfl <;> rw [UInt8.toNat_ofNat'] <;> omega
    next =>
      simp only [List.mem_cons, List.not_mem_nil, or_false] at hb
      rcases hb with rfl | rfl | rfl | rfl <;> rw [UInt8.toNat_ofNat'] <;> omega

/-- A byte within ASCII stands for the character of its number. -/
theorem byte_of_char {c : Char} {b : UInt8} (hb : b ∈ String.utf8EncodeChar c)
    (hascii : b.toNat < 128) : c.toNat = b.toNat := by
  rcases Nat.lt_or_ge c.toNat 128 with hc | hc
  · rw [encode_ascii hc] at hb
    rw [List.mem_singleton.mp hb]
    show _ = c.toNat % 256
    omega
  · have hhigh := outside_ascii hc hb
    omega

end BulkLoad.Text.Utf8
