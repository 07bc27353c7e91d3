/-!
# Bytes as UTF-8 text

`Utf8.decode` turns bytes into characters. Where the bytes stop being well formed it reports how
many bytes before that point are well formed. `Utf8.decodeLossy` goes on behind that point, with a
replacement character for every beginning of a character that is not continued.
-/

namespace BulkLoad.Text.Utf8

/-- Decode the bytes after a prefix of `valid` well-formed bytes. -/
def decodeFrom (valid : Nat) (bytes : List UInt8) : Except Nat (List Char) :=
  match bytes with
  | [] => .ok []
  | b :: rest =>
      match (((b :: rest).take 4).toByteArray.utf8DecodeChar? 0) with
      | none => .error valid
      | some c =>
          (decodeFrom (valid + c.utf8Size) ((b :: rest).drop c.utf8Size)).map (c :: ·)
termination_by bytes.length
decreasing_by
  have := c.utf8Size_pos
  simp only [List.length_drop, List.length_cons]
  omega

/-- The characters that the bytes encode, or the length of the longest well-formed beginning. -/
def decode (bytes : List UInt8) : Except Nat (List Char) := decodeFrom 0 bytes

/-- Whether a byte can follow the first one of a character. -/
def isContinuation (b : UInt8) : Bool := 0x80 ≤ b && b ≤ 0xBF

/-- How many bytes a character has that begins with this byte, and the least and the greatest second
byte that it can have; none if no character of more than one byte begins so. -/
def lead? (b : UInt8) : Option (Nat × UInt8 × UInt8) :=
  if b < 0xC2 || 0xF4 < b then none
  else if b < 0xE0 then some (2, 0x80, 0xBF)
  else if b == 0xE0 then some (3, 0xA0, 0xBF)
  else if b == 0xED then some (3, 0x80, 0x9F)
  else if b < 0xF0 then some (3, 0x80, 0xBF)
  else if b == 0xF0 then some (4, 0x90, 0xBF)
  else if b == 0xF4 then some (4, 0x80, 0x8F)
  else some (4, 0x80, 0xBF)

/-- How many of the bytes behind the first one still belong to a character that is not complete. -/
def brokenTail (first : UInt8) (rest : List UInt8) : Nat :=
  match lead? first, rest with
  | some (size, least, greatest), second :: others =>
      if least ≤ second && second ≤ greatest then
        1 + ((others.take (size - 3)).takeWhile isContinuation).length
      else 0
  | _, _ => 0

/-- The characters that the bytes encode. Bytes that encode none are replaced, with one replacement
for each beginning of a character and for each byte that begins none. -/
def decodeLossy (bytes : List UInt8) : List Char :=
  match bytes with
  | [] => []
  | b :: rest =>
      match (((b :: rest).take 4).toByteArray.utf8DecodeChar? 0) with
      | none => '\uFFFD' :: decodeLossy (rest.drop (brokenTail b rest))
      | some c => c :: decodeLossy ((b :: rest).drop c.utf8Size)
termination_by bytes.length
decreasing_by
  · simp only [List.length_drop, List.length_cons]
    omega
  · have := c.utf8Size_pos
    simp only [List.length_drop, List.length_cons]
    omega

/-- The bytes that encode the characters. -/
def encode (text : List Char) : List UInt8 := text.flatMap String.utf8EncodeChar

end BulkLoad.Text.Utf8
