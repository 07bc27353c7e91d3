import BulkLoad.Json.Basic

/-!
# Reading JSON

`Json.read` turns a text into a value and the characters after it. It never fails: where the text
stops being JSON, the value says so and nothing is left to read. Arrays and objects may be nested
to any depth. `read` hands each level a budget of one per character, which no text exhausts.
-/

namespace BulkLoad.Json

/-- Whether JSON allows the character between values. -/
def isSpace (c : Char) : Bool := c == ' ' || c == '\n' || c == '\t' || c == '\r'

/-- The rest of the text from the first character that is not white space. -/
def skipSpace (text : List Char) : List Char := text.dropWhile isSpace

/-- The value of a hexadecimal digit. -/
def hexDigit? (c : Char) : Option Nat :=
  if '0' ≤ c && c ≤ '9' then some (c.toNat - '0'.toNat)
  else if 'a' ≤ c && c ≤ 'f' then some (c.toNat - 'a'.toNat + 10)
  else if 'A' ≤ c && c ≤ 'F' then some (c.toNat - 'A'.toNat + 10)
  else none

/-- The piece that four hexadecimal digits stand for. -/
def piece? (a b c d : Char) : Option Piece := do
  let n := (((← hexDigit? a) * 16 + (← hexDigit? b)) * 16 + (← hexDigit? c)) * 16 + (← hexDigit? d)
  return if 0xD800 ≤ n && n < 0xE000 then .surrogate n else .char (Char.ofNat n)

/-- The character that a one-letter escape stands for. -/
def escaped? : Char → Option Char
  | '"' => some '"'
  | '\\' => some '\\'
  | '/' => some '/'
  | 'b' => some '\x08'
  | 'f' => some '\x0c'
  | 'n' => some '\n'
  | 'r' => some '\r'
  | 't' => some '\t'
  | _ => none

/-- Put a piece in front of a literal that is read together with its rest. -/
def Literal.push (piece : Piece) (read : Literal × List Char) : Literal × List Char :=
  (⟨piece :: read.1.pieces, read.1.stop⟩, read.2)

/-- The literal that breaks off here. -/
def Literal.cut (fault : Fault) : Literal × List Char := (⟨[], some fault⟩, [])

/-- Read a string literal from behind its opening quote. An escape of four digits for which fewer
than four bytes are left ends the text; one with other characters in it is malformed. -/
def literal : List Char → Literal × List Char
  | [] => Literal.cut .ended
  | '"' :: rest => (⟨[], none⟩, rest)
  | '\\' :: 'u' :: a :: b :: c :: d :: rest =>
      match piece? a b c d with
      | some piece => Literal.push piece (literal rest)
      | none => Literal.cut .malformed
  | '\\' :: 'u' :: rest =>
      Literal.cut (if (String.ofList rest).utf8ByteSize < 4 then .ended else .malformed)
  | '\\' :: c :: rest =>
      match escaped? c with
      | some plain => Literal.push (.char plain) (literal rest)
      | none => Literal.cut .malformed
  | ['\\'] => Literal.cut .ended
  | c :: rest =>
      if c.toNat < 0x20 then Literal.cut .malformed else Literal.push (.char c) (literal rest)

/-- What has been read of a value, with the text after it when the value is complete. -/
abbrev Read := Json × Option (List Char)

/-- The value that breaks off here for the same reason whether it is wanted or skipped. -/
def Read.cut (fault : Fault) : Read := (broken fault fault, none)

/-- Read the remaining letters of a fixed word. -/
def word (value : Json) : (expected text : List Char) → Read
  | [], text => (value, some text)
  | _ :: _, [] => Read.cut .ended
  | e :: expected, c :: text => if e == c then word value expected text else Read.cut .malformed

/-- The digits at the beginning of a text, and the rest. -/
def digits (text : List Char) : List Char × List Char :=
  (text.takeWhile Char.isDigit, text.dropWhile Char.isDigit)

/-- The value that breaks off inside a number. A number that is skipped is malformed even when the
text ends in it. -/
def Read.cutNumber (text : List Char) : Read :=
  (broken (if text.isEmpty then .ended else .malformed) .malformed, none)

/-- Read the exponent of a number, if one follows. -/
def exponent (build : Option (Bool × List Char) → Numeral) (text : List Char) : Read :=
  match text with
  | c :: rest =>
      if c == 'e' || c == 'E' then
        let (negative, rest) :=
          match rest with
          | '+' :: rest => (false, rest)
          | '-' :: rest => (true, rest)
          | rest => (false, rest)
        match digits rest with
        | ([], rest) => Read.cutNumber rest
        | (exponent, rest) => (number (build (some (negative, exponent))), some rest)
      else (number (build none), some text)
  | [] => (number (build none), some [])

/-- Read a number from behind its sign. A leading zero stands alone. -/
def numeral (negative : Bool) (text : List Char) : Read :=
  match digits text with
  | ([], rest) => Read.cutNumber rest
  | (whole, rest) =>
      if whole.head? == some '0' && whole.length != 1 then Read.cut .malformed
      else
        match rest with
        | '.' :: rest =>
            match digits rest with
            | ([], rest) => Read.cutNumber rest
            | (fraction, rest) => exponent (⟨negative, whole, some fraction, ·⟩) rest
        | rest => exponent (⟨negative, whole, none, ·⟩) rest

/-- Read a number. -/
def numberOf (text : List Char) : Read :=
  match text with
  | '-' :: rest => numeral true rest
  | rest => numeral false rest

mutual

/-- Read one value, after white space. -/
def value (fuel : Nat) (text : List Char) : Read :=
  match fuel with
  | 0 => Read.cut .ended
  | fuel + 1 =>
      match skipSpace text with
      | [] => Read.cut .ended
      | 'n' :: rest => word null "ull".toList rest
      | 't' :: rest => word (bool true) "rue".toList rest
      | 'f' :: rest => word (bool false) "alse".toList rest
      | '"' :: rest =>
          let (text, rest) := literal rest
          (string text, if text.stop.isNone then some rest else none)
      | '[' :: rest =>
          match skipSpace rest with
          | ']' :: rest => (array [] none, some rest)
          | [] => (array [] (some .ended), none)
          | rest =>
              let (read, stop, rest) := items fuel rest
              (array read stop, rest)
      | '{' :: rest =>
          match skipSpace rest with
          | '}' :: rest => (object [] none, some rest)
          | rest =>
              let (read, stop, rest) := members fuel rest
              (object read stop, rest)
      | c :: rest => if c == '-' || c.isDigit then numberOf (c :: rest) else Read.cut .malformed

/-- Read the values of an array up to its closing bracket. -/
def items (fuel : Nat) (text : List Char) : List Json × Option Fault × Option (List Char) :=
  match fuel with
  | 0 => ([], some .ended, none)
  | fuel + 1 =>
      match value fuel text with
      | (item, none) => ([item], some .malformed, none)
      | (item, some rest) =>
          match skipSpace rest with
          | ',' :: rest =>
              let (read, stop, rest) := items fuel rest
              (item :: read, stop, rest)
          | ']' :: rest => ([item], none, some rest)
          | [] => ([item], some .ended, none)
          | _ => ([item], some .malformed, none)

/-- Read the members of an object up to its closing brace. -/
def members (fuel : Nat) (text : List Char) :
    List (Literal × Json) × Option Fault × Option (List Char) :=
  match fuel with
  | 0 => ([], some .ended, none)
  | fuel + 1 =>
      match skipSpace text with
      | [] => ([], some .ended, none)
      | '"' :: rest =>
          let (name, rest) := literal rest
          if name.stop.isSome then ([(name, broken .malformed .malformed)], some .malformed, none)
          else
            match skipSpace rest with
            | ':' :: rest =>
                match value fuel rest with
                | (item, none) => ([(name, item)], some .malformed, none)
                | (item, some rest) =>
                    match skipSpace rest with
                    | ',' :: rest =>
                        let (read, stop, rest) := members fuel rest
                        ((name, item) :: read, stop, rest)
                    | '}' :: rest => ([(name, item)], none, some rest)
                    | [] => ([(name, item)], some .ended, none)
                    | _ => ([(name, item)], some .malformed, none)
            | [] => ([(name, broken .ended .ended)], some .ended, none)
            | _ => ([(name, broken .malformed .malformed)], some .malformed, none)
      | _ => ([], some .malformed, none)

end

/-- Read one value from the beginning of a text. -/
def read (text : List Char) : Read := value (2 * text.length + 2) text

end BulkLoad.Json
