/-!
# JSON values as they stand in a text

A `Json` value keeps what the text says about numbers and strings, because whether a literal is
acceptable depends on what it is read for: a lone half of a surrogate pair or an exponent out of
range is refused when the value is wanted and passes when the value is skipped. A value can also be
incomplete. The text may break off inside an array or an object (`stop`), or where a value should
stand (`broken`); reading a value for a purpose meets these places in the order of the text.
-/

namespace BulkLoad

/-- Why a text stops being JSON: it goes on with something impossible, or it ends too early. -/
inductive Json.Fault where
  | malformed
  | ended
deriving DecidableEq

/-- One piece of a string literal: a character, or one half of a surrogate pair by its number. -/
inductive Json.Piece where
  | char (c : Char)
  | surrogate (half : Nat)
deriving DecidableEq

/-- A string literal: its pieces, and the fault at which it breaks off, if it does. -/
structure Json.Literal where
  pieces : List Json.Piece
  stop : Option Json.Fault
deriving DecidableEq

/-- A number literal: the digits before the point, those after it, and the exponent with its
sign. -/
structure Json.Numeral where
  negative : Bool
  whole : List Char
  fraction : Option (List Char)
  exponent : Option (Bool × List Char)
deriving DecidableEq

/-- A JSON value as far as its text goes. `broken` stands where the text breaks off before a value
is complete; the fault may differ between a value that is wanted and one that is skipped. -/
inductive Json where
  | null
  | bool (value : Bool)
  | number (numeral : Json.Numeral)
  | string (literal : Json.Literal)
  | array (items : List Json) (stop : Option Json.Fault)
  | object (members : List (Json.Literal × Json)) (stop : Option Json.Fault)
  | broken (wanted skipped : Json.Fault)

namespace Json

instance : Inhabited Json := ⟨null⟩

/-- The literal that holds exactly the characters of a text. -/
def Literal.ofString (s : String) : Literal := ⟨s.toList.map Piece.char, none⟩

/-- The characters of the pieces, with surrogate halves joined in pairs. A half without its partner
is malformed, except that a text that ends there is said to have ended. -/
def Literal.chars (stop : Option Fault) : List Piece → Except Fault (List Char)
  | [] =>
      match stop with
      | none => .ok []
      | some fault => .error fault
  | .char c :: rest => (Literal.chars stop rest).map (c :: ·)
  | [.surrogate high] =>
      if high < 0xDC00 then .error (stop.getD .malformed) else .error .malformed
  | .surrogate _ :: .char _ :: _ => .error .malformed
  | .surrogate high :: .surrogate low :: rest =>
      if high < 0xDC00 && 0xDC00 ≤ low then
        (Literal.chars stop rest).map
          (Char.ofNat (0x10000 + (high - 0xD800) * 0x400 + (low - 0xDC00)) :: ·)
      else .error .malformed

/-- The text of a literal, or the first fault in it. -/
def Literal.text (l : Literal) : Except Fault String :=
  (Literal.chars l.stop l.pieces).map String.ofList

/-- The whole number that a list of decimal digits writes. -/
def ofDigits (digits : List Char) : Nat :=
  digits.foldl (fun n c => n * 10 + (c.toNat - '0'.toNat)) 0

/-- The numeral of a natural number. -/
def Numeral.ofNat (n : Nat) : Numeral := ⟨false, Nat.toDigits 10 n, none, none⟩

/-- The value of a natural number. -/
def ofNat (n : Nat) : Json := number (Numeral.ofNat n)

/-- The value of a text. -/
def ofString (s : String) : Json := string (Literal.ofString s)

/-- The complete array of these values. -/
def ofList (items : List Json) : Json := array items none

/-- The complete object of these members. -/
def ofMembers (members : List (String × Json)) : Json :=
  object (members.map fun (name, value) => (Literal.ofString name, value)) none

/-- The value itself, or null in place of nothing. -/
def ofOption {α : Type} (value : α → Json) : Option α → Json
  | none => null
  | some x => value x

end Json

end BulkLoad
