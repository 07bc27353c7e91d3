import BulkLoad.Json.Basic

/-!
# Writing JSON

`Json.render` writes a value without white space. Quotes, backslashes and controls are escaped, and
every other character stands for itself.
-/

namespace BulkLoad.Json

/-- Four hexadecimal digits in lower case. -/
def hex4 (n : Nat) : List Char :=
  [n / 4096 % 16, n / 256 % 16, n / 16 % 16, n % 16].map Nat.digitChar

/-- How a character is written inside a string literal. -/
def renderChar (c : Char) : List Char :=
  if c == '"' then ['\\', '"']
  else if c == '\\' then ['\\', '\\']
  else if c == '\x08' then ['\\', 'b']
  else if c == '\x0c' then ['\\', 'f']
  else if c == '\n' then ['\\', 'n']
  else if c == '\r' then ['\\', 'r']
  else if c == '\t' then ['\\', 't']
  else if c.toNat < 0x20 then '\\' :: 'u' :: hex4 c.toNat
  else [c]

/-- How a piece is written inside a string literal. -/
def renderPiece : Piece → List Char
  | .char c => renderChar c
  | .surrogate half => '\\' :: 'u' :: hex4 half

/-- A string literal with its quotes. -/
def renderLiteral (l : Literal) : List Char :=
  '"' :: (l.pieces.flatMap renderPiece ++ ['"'])

/-- A number literal. -/
def renderNumeral (n : Numeral) : List Char :=
  (if n.negative then ['-'] else []) ++ n.whole ++
    (match n.fraction with
     | none => []
     | some digits => '.' :: digits) ++
    match n.exponent with
    | none => []
    | some (negative, digits) => 'e' :: (if negative then '-' else '+') :: digits

mutual

/-- The characters of a value. -/
def renderChars : Json → List Char
  | null => "null".toList
  | bool true => "true".toList
  | bool false => "false".toList
  | number n => renderNumeral n
  | string l => renderLiteral l
  | array items _ => '[' :: renderItems items
  | object members _ => '{' :: renderMembers members
  | broken _ _ => []

/-- The values of an array up to its closing bracket. -/
def renderItems : List Json → List Char
  | [] => [']']
  | [item] => renderChars item ++ [']']
  | item :: rest => renderChars item ++ ',' :: renderItems rest

/-- The members of an object up to its closing brace. -/
def renderMembers : List (Literal × Json) → List Char
  | [] => ['}']
  | [(name, item)] => renderLiteral name ++ ':' :: (renderChars item ++ ['}'])
  | (name, item) :: rest =>
      renderLiteral name ++ ':' :: (renderChars item ++ ',' :: renderMembers rest)

end

/-- The text of a value, without white space. -/
def render (v : Json) : String := String.ofList (renderChars v)

end BulkLoad.Json
