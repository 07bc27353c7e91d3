import BulkLoad.Text.Printable

/-!
# Texts quoted for a reader

Messages show a text between double quotes. Quotes, backslashes and a few controls have short
escapes; a character that has no glyph or attaches to its neighbour is shown by its code point.
-/

namespace BulkLoad.Text

/-- The digits of a number in base sixteen, in lower case. -/
def hex (n : Nat) : String := String.ofList (Nat.toDigits 16 n)

/-- How one character is shown between double quotes. -/
def quotedChar (c : Char) : String :=
  if c == '\x00' then "\\0"
  else if c == '\t' then "\\t"
  else if c == '\r' then "\\r"
  else if c == '\n' then "\\n"
  else if c == '\\' then "\\\\"
  else if c == '"' then "\\\""
  else if isExtender c || !isPrintable c then "\\u\x7b" ++ hex c.toNat ++ "\x7d"
  else String.singleton c

/-- The text between double quotes, with every character shown as `quotedChar` says. -/
def quoted (s : String) : String :=
  "\"" ++ String.join (s.toList.map quotedChar) ++ "\""

end BulkLoad.Text
