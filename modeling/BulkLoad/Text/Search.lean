/-!
# Searching in a text

Occurrences of a pattern are found from the left and do not overlap.
-/

namespace BulkLoad.Text

/-- The text before and after the first occurrence of a pattern. -/
def cut? (pattern : List Char) : List Char → Option (List Char × List Char)
  | [] => if pattern.isEmpty then some ([], []) else none
  | c :: rest =>
      if pattern.isPrefixOf (c :: rest) then some ([], (c :: rest).drop pattern.length)
      else (cut? pattern rest).map fun (before, after) => (c :: before, after)

/-- Whether the pattern occurs in the text. -/
def contains (text pattern : String) : Bool := (cut? pattern.toList text.toList).isSome

/-- The text after the last occurrence of a pattern, or the whole text without one. The pattern is
not empty, and `fuel` is the length of the text. -/
def afterLastFrom (pattern : List Char) : (fuel : Nat) → List Char → List Char
  | 0, text => text
  | fuel + 1, text =>
      match cut? pattern text with
      | none => text
      | some (_, after) => afterLastFrom pattern fuel after

/-- The text after the last occurrence of a pattern, or the whole text without one. -/
def afterLast (pattern text : List Char) : List Char := afterLastFrom pattern text.length text

/-- The natural number below `2 ^ 64` that a text writes in decimal digits, after an optional plus
sign. -/
def natural? (text : List Char) : Option Nat :=
  let digits := if text.head? == some '+' then text.drop 1 else text
  if digits.isEmpty || !digits.all Char.isDigit then none
  else
    let n := digits.foldl (fun n c => n * 10 + (c.toNat - '0'.toNat)) 0
    if n < 18446744073709551616 then some n else none

end BulkLoad.Text
