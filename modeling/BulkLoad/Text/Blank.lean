/-!
# Blank text

A text is blank when every character of it has the Unicode property `White_Space`, so the empty
text is blank. The property holds of twenty-five code points.
-/

namespace BulkLoad.Text

/-- Whether the character has the Unicode property `White_Space`. -/
def isSpace (c : Char) : Bool :=
  let n := c.toNat
  (9 ≤ n && n ≤ 13) || n == 0x20 || n == 0x85 || n == 0xA0 || n == 0x1680 ||
    (0x2000 ≤ n && n ≤ 0x200A) || n == 0x2028 || n == 0x2029 || n == 0x202F ||
    n == 0x205F || n == 0x3000

/-- Whether the text holds nothing but white space. -/
def isBlank (s : String) : Bool := s.toList.all isSpace

/-- Every character that core counts as white space is white space here. -/
theorem isSpace_of_isWhitespace {c : Char} (h : c.isWhitespace = true) : isSpace c = true := by
  simp only [Char.isWhitespace, Bool.or_eq_true, decide_eq_true_eq] at h
  rcases h with ((h | h) | h) | h <;> subst h <;> decide

end BulkLoad.Text
