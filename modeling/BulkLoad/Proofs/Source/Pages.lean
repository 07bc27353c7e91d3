import BulkLoad.Proofs.Text.Search
import BulkLoad.Source.Statement
import Mathlib.Data.List.Basic

/-!
# What a page statement asks for

A source that answers page statements reads off them which rows are wanted: those whose keys come
after a mark, if the statement carries one, and how many of them at most. `request_page_statement`
says what it reads off the statement for a page. The mark survives its way through the literal
whatever characters it has, and changes nothing else of the statement (`literal_of_page`), with one
exception: the empty mark is no mark.
-/

namespace BulkLoad.SqlTable

/-- Which rows are wanted: those with keys after the mark, or all, and how many at most. -/
structure Request where
  mark : Option String
  limit : Nat
deriving DecidableEq

/-- The content of a literal whose opening quote has been read, and the text after it. -/
def literal? : List Char → Option (List Char × List Char)
  | [] => none
  | '\'' :: '\'' :: rest => (literal? rest).map fun (content, rest) => ('\'' :: content, rest)
  | '\'' :: rest => some ([], rest)
  | c :: rest => (literal? rest).map fun (content, rest) => (c :: content, rest)

/-- What stands before the literal in a condition on the key. -/
def comparison (t : SqlTable) : String := " AND " ++ t.primaryKey ++ " > '"

/-- What stands before the number of rows. -/
def order (t : SqlTable) : String := " ORDER BY " ++ t.primaryKey ++ " ASC LIMIT "

/-- The mark that a condition on the key carries, if there is one, and the text after it. -/
def condition? (t : SqlTable) (text : List Char) : Option (Option String × List Char) :=
  match text.dropPrefix? t.comparison.toList with
  | none => some (none, text)
  | some rest => (literal? rest).map fun (content, rest) => (some (String.ofList content), rest)

/-- The number that decimal digits write. -/
def number? (digits : List Char) : Option Nat :=
  if digits.isEmpty || !digits.all Char.isDigit then none else some (Nat.ofDigitChars 10 digits 0)

/-- What a statement asks for that reads a page of the table in the order of the key. -/
def request? (t : SqlTable) (statement : String) : Option Request := do
  let text ← statement.toList.dropPrefix? t.baseStatement.toList
  let (mark, text) ← t.condition? text
  let digits ← text.dropPrefix? t.order.toList
  let limit ← number? digits
  some ⟨mark, limit⟩

/-! ## Literals -/

/-- A quote that no other follows closes a literal. -/
theorem literal_close {rest : List Char} (hrest : rest.head? ≠ some '\'') :
    literal? ('\'' :: rest) = some ([], rest) := by
  cases rest with
  | nil => rfl
  | cons c rest =>
      have hc : c ≠ '\'' := fun hsame => hrest (congrArg some hsame)
      rw [literal?]
      rintro other hother
      exact hc (List.cons.inj hother).1

/-- Any other character belongs to the content. -/
theorem literal_cons {c : Char} (hc : c ≠ '\'') (rest : List Char) :
    literal? (c :: rest) = (literal? rest).map fun (content, rest) => (c :: content, rest) := by
  rw [literal?]
  · exact fun _ hquote => absurd hquote hc
  · exact fun hquote => absurd hquote hc

/-- A literal with its quotes doubled has the content that it was made from. -/
theorem literal_escape (content : List Char) {rest : List Char}
    (hrest : rest.head? ≠ some '\'') :
    literal? ((content.flatMap fun c => if c == '\'' then ['\'', '\''] else [c]) ++ '\'' :: rest) =
      some (content, rest) := by
  induction content with
  | nil => exact literal_close hrest
  | cons c content ih =>
      rw [List.flatMap_cons, List.append_assoc]
      by_cases hc : c = '\''
      · subst hc
        exact congrArg (Option.map fun (content, rest) => ('\'' :: content, rest)) ih
      · rw [if_neg (by simpa using hc), List.singleton_append, literal_cons hc, ih]
        rfl

/-! ## Page statements -/

/-- Decimal digits write the number that they are made from. -/
theorem number_to_string (n : Nat) : number? (toString n).toList = some n := by
  obtain ⟨hne, hdigits, hvalue⟩ := Text.digits_to_string n
  rw [number?, List.isEmpty_eq_false_iff.mpr hne, List.all_eq_true.mpr hdigits, hvalue]
  rfl

/-- A text that begins with a part leaves what comes after the part. -/
theorem drop_part (part rest : List Char) : (part ++ rest).dropPrefix? part = some rest :=
  List.dropPrefix?_append_of_beq rest (beq_self_eq_true part)

/-- Without a condition there is no mark. -/
theorem condition_order (t : SqlTable) (rest : List Char) :
    t.condition? (t.order.toList ++ rest) = some (none, t.order.toList ++ rest) := by
  -- The two texts differ in their second characters.
  have hnone : (t.order.toList ++ rest).dropPrefix? t.comparison.toList = none := by
    simp only [order, comparison, String.toList_append]
    rfl
  rw [condition?, hnone]

/-- A condition on the key carries its mark. -/
theorem condition_mark (t : SqlTable) (mark : String) (rest : List Char) :
    t.condition?
        (t.comparison.toList ++ ((escapeQuotes mark).toList ++ '\'' :: (t.order.toList ++ rest))) =
      some (some mark, t.order.toList ++ rest) := by
  have hrest : (t.order.toList ++ rest).head? ≠ some '\'' := by
    simp only [order, String.toList_append]
    nofun
  rw [condition?, drop_part]
  dsimp only
  rw [escapeQuotes, String.toList_ofList, literal_escape mark.toList hrest, Option.map_some,
    String.ofList_toList]

/-- The condition on a watermark carries it, unless it is empty. -/
theorem condition_watermark (t : SqlTable) (watermark : Option String) (rest : List Char) :
    t.condition? ((t.watermarkCondition watermark).toList ++ (t.order.toList ++ rest)) =
      some (nonEmpty watermark, t.order.toList ++ rest) := by
  unfold watermarkCondition
  cases nonEmpty watermark with
  | none => exact condition_order t rest
  | some mark =>
      have hcondition : (" AND " ++ t.primaryKey ++ " > '" ++ escapeQuotes mark ++ "'").toList =
          t.comparison.toList ++ ((escapeQuotes mark).toList ++ ['\'']) := by
        simp only [comparison, String.toList_append, List.append_assoc]
        rfl
      dsimp only
      rw [hcondition, List.append_assoc, List.append_assoc]
      exact condition_mark t mark rest

/-- A page statement asks for as many rows after the watermark as are wanted. An empty watermark
counts as none. -/
theorem request_page_statement (t : SqlTable) (watermark : Option String) (limit : Nat) :
    t.request? (t.pageStatement watermark limit) = some ⟨nonEmpty watermark, limit⟩ := by
  have hstatement : (t.pageStatement watermark limit).toList =
      t.baseStatement.toList ++ ((t.watermarkCondition watermark).toList ++
        (t.order.toList ++ (toString limit).toList)) := by
    simp only [pageStatement, order, String.toList_append, List.append_assoc]
  simp only [request?, hstatement, drop_part, condition_watermark, number_to_string,
    Option.bind_eq_bind, Option.bind_some]

/-! ## Watermarks -/

/-- A page statement after a watermark is a text of the table up to the opening quote of a literal,
the watermark with its quotes doubled, and what is behind the literal. -/
theorem page_statement_mark (t : SqlTable) {mark : String} (hmark : mark ≠ "") (limit : Nat) :
    (t.pageStatement (some mark) limit).toList =
      (t.baseStatement ++ " AND " ++ t.primaryKey ++ " > '").toList ++
        ((mark.toList.flatMap fun c => if c == '\'' then ['\'', '\''] else [c]) ++
          '\'' :: (" ORDER BY " ++ t.primaryKey ++ " ASC LIMIT " ++ toString limit).toList) := by
  have hpresent : nonEmpty (some mark) = some mark := by simp [nonEmpty, hmark]
  have hescape : (escapeQuotes mark).toList =
      mark.toList.flatMap fun c => if c == '\'' then ['\'', '\''] else [c] := String.toList_ofList
  have hquote : "'".toList = ['\''] := rfl
  simp only [pageStatement, watermarkCondition, hpresent, String.toList_append, hescape, hquote,
    List.append_assoc, List.singleton_append]

/-- A page statement after a watermark begins with a text that depends on the table alone and ends
with the quote that opens a literal. The content of the literal is the watermark, whatever
characters it has, and the order and the number of rows come behind it. So no other watermark and no
other number of rows have the same statement. -/
theorem literal_of_page (t : SqlTable) {mark : String} (hmark : mark ≠ "") (limit : Nat) :
    (∃ text, (t.pageStatement (some mark) limit).toList =
        (t.baseStatement ++ " AND " ++ t.primaryKey ++ " > '").toList ++ text ∧
      literal? text = some (mark.toList,
        (" ORDER BY " ++ t.primaryKey ++ " ASC LIMIT " ++ toString limit).toList)) ∧
    ∀ (watermark : Option String) (other : Nat),
      t.pageStatement (some mark) limit = t.pageStatement watermark other →
        watermark = some mark ∧ other = limit := by
  constructor
  · refine ⟨_, t.page_statement_mark hmark limit, literal_escape mark.toList ?_⟩
    simp only [String.toList_append]
    nofun
  · intro watermark other hsame
    have hrequest := t.request_page_statement watermark other
    rw [← hsame, request_page_statement] at hrequest
    obtain ⟨hwatermark, hlimit⟩ := Request.mk.inj (Option.some.inj hrequest)
    have hpresent : nonEmpty watermark = some mark := by
      rw [← hwatermark]
      simp [nonEmpty, hmark]
    exact ⟨(Option.filter_eq_some_iff.mp hpresent).1, hlimit.symm⟩

/-- A table whose condition has a literal of its own. -/
def activeUsers : SqlTable where
  name := "users"
  fields := ["id", "name"]
  filter := some "state = 'active'"

/-- A watermark that begins and ends with quotes, and has two of them in a row, is read back. -/
theorem literal_of_quotes :
    "'o''k'" ≠ "" ∧
      ∃ text, (activeUsers.pageStatement (some "'o''k'") 10).toList =
          ("SELECT \x60id\x60,\x60name\x60 FROM \x60users\x60 WHERE state = 'active'" ++
            " AND \x60id\x60 > '").toList ++ text ∧
        literal? text = some ("'o''k'".toList, " ORDER BY \x60id\x60 ASC LIMIT 10".toList) := by
  have hmark : "'o''k'" ≠ "" := by decide
  exact ⟨hmark, (activeUsers.literal_of_page hmark 10).1⟩

end BulkLoad.SqlTable
