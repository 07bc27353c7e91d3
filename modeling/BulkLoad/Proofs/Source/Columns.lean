import BulkLoad.Source.Statement
import Mathlib.Data.List.Basic

/-!
# What a page statement selects

A table that passes its check is read by its query, or by its columns, of which the one at the
position of the key is the key. `page_of_validated` says that its page statements begin with the
query or select these columns, with one exception: the check takes an empty query for a query, and
the statements take it for none. A table with an empty query and no columns therefore passes the
check, and its page statements select a single column without a name.
-/

namespace BulkLoad.SqlTable

/-- The names of which the first one has been opened by a backquote, up to the one that no comma
and no other backquote follow, and the text after it. -/
def names? : List Char → Option (List (List Char) × List Char)
  | [] => none
  | '\x60' :: ',' :: '\x60' :: rest => (names? rest).map fun (names, rest) => ([] :: names, rest)
  | '\x60' :: rest => some ([[]], rest)
  | c :: rest => (names? rest).map fun (names, rest) => (names.modifyHead (c :: ·), rest)

/-- The columns that a statement selects by their names. -/
def selected? (statement : String) : Option (List String) := do
  let text ← statement.toList.dropPrefix? "SELECT \x60".toList
  let (names, text) ← names? text
  let _ ← text.dropPrefix? " FROM \x60".toList
  some (names.map String.ofList)

/-- A statement begins with a selection of these columns, and they are read off it if none of them
has a backquote in its name. -/
structure Selects (statement : String) (columns : List String) : Prop where
  begins : ("SELECT \x60" ++ "\x60,\x60".intercalate columns ++ "\x60 FROM \x60").toList <+:
    statement.toList
  selected : (∀ column ∈ columns, '\x60' ∉ column.toList) → selected? statement = some columns

/-! ## Names -/

/-- A character of a name belongs to the first name. -/
theorem names_cons {c : Char} (hc : c ≠ '\x60') (rest : List Char) :
    names? (c :: rest) =
      (names? rest).map fun (names, rest) => (names.modifyHead (c :: ·), rest) := by
  rw [names?]
  · exact fun _ hquote => absurd hquote hc
  · exact fun hquote => absurd hquote hc

/-- A backquote before a blank closes the last name. -/
theorem names_close (rest : List Char) :
    names? ('\x60' :: ' ' :: rest) = some ([[]], ' ' :: rest) := rfl

/-- A name without backquotes is read up to what comes after it. -/
theorem names_append {name : List Char} (hname : '\x60' ∉ name) (rest : List Char) :
    names? (name ++ rest) =
      (names? rest).map fun (names, rest) => (names.modifyHead (name ++ ·), rest) := by
  induction name with
  | nil =>
      cases hread : names? rest with
      | none => simp only [List.nil_append, hread, Option.map_none]
      | some found =>
          obtain ⟨names, text⟩ := found
          cases names <;> simp [hread]
  | cons c name ih =>
      obtain ⟨hc, hname⟩ := not_or.mp (mt List.mem_cons.mpr hname)
      rw [List.cons_append, names_cons (Ne.symm hc), ih hname, Option.map_map]
      congr 1
      funext found
      obtain ⟨names, rest⟩ := found
      cases names <;> rfl

/-- Names without backquotes that are separated by commas are read as they are. -/
theorem names_intercalate {names : List (List Char)} (hne : names ≠ [])
    (hnames : ∀ name ∈ names, '\x60' ∉ name) (rest : List Char) :
    names? ("\x60,\x60".toList.intercalate names ++ '\x60' :: ' ' :: rest) =
      some (names, ' ' :: rest) := by
  induction names with
  | nil => exact absurd rfl hne
  | cons name names ih =>
      have hname := hnames name List.mem_cons_self
      cases names with
      | nil =>
          rw [List.intercalate_singleton, names_append hname, names_close]
          simp only [Option.map_some, List.modifyHead_cons, List.append_nil]
      | cons second names =>
          have hrest := ih (List.cons_ne_nil second names)
            fun other hother => hnames other (List.mem_cons_of_mem name hother)
          rw [List.intercalate_cons_cons, List.append_assoc, List.append_assoc, names_append hname]
          show ((names? ("\x60,\x60".toList.intercalate (second :: names) ++ _)).map _).map _ = _
          rw [hrest]
          simp only [Option.map_some, List.modifyHead_cons, List.append_nil]

/-! ## Statements -/

/-- What a statement selects that begins with a selection. -/
theorem selected_of_begins {statement : String} {names rest : List Char}
    {columns : List (List Char)}
    (hstatement : statement.toList =
      "SELECT \x60".toList ++ (names ++ '\x60' :: ' ' :: ("FROM \x60".toList ++ rest)))
    (hnames : names? (names ++ '\x60' :: ' ' :: ("FROM \x60".toList ++ rest)) =
      some (columns, ' ' :: ("FROM \x60".toList ++ rest))) :
    selected? statement = some (columns.map String.ofList) := by
  have hselect (text : List Char) :
      ("SELECT \x60".toList ++ text).dropPrefix? "SELECT \x60".toList = some text :=
    List.dropPrefix?_append_of_beq text (beq_self_eq_true _)
  have hfrom : (' ' :: ("FROM \x60".toList ++ rest)).dropPrefix? " FROM \x60".toList = some rest :=
    List.dropPrefix?_append_of_beq rest (beq_self_eq_true " FROM \x60".toList)
  simp only [selected?, hstatement, hselect, hnames, hfrom, Option.bind_eq_bind, Option.bind_some]

/-- A page of a table without a query selects its columns. -/
theorem page_of_columns {t : SqlTable} (hquery : t.customQuery = none) (watermark : Option String)
    (limit : Nat) :
    ∃ rest, (t.pageStatement watermark limit).toList =
      "SELECT \x60".toList ++ ("\x60,\x60".toList.intercalate (t.fields.map String.toList) ++
        '\x60' :: ' ' :: ("FROM \x60".toList ++ rest)) := by
  refine ⟨(t.name ++ "\x60 WHERE " ++ t.predicate ++ t.watermarkCondition watermark ++
    (" ORDER BY " ++ t.primaryKey ++ " ASC LIMIT " ++ toString limit)).toList, ?_⟩
  have hfrom : " FROM \x60".toList = ' ' :: "FROM \x60".toList := rfl
  have hquote : "\x60".toList = ['\x60'] := rfl
  have hselect : "SELECT \x60".toList = "SELECT ".toList ++ "\x60".toList := rfl
  simp only [pageStatement, baseStatement, hquery, columns, String.toList_append,
    String.toList_intercalate, hfrom, hquote, hselect, List.append_assoc, List.cons_append,
    List.nil_append]

/-- A page of a table without a query selects the table's columns, if it has any. -/
theorem selects_of_columns {t : SqlTable} (hquery : t.customQuery = none) (hfields : t.fields ≠ [])
    (watermark : Option String) (limit : Nat) :
    Selects (t.pageStatement watermark limit) t.fields := by
  obtain ⟨rest, hpage⟩ := page_of_columns hquery watermark limit
  constructor
  · refine ⟨rest, ?_⟩
    have hfrom : "\x60 FROM \x60".toList = '\x60' :: ' ' :: "FROM \x60".toList := rfl
    simp only [hpage, String.toList_append, String.toList_intercalate, hfrom, List.append_assoc,
      List.cons_append]
  · intro hcolumns
    have hnames : ∀ name ∈ t.fields.map String.toList, '\x60' ∉ name :=
      List.forall_mem_map.mpr hcolumns
    have hread := names_intercalate (mt List.map_eq_nil_iff.mp hfields) hnames
      ("FROM \x60".toList ++ rest)
    rw [selected_of_begins hpage hread, List.map_map]
    exact congrArg some (List.map_id'' (fun _ => String.ofList_toList) t.fields)

/-- A page of a table without a query and without columns selects one column without a name. -/
theorem selected_of_nothing {t : SqlTable} (hquery : t.customQuery = none) (hfields : t.fields = [])
    (watermark : Option String) (limit : Nat) :
    selected? (t.pageStatement watermark limit) = some [""] := by
  obtain ⟨rest, hpage⟩ := page_of_columns hquery watermark limit
  rw [hfields] at hpage
  exact selected_of_begins hpage (names_close _)

/-! ## Validated tables -/

/-- What the check of a table asks for. -/
theorem validate_eq_ok_iff (t : SqlTable) :
    t.validate = .ok () ↔
      t.name ≠ "" ∧ (t.query = none → t.fields ≠ []) ∧
        (t.fields ≠ [] → t.fields[t.id.index.toNat]? = some t.id.name) := by
  unfold validate
  by_cases hname : t.name = ""
  · simp [hname]
  · by_cases hfields : t.fields = []
    · cases hquery : t.query <;> simp [hname, hfields]
    · by_cases hkey : t.fields[t.id.index.toNat]? = some t.id.name <;> simp [hname, hfields, hkey]

/-- A page statement of a validated table begins with its query, which is not empty, or selects its
columns, of which there is at least one and of which the one at the position of the key is the key,
unless its query is empty and it has no columns: then the statement selects a single column without
a name. -/
theorem page_of_validated {t : SqlTable} (hvalid : t.validate = .ok ())
    (watermark : Option String) (limit : Nat) :
    (∃ query, t.customQuery = some query ∧ query ≠ "" ∧
      query.toList <+: (t.pageStatement watermark limit).toList) ∨
    (t.fields ≠ [] ∧ t.fields[t.id.index.toNat]? = some t.id.name ∧
      Selects (t.pageStatement watermark limit) t.fields) ∨
    (t.query = some "" ∧ t.fields = [] ∧
      selected? (t.pageStatement watermark limit) = some [""]) := by
  obtain ⟨-, hsource, hkey⟩ := t.validate_eq_ok_iff.mp hvalid
  cases hcustom : t.customQuery with
  | some query =>
      refine .inl ⟨query, rfl, ?_, ?_⟩
      · obtain ⟨text, htext, rfl⟩ := Option.map_eq_some_iff.mp hcustom
        have hpresent : text ≠ "" := by
          simpa [String.isEmpty_iff] using (Option.filter_eq_some_iff.mp htext).2
        split
        · intro hempty
          obtain ⟨hopened, -⟩ := String.append_eq_empty_iff.mp hempty
          exact hpresent (String.append_eq_empty_iff.mp hopened).1
        · exact hpresent
      · simp only [pageStatement, baseStatement, hcustom, String.toList_append, List.append_assoc]
        exact List.prefix_append _ _
  | none =>
      by_cases hfields : t.fields = []
      · have habsent : nonEmpty t.query = none := Option.map_eq_none_iff.mp hcustom
        obtain ⟨text, htext⟩ := Option.ne_none_iff_exists'.mp (mt hsource (not_not.mpr hfields))
        have hempty : text = "" := by
          simpa [nonEmpty, htext, Option.filter_some] using habsent
        exact .inr (.inr ⟨hempty ▸ htext, hfields, selected_of_nothing hcustom hfields _ _⟩)
      · exact .inr (.inl ⟨hfields, hkey hfields, selects_of_columns hcustom hfields _ _⟩)

/-- A table with an empty query, and with the key as its second column. -/
def secondKey : SqlTable where
  name := "users"
  id := { name := "id", index := 1 }
  fields := ["name", "id"]
  query := some ""

/-- A table with an empty query and no columns. -/
def noColumns : SqlTable where
  name := "users"
  query := some ""

/-- The pages of `secondKey` select its columns. -/
theorem page_of_second_key :
    secondKey.validate = .ok () ∧
      selected? (secondKey.pageStatement (some "7") 10) = some ["name", "id"] ∧
      ["name", "id"][secondKey.id.index.toNat]? = some secondKey.id.name := by
  have hvalid : secondKey.validate = .ok () := rfl
  obtain ⟨query, hquery, -⟩ | ⟨-, hkey, hselects⟩ | ⟨-, hfields, -⟩ :=
    page_of_validated hvalid (some "7") 10
  · cases hquery
  · exact ⟨hvalid, hselects.selected (by decide), hkey⟩
  · cases hfields

/-- It is not so that every page of a validated table begins with its query or selects its key where
it is searched for. -/
theorem not_all_select_key :
    ¬ ∀ (t : SqlTable) (watermark : Option String) (limit : Nat), t.validate = .ok () →
      (∃ query, t.customQuery = some query ∧ query ≠ "" ∧
        query.toList <+: (t.pageStatement watermark limit).toList) ∨
      ∃ columns, selected? (t.pageStatement watermark limit) = some columns ∧ columns ≠ [] ∧
        columns[t.id.index.toNat]? = some t.id.name := by
  intro h
  obtain ⟨query, hquery, -⟩ | ⟨columns, hcolumns, -, hkey⟩ := h noColumns none 10 rfl
  · cases hquery
  · rw [selected_of_nothing rfl rfl] at hcolumns
    obtain rfl := Option.some.inj hcolumns
    revert hkey
    decide

end BulkLoad.SqlTable
