import BulkLoad.Proofs.Source.Conditions

/-!
# The rows of a page

A page statement is put together from texts: the filter, the condition of a query, and the
condition that leaves out the rows up to the watermark. `condition_of_page` says how the condition
of the whole is read: the watermark is required by the last alternative only, so that of a filter
that is a choice the rows of the other alternatives are on every page. Where neither the filter nor
the query's condition is a choice, the page has the rows of both that come after the watermark, and
no others.
-/

namespace BulkLoad.Sql

/-- The condition of a statement: what follows the last `WHERE` before the first `ORDER`. -/
def whereClause? (statement : String) : Option (List Token) := do
  let ts ← tokens? statement
  let selection ← (parts .order ts).head?
  (parts .condition selection).tail.getLast?

/-- An expression that stands in a comparison: complete tokens without connectives outside groups
and without the words that bound a condition. -/
structure Expression where
  tokens : List Token
  nonempty : tokens ≠ []
  free : free [.and, .or, .condition, .order] tokens

/-- The atomic condition that an expression is greater than a literal. -/
def Expression.above (e : Expression) (mark : String) : Atom where
  tokens := e.tokens ++ [.operator ['>'], .quoted .single mark.toList]
  nonempty := List.append_ne_nil_of_left_ne_nil e.nonempty _
  free := Place.avoids_append e.free rfl
  bare := by
    cases htokens : e.tokens with
    | nil => rfl
    | cons t ts =>
        -- The last token is the literal, so that no parenthesis closes the whole.
        cases t with
        | opening =>
            rw [List.cons_append, unwrap?, if_neg]
            rintro ⟨hlast, -⟩
            rw [List.getLast?_append] at hlast
            cases hlast
        | word | operator | keyword | quoted | closing => rfl

theorem Expression.meets_above (e : Expression) (row : Row) (mark : String) :
    row.meets (e.above mark).tokens = row.beyond e.tokens mark := by
  have hreverse : (e.above mark).tokens.reverse =
      .quoted .single mark.toList :: .operator ['>'] :: e.tokens.reverse := List.reverse_append
  simp only [Row.meets, hreverse]
  rw [List.reverse_reverse, String.ofList_toList]

/-- A text that ends in a condition after `WHERE`, with no `ORDER` before it. -/
def EndsIn (text : String) (c : Condition) : Prop :=
  ∃ front, free [.order] front ∧ tokens? text = some (front ++ .keyword .condition :: c.tokens)

/-- A text that is a condition. -/
structure Filter where
  text : String
  condition : Condition
  tokens_text : tokens? text = some condition.tokens

/-- A text that ends in a condition. -/
structure Query where
  text : String
  condition : Condition
  ends : EndsIn text condition

/-- How the texts of a table are read: its key as an expression, its filter as a condition, and its
query, which stands in place of its name and columns, as a text that ends in a condition. -/
structure Reading (t : SqlTable) where
  key : Expression
  filter : Option Filter
  query : Option Query
  tokens_key : tokens? t.primaryKey = some key.tokens
  filter_text : SqlTable.nonEmpty t.filter = filter.map (·.text)
  query_text : SqlTable.nonEmpty t.query = query.map (·.text)
  names : query = none → ∀ name ∈ t.name :: t.fields, '\x60' ∉ name.toList

/-- The condition that every row meets. -/
def Atom.always : Atom where
  tokens := Sql.always
  nonempty := by decide
  free := by decide
  bare := rfl

namespace Reading

variable {t : SqlTable} (r : Reading t)

/-- The conditions on rows that the table has. -/
def conditions : List Condition :=
  (r.query.map (·.condition)).toList ++ (r.filter.map (·.condition)).toList

/-- The condition on rows as the statement that reads all of them has it. -/
def base : Condition :=
  match r.query, r.filter with
  | none, none => .atom .always
  | none, some filter => filter.condition
  | some query, none => query.condition
  | some query, some filter => query.condition.graft filter.condition

/-- Whether a row should be on a page after the watermark. -/
def wants (row : Row) (mark : String) : Bool :=
  r.conditions.all (·.isTrue row) && row.beyond r.key.tokens mark

end Reading

/-! ## Texts that end in a condition -/

/-- A condition that is appended with `AND` is grafted on. -/
theorem EndsIn.join {text added : String} {c d : Condition} (htext : EndsIn text c)
    (hadded : tokens? added = some d.tokens) : EndsIn (text ++ " AND " ++ added) (c.graft d) := by
  obtain ⟨front, hfront, htokens⟩ := htext
  refine ⟨front, hfront, ?_⟩
  have hand : tokens? "AND" = some [.keyword .and] := by decide
  have hsplit : text ++ " AND " ++ added = text ++ " " ++ "AND" ++ " " ++ added := by
    simp only [String.append_assoc]
    rfl
  rw [hsplit, tokens_blank (tokens_blank htokens hand) hadded, Condition.tokens_graft]
  simp only [List.append_assoc, List.cons_append, List.nil_append]

/-- What follows from `ORDER` on is no part of the condition. -/
theorem EndsIn.whereClause {text rest : String} {c : Condition} {ts : List Token}
    (htext : EndsIn text c) (hrest : tokens? rest = some (.keyword .order :: ts)) :
    whereClause? (text ++ " " ++ rest) = some c.tokens := by
  obtain ⟨front, hfront, htokens⟩ := htext
  have hselection : free [.order] (front ++ .keyword .condition :: c.tokens) :=
    free_join rfl (by decide) hfront (free_of_subset c.free_tokens.1 (by decide))
  have horder :
      (parts .order (front ++ .keyword .condition :: c.tokens ++ .keyword .order :: ts)).head? =
        some (front ++ .keyword .condition :: c.tokens) := by
    rw [parts_join rfl hselection, parts_of_free hselection (by decide)]
    rfl
  have hne : parts .condition front ≠ [] := Place.cut_ne_nil _ _ _
  have hcondition : (parts .condition (front ++ .keyword .condition :: c.tokens)).tail.getLast? =
      some c.tokens := by
    rw [parts_join rfl hfront, parts_of_free c.free_tokens.1 (by decide),
      List.tail_append_of_ne_nil hne, List.getLast?_concat]
  rw [whereClause?, tokens_blank htokens hrest]
  simp only [Option.bind_eq_bind, Option.bind_some, horder, hcondition]

/-- Words, operators and quoted parts leave everything as it is. -/
theorem free_of_plain {ks : List Keyword} {ts : List Token}
    (hts : ∀ t ∈ ts, t.opens = false ∧ t.closes = false ∧ ∀ k, t ≠ .keyword k) : free ks ts := by
  induction ts with
  | nil => rfl
  | cons t ts ih =>
      obtain ⟨hopens, hcloses, hkeyword⟩ := hts t List.mem_cons_self
      have hnone : (ks.any fun k => Place.separates {} k t) = false :=
        List.any_eq_false.mpr fun k _ => by simp [Place.separates, hkeyword]
      have hafter : Place.after {} t = {} := by
        simp [Place.after, hopens, hcloses, hkeyword]
      rw [free, Place.avoids, hnone, hcloses, hafter]
      exact ih fun other hother => hts other (List.mem_cons_of_mem t hother)

/-- A list of names is complete and has no keywords. -/
theorem plain_of_listed {names : List (List Char)} :
    ∀ t ∈ listed names, t.opens = false ∧ t.closes = false ∧ ∀ k, t ≠ .keyword k := by
  fun_induction listed names with
  | case1 | case2 =>
      intro t ht
      obtain rfl := List.mem_singleton.mp ht
      exact ⟨rfl, rfl, nofun⟩
  | case3 name names _ ih =>
      intro t ht
      obtain rfl | ht := List.mem_cons.mp ht
      · exact ⟨rfl, rfl, nofun⟩
      obtain rfl | ht := List.mem_cons.mp ht
      · exact ⟨rfl, rfl, nofun⟩
      · exact ih t ht

/-- What stands before the condition of a table that is read by its columns. -/
theorem tokens_selection {t : SqlTable}
    (hnames : ∀ name ∈ t.name :: t.fields, '\x60' ∉ name.toList) :
    ∃ front, free [.order] front ∧
      tokens? ("SELECT " ++ t.columns ++ " FROM \x60" ++ t.name ++ "\x60") = some front := by
  have hselect : tokens? "SELECT" = some [.word "SELECT".toList] := by decide
  have hfrom : tokens? "FROM" = some [.word "FROM".toList] := by decide
  have hcolumns := tokens_columns fun field hfield => hnames field (List.mem_cons_of_mem _ hfield)
  have hname := tokens_name (hnames t.name List.mem_cons_self)
  have hsplit : "SELECT " ++ t.columns ++ " FROM \x60" ++ t.name ++ "\x60" =
      "SELECT" ++ " " ++ t.columns ++ " " ++ "FROM" ++ " " ++ ("\x60" ++ t.name ++ "\x60") := by
    have hblank : "SELECT " = "SELECT" ++ " " := rfl
    have hquote : " FROM \x60" = " " ++ "FROM" ++ " " ++ "\x60" := rfl
    rw [hblank, hquote]
    simp only [String.append_assoc]
  refine ⟨_, ?_, hsplit ▸ tokens_blank (tokens_blank (tokens_blank hselect hcolumns) hfrom) hname⟩
  refine free_of_plain fun t ht => ?_
  simp only [List.mem_append, List.mem_singleton] at ht
  obtain ((rfl | ht) | rfl) | rfl := ht
  · exact ⟨rfl, rfl, nofun⟩
  · exact plain_of_listed t ht
  · exact ⟨rfl, rfl, nofun⟩
  · exact ⟨rfl, rfl, nofun⟩

namespace Reading

variable {t : SqlTable} (r : Reading t)

/-- The table has no condition, one, or two that are grafted. -/
theorem base_cases :
    (r.conditions = [] ∧ r.base = .atom .always) ∨ (∃ c, r.conditions = [c] ∧ r.base = c) ∨
      ∃ c d, r.conditions = [c, d] ∧ r.base = c.graft d := by
  unfold conditions base
  cases r.query with
  | none =>
      cases r.filter with
      | none => exact .inl ⟨rfl, rfl⟩
      | some filter => exact .inr (.inl ⟨_, rfl, rfl⟩)
  | some query =>
      cases r.filter with
      | none => exact .inr (.inl ⟨_, rfl, rfl⟩)
      | some filter => exact .inr (.inr ⟨_, _, rfl, rfl⟩)

/-- A row that meets all conditions meets what the statement that reads all rows has. -/
theorem base_of_conditions {row : Row} (hall : r.conditions.all (·.isTrue row)) :
    r.base.isTrue row := by
  obtain ⟨-, hbase⟩ | ⟨c, hconditions, hbase⟩ | ⟨c, d, hconditions, hbase⟩ := r.base_cases
  · rw [hbase]
    rfl
  · rw [hconditions, List.all_cons, Bool.and_eq_true] at hall
    exact hbase ▸ hall.1
  · rw [hconditions, List.all_cons, List.all_cons, Bool.and_eq_true, Bool.and_eq_true] at hall
    exact hbase ▸ Condition.graft_of_both hall.1 hall.2.1

/-- Without choices the statement that reads all rows has all conditions joined. -/
theorem base_of_plain (row : Row) (hplain : ∀ c ∈ r.conditions, c.isOr = false) :
    r.base.isTrue row = r.conditions.all (·.isTrue row) ∧ r.base.isTrueEarly row = false := by
  obtain ⟨hconditions, hbase⟩ | ⟨c, hconditions, hbase⟩ | ⟨c, d, hconditions, hbase⟩ := r.base_cases
  · rw [hconditions, hbase]
    exact ⟨rfl, rfl⟩
  · have hc : c.isOr = false := hplain c (hconditions ▸ List.mem_cons_self)
    rw [hconditions, hbase]
    exact ⟨(Bool.and_true _).symm, Condition.early_of_plain hc⟩
  · have hc : c.isOr = false := hplain c (hconditions ▸ List.mem_cons_self)
    have hd : d.isOr = false := hplain d (hconditions ▸ List.mem_cons_of_mem c List.mem_cons_self)
    rw [hconditions, hbase, Condition.graft_of_plain hc hd, List.all_cons, List.all_cons,
      List.all_nil, Bool.and_true]
    exact ⟨rfl, rfl⟩

/-- The columns and the name of a table, and a condition after `WHERE`. -/
theorem ends_columns {c : Condition} (hquery : r.query = none)
    (hpredicate : tokens? t.predicate = some c.tokens) : EndsIn t.baseStatement c := by
  obtain ⟨front, hfront, htokens⟩ := tokens_selection (r.names hquery)
  have hwhere : tokens? "WHERE" = some [.keyword .condition] := by decide
  have hbase : t.baseStatement = "SELECT " ++ t.columns ++ " FROM \x60" ++ t.name ++ "\x60" ++
      " " ++ "WHERE" ++ " " ++ t.predicate := by
    have hblanks : "\x60 WHERE " = "\x60" ++ " " ++ "WHERE" ++ " " := rfl
    rw [SqlTable.baseStatement, SqlTable.customQuery, r.query_text, hquery, hblanks]
    simp only [Option.map_none, String.append_assoc]
  refine ⟨front, hfront, ?_⟩
  rw [hbase, tokens_blank (tokens_blank htokens hwhere) hpredicate, List.append_assoc]
  rfl

/-- The statement that reads all rows ends in the table's conditions. -/
theorem ends_base : EndsIn t.baseStatement r.base := by
  have hfilter := r.filter_text
  have hquery := r.query_text
  unfold base
  cases hq : r.query with
  | none =>
      refine r.ends_columns hq ?_
      cases hf : r.filter with
      | none =>
          rw [SqlTable.predicate, hfilter, hf]
          decide
      | some filter =>
          rw [SqlTable.predicate, hfilter, hf]
          exact filter.tokens_text
  | some query =>
      cases hf : r.filter with
      | none =>
          have hbase : t.baseStatement = query.text := by
            rw [SqlTable.baseStatement, SqlTable.customQuery, hquery, hq, hfilter, hf]
            rfl
          exact hbase ▸ query.ends
      | some filter =>
          have hbase : t.baseStatement = query.text ++ " AND " ++ filter.text := by
            rw [SqlTable.baseStatement, SqlTable.customQuery, hquery, hq, hfilter, hf]
            rfl
          exact hbase ▸ query.ends.join filter.tokens_text

include r in
/-- The key's order and the number of rows end a page statement. -/
theorem tokens_order (limit : Nat) :
    ∃ ts, tokens? ("ORDER BY " ++ t.primaryKey ++ " ASC LIMIT " ++ toString limit) =
      some (.keyword .order :: ts) := by
  have horder : tokens? "ORDER BY" = some [.keyword .order, .word "BY".toList] := by decide
  have hlimit : tokens? "ASC LIMIT" = some [.word "ASC".toList, .word "LIMIT".toList] := by decide
  have hsplit : "ORDER BY " ++ t.primaryKey ++ " ASC LIMIT " ++ toString limit =
      "ORDER BY" ++ " " ++ t.primaryKey ++ " " ++ "ASC LIMIT" ++ " " ++ toString limit := by
    have hblank : "ORDER BY " = "ORDER BY" ++ " " := rfl
    have hblanks : " ASC LIMIT " = " " ++ "ASC LIMIT" ++ " " := rfl
    rw [hblank, hblanks]
    simp only [String.append_assoc]
  rw [hsplit, tokens_blank (tokens_blank (tokens_blank horder r.tokens_key) hlimit)
    (tokens_number limit)]
  exact ⟨_, rfl⟩

/-- The condition on the key is one atomic condition. -/
theorem tokens_above (mark : String) :
    tokens? (t.primaryKey ++ " > '" ++ SqlTable.escapeQuotes mark ++ "'") =
      some (Condition.atom (r.key.above mark)).tokens := by
  have hgreater : tokens? ">" = some [.operator ['>']] := by decide
  have hsplit : t.primaryKey ++ " > '" ++ SqlTable.escapeQuotes mark ++ "'" =
      t.primaryKey ++ " " ++ ">" ++ " " ++ ("'" ++ SqlTable.escapeQuotes mark ++ "'") := by
    have hblanks : " > '" = " " ++ ">" ++ " " ++ "'" := rfl
    rw [hblanks]
    simp only [String.append_assoc]
  rw [hsplit, tokens_blank (tokens_blank r.tokens_key hgreater) (tokens_literal mark),
    List.append_assoc]
  rfl

/-- The condition of a page after a watermark is the table's with the condition on the key grafted
on. -/
theorem clause_of_page {mark : String} (hmark : mark ≠ "") (limit : Nat) :
    whereClause? (t.pageStatement (some mark) limit) =
      some (r.base.graft (.atom (r.key.above mark))).tokens := by
  obtain ⟨ts, horder⟩ := r.tokens_order limit
  have hpresent : SqlTable.nonEmpty (some mark) = some mark := by
    simp [SqlTable.nonEmpty, hmark]
  have hstatement : t.pageStatement (some mark) limit =
      t.baseStatement ++ " AND " ++ (t.primaryKey ++ " > '" ++ SqlTable.escapeQuotes mark ++ "'") ++
        " " ++ ("ORDER BY " ++ t.primaryKey ++ " ASC LIMIT " ++ toString limit) := by
    have hblank : " ORDER BY " = " " ++ "ORDER BY " := rfl
    rw [SqlTable.pageStatement, SqlTable.watermarkCondition, hpresent, hblank]
    simp only [String.append_assoc]
  rw [hstatement]
  exact (r.ends_base.join (r.tokens_above mark)).whereClause horder

end Reading

/-- What the condition of a page after a watermark says of a row. The watermark is required by the
last alternative of the table's conditions only. So every row that should be on the page is on it,
and where neither the filter nor the query's condition is a choice, no others are. -/
theorem condition_of_page {t : SqlTable} (r : Reading t) {mark : String} (hmark : mark ≠ "")
    (limit : Nat) :
    ∃ condition, whereClause? (t.pageStatement (some mark) limit) = some condition ∧
      ∀ row : Row,
        (row.holds condition =
          (r.base.isTrue row && row.beyond r.key.tokens mark || r.base.isTrueEarly row)) ∧
        (r.wants row mark → row.holds condition) ∧
        ((∀ c ∈ r.conditions, c.isOr = false) → row.holds condition = r.wants row mark) := by
  refine ⟨_, r.clause_of_page hmark limit, fun row => ?_⟩
  rw [Condition.holds_tokens]
  have habove : (Condition.atom (r.key.above mark)).isTrue row = row.beyond r.key.tokens mark :=
    r.key.meets_above row mark
  have hgraft : (r.base.graft (.atom (r.key.above mark))).isTrue row =
      (r.base.isTrue row && row.beyond r.key.tokens mark || r.base.isTrueEarly row) := by
    rw [Condition.true_of_graft row _ rfl, habove]
  refine ⟨hgraft, fun hwants => ?_, fun hplain => ?_⟩
  · obtain ⟨hconditions, hbeyond⟩ := Bool.and_eq_true_iff.mp hwants
    exact Condition.graft_of_both (r.base_of_conditions hconditions) (habove.trans hbeyond)
  · rw [hgraft, (r.base_of_plain row hplain).1, (r.base_of_plain row hplain).2, Bool.or_false,
      Reading.wants]

/-- A query with a choice in parentheses, and a filter. -/
def liveUsers : SqlTable where
  name := "users"
  id := { name := "id", expression := some "u.id" }
  query := some
    "SELECT u.id FROM users u WHERE (u.age BETWEEN 1 AND 9 OR u.kind IN ('a', 'b')) AND live = 1"
  filter := some "u.name > 'x or y'"

/-- How the texts of `liveUsers` are read. -/
def liveUsersReading : Reading liveUsers where
  key := { tokens := [.word "u.id".toList], nonempty := nofun, free := rfl }
  filter := some {
    text := "u.name > 'x or y'"
    condition := .atom {
      tokens := [.word "u.name".toList, .operator ['>'], .quoted .single "x or y".toList]
      nonempty := nofun
      free := rfl
      bare := rfl }
    tokens_text := by decide }
  query := some {
    text :=
      "SELECT u.id FROM users u WHERE (u.age BETWEEN 1 AND 9 OR u.kind IN ('a', 'b')) AND live = 1"
    condition :=
      .and
        (.or
          (.atom {
            tokens := [.word "u.age".toList, .keyword .between, .word ['1'], .keyword .and,
              .word ['9']]
            nonempty := nofun
            free := rfl
            bare := rfl })
          (.atom {
            tokens := [.word "u.kind".toList, .word "IN".toList, .opening, .quoted .single ['a'],
              .operator [','], .quoted .single ['b'], .closing]
            nonempty := nofun
            free := rfl
            bare := rfl }))
        (.atom {
          tokens := [.word "live".toList, .operator ['='], .word ['1']]
          nonempty := nofun
          free := rfl
          bare := rfl })
    ends := ⟨[.word "SELECT".toList, .word "u.id".toList, .word "FROM".toList, .word "users".toList,
      .word ['u']], rfl, by decide +kernel⟩ }
  tokens_key := by decide
  filter_text := rfl
  query_text := rfl
  names := nofun

/-- The pages of `liveUsers` after a watermark have the rows that they should have. -/
theorem condition_of_live_users :
    "o'k" ≠ "" ∧ (∀ c ∈ liveUsersReading.conditions, c.isOr = false) ∧
      ∃ condition, whereClause? (liveUsers.pageStatement (some "o'k") 10) = some condition ∧
        ∀ row : Row, row.holds condition = liveUsersReading.wants row "o'k" := by
  have hmark : "o'k" ≠ "" := by decide
  have hplain : ∀ c ∈ liveUsersReading.conditions, c.isOr = false := by
    intro c hc
    obtain rfl | rfl : c = _ ∨ c = _ := by simpa [Reading.conditions, liveUsersReading] using hc
    all_goals rfl
  obtain ⟨condition, hclause, hrows⟩ := condition_of_page liveUsersReading hmark 10
  exact ⟨hmark, hplain, condition, hclause, fun row => (hrows row).2.2 hplain⟩

/-- A table with a choice as its filter. -/
def chosenUsers : SqlTable where
  name := "users"
  fields := ["id"]
  filter := some "a = 1 OR b = 2"

/-- How the texts of `chosenUsers` are read. -/
def chosenUsersReading : Reading chosenUsers where
  key := { tokens := [.quoted .back "id".toList], nonempty := nofun, free := rfl }
  filter := some {
    text := "a = 1 OR b = 2"
    condition :=
      .or
        (.atom {
          tokens := [.word ['a'], .operator ['='], .word ['1']]
          nonempty := nofun
          free := rfl
          bare := rfl })
        (.atom {
          tokens := [.word ['b'], .operator ['='], .word ['2']]
          nonempty := nofun
          free := rfl
          bare := rfl })
    tokens_text := by decide }
  query := none
  tokens_key := by decide
  filter_text := rfl
  query_text := rfl
  names := by decide

/-- A row with `a = 1` and a key that is not after any watermark. -/
def earlyRow : Row where
  value _ := none
  exceeds _ _ := false
  satisfies _ := true

/-- A filter that is a choice puts rows up to the watermark on the page: they meet the alternative
that the condition on the key is not joined to. -/
theorem not_all_after_watermark :
    ¬ ∀ (t : SqlTable) (r : Reading t) (mark : String) (limit : Nat), mark ≠ "" →
      ∃ condition, whereClause? (t.pageStatement (some mark) limit) = some condition ∧
        ∀ row : Row, row.holds condition = r.wants row mark := by
  intro hall
  have hmark : "5" ≠ "" := by decide
  obtain ⟨condition, hclause, hrows⟩ := hall chosenUsers chosenUsersReading "5" 10 hmark
  have hread := chosenUsersReading.clause_of_page hmark 10
  obtain rfl := Option.some.inj (hclause.symm.trans hread)
  have hearly := hrows earlyRow
  rw [Condition.holds_tokens] at hearly
  exact absurd hearly (by decide)

end BulkLoad.Sql
