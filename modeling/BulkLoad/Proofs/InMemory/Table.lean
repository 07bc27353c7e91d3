import BulkLoad.InMemory.Table
import BulkLoad.Proofs.Decimal.Order
import BulkLoad.Proofs.Reader.Paging
import BulkLoad.Proofs.Reader.Watermark

/-!
# Paging through a table in memory

The table finds the mark and the number of rows in the text of a page statement (`select_page`). Its
rows stand in the order of their numbers, and their keys are these numbers, filled up to four
digits. As long as four digits are enough the keys increase, too, and a reader of pages gets the
whole table, whatever the size of its pages. The key of the player 10000 comes before keys with four
digits, and a reader that has got one of those passes this player over (`drained_by_size`).
-/

namespace BulkLoad.InMemory.Table

open QueryReader

/-! ## What the table reads off a page statement -/

/-- A mark without the characters by which the table finds its way in a statement. -/
structure Plain (mark : String) : Prop where
  ne_empty : mark ≠ ""
  greater : '>' ∉ mark.toList
  quote : '\'' ∉ mark.toList
  letter : 'L' ∉ mark.toList

/-- The condition on the key in a page statement. -/
def condition : Option String → List Char
  | none => []
  | some mark => table.comparison.toList ++ (mark.toList ++ ['\''])

variable {mark : Option String} {limit n : Nat}

/-- A text without quotes is the content of its literal. -/
theorem escape_of_not_mem {text : String} (h : '\'' ∉ text.toList) :
    SqlTable.escapeQuotes text = text := by
  have hsame : (text.toList.flatMap fun c => if c == '\'' then ['\'', '\''] else [c]) =
      text.toList.flatMap fun c => [c] := by
    refine List.flatMap_congr fun c hc => if_neg fun hquote => h ?_
    rwa [← beq_iff_eq.mp hquote]
  rw [SqlTable.escapeQuotes, hsame, List.flatMap_singleton', String.ofList_toList]

/-- A plain mark stands in a statement as it is. -/
theorem page_statement_eq (hplain : ∀ m ∈ mark, Plain m) (limit : Nat) :
    (table.pageStatement mark limit).toList = table.baseStatement.toList ++
      (condition mark ++ (table.order.toList ++ (toString limit).toList)) := by
  have hcondition : (table.watermarkCondition mark).toList = condition mark := by
    cases mark with
    | none => rfl
    | some m =>
        have hm : Plain m := hplain m rfl
        have hpresent : SqlTable.nonEmpty (some m) = some m :=
          non_empty_of_ne fun hempty => hm.ne_empty (Option.some.inj hempty)
        simp only [SqlTable.watermarkCondition, hpresent, escape_of_not_mem hm.quote,
          SqlTable.comparison, condition, String.toList_append, List.append_assoc]
        rfl
  simp only [SqlTable.pageStatement, SqlTable.order, hcondition, String.toList_append,
    List.append_assoc]

/-- The sign before a mark. -/
theorem mark_sign : "> '".toList = ['>', ' ', '\''] := by decide +kernel

/-- The word before the number of rows. -/
theorem limit_sign : "LIMIT ".toList = ['L', 'I', 'M', 'I', 'T', ' '] := by decide +kernel

/-- The order of the rows and their number have no sign that comes before a mark. -/
theorem not_mem_order (limit : Nat) : '>' ∉ table.order.toList ++ (toString limit).toList := by
  obtain ⟨-, hdigits, -⟩ := Text.digits_to_string limit
  have horder : '>' ∉ table.order.toList := by decide +kernel
  refine List.not_mem_append horder fun hmem => ?_
  exact absurd (hdigits '>' hmem) (by decide)

/-- The mark is the literal after the only sign of a statement. -/
theorem mark_of_literal {before after : List Char} {m : String} (hm : Plain m)
    (hbefore : '>' ∉ before) (hafter : '>' ∉ after) :
    mark? (before ++ (['>', ' ', '\''] ++ (m.toList ++ '\'' :: after))) = some m := by
  have hlater : '>' ∉ m.toList ++ '\'' :: after :=
    List.not_mem_append hm.greater (List.not_mem_cons_of_ne_of_not_mem (by decide) hafter)
  have hkept : ∀ c ∈ m.toList, (c != '\'') = true := fun c hc =>
    bne_iff_ne.mpr fun hsame => hm.quote (hsame ▸ hc)
  rw [mark?, mark_sign, Text.cut_first hbefore]
  dsimp only
  rw [Text.cut_eq_none hlater]
  dsimp only
  rw [List.takeWhile_append_of_pos hkept, List.takeWhile_cons_of_neg (by decide),
    List.append_nil, String.ofList_toList]

/-- The table finds a plain mark. -/
theorem mark_of_page (hplain : ∀ m ∈ mark, Plain m) (limit : Nat) :
    mark? (table.pageStatement mark limit).toList = mark := by
  have hbase : '>' ∉ table.baseStatement.toList := by decide +kernel
  rw [page_statement_eq hplain]
  cases mark with
  | none =>
      rw [condition, List.nil_append, mark?, mark_sign,
        Text.cut_eq_none (List.not_mem_append hbase (not_mem_order limit))]
  | some m =>
      have hcomparison :
          table.comparison.toList = " AND \x60id\x60 ".toList ++ ['>', ' ', '\''] := by
        decide +kernel
      have hbefore : '>' ∉ table.baseStatement.toList ++ " AND \x60id\x60 ".toList :=
        List.not_mem_append hbase (by decide +kernel)
      have hmark := mark_of_literal (hplain m rfl) hbefore (not_mem_order limit)
      simpa only [condition, hcomparison, List.append_assoc, List.singleton_append] using hmark

/-- Nothing is cut off a text without white space. -/
theorem trim_eq {text : List Char} (h : ∀ c ∈ text, Text.isSpace c = false) : trim text = text := by
  have hkept : ∀ text : List Char, (∀ c ∈ text, Text.isSpace c = false) →
      text.dropWhile Text.isSpace = text := by
    intro text hall
    cases text with
    | nil => rfl
    | cons c rest => rw [List.dropWhile_cons_of_neg (by simp [hall c List.mem_cons_self])]
  rw [trim, hkept text h, hkept _ fun c hc => h c (List.mem_reverse.mp hc), List.reverse_reverse]

/-- The number of rows is the number after the only such word of a statement, if it fits 64 bits. -/
theorem limit_of_number {text before : List Char} (hlimit : limit < 18446744073709551616)
    (hcut : Text.cut? "LIMIT ".toList text = some (before, (toString limit).toList)) :
    limit? text = some limit := by
  obtain ⟨-, hdigits, -⟩ := Text.digits_to_string limit
  have hnone : 'L' ∉ (toString limit).toList := fun hmem =>
    absurd (hdigits 'L' hmem) (by decide)
  rw [limit_sign] at hcut
  rw [limit?, limit_sign, Text.after_last_eq hcut (Text.cut_eq_none hnone),
    trim_eq fun c hc => Text.is_space_of_digit (hdigits c hc)]
  exact Text.natural_to_string hlimit

/-- The table finds the number of rows. -/
theorem limit_of_page (hplain : ∀ m ∈ mark, Plain m) (hlimit : limit < 18446744073709551616) :
    limit? (table.pageStatement mark limit).toList = some limit := by
  have horder : table.order.toList =
      " ORDER BY \x60id\x60 ASC ".toList ++ ['L', 'I', 'M', 'I', 'T', ' '] := by decide +kernel
  -- The first word of a statement has the first letter of the sign, but not the second behind it.
  obtain ⟨later, hbase, hlater⟩ : ∃ later, table.baseStatement.toList =
      ['S', 'E'] ++ 'L' :: 'E' :: later ∧ 'L' ∉ 'E' :: later :=
    ⟨table.baseStatement.toList.drop 4, by decide +kernel, by decide +kernel⟩
  have hcondition : 'L' ∉ condition mark := by
    cases mark with
    | none => nofun
    | some m =>
        exact List.not_mem_append (by decide +kernel)
          (List.not_mem_append (hplain m rfl).letter (by decide))
  have hbetween : 'L' ∉ 'E' :: later ++ (condition mark ++ " ORDER BY \x60id\x60 ASC ".toList) :=
    List.not_mem_append hlater (List.not_mem_append hcondition (by decide +kernel))
  have htext : (table.pageStatement mark limit).toList =
      ['S', 'E'] ++ 'L' :: ('E' :: later ++
        (condition mark ++ " ORDER BY \x60id\x60 ASC ".toList) ++
          (['L', 'I', 'M', 'I', 'T', ' '] ++ (toString limit).toList)) := by
    rw [page_statement_eq hplain, hbase, horder]
    simp only [List.append_assoc, List.cons_append]
  obtain ⟨before, hcut⟩ : ∃ before, Text.cut? "LIMIT ".toList
      (table.pageStatement mark limit).toList = some (before, (toString limit).toList) := by
    rw [htext, limit_sign, Text.cut_append (by decide), Text.cut_cons rfl, Text.cut_first hbetween]
    exact ⟨_, rfl⟩
  exact limit_of_number hlimit hcut

/-- The table answers a page statement with the rows after its mark, as many as are wanted. -/
theorem select_page (hplain : ∀ m ∈ mark, Plain m) (hlimit : limit < 18446744073709551616)
    (rows : List Row) :
    select rows (table.pageStatement mark limit) =
      .ok ((rows.filter (follows mark)).take limit) := by
  rw [select, limit_of_page hplain hlimit, mark_of_page hplain]

/-- What the table answers depends on its rows alone. -/
theorem query_eq (t : Table) (statement : String) :
    (t.query statement).1 = select t.rows statement := rfl

/-! ## The rows of the table -/

/-- The key of a player is the number, filled up to four digits. -/
theorem key_player (i : Nat) :
    keyOf table (player i) = "player" ++ Decimal.padLeft 4 (toString i) := rfl

/-- The keys of players are plain. -/
theorem plain_key (i : Nat) : Plain (keyOf table (player i)) := by
  have hne : keyOf table (player i) ≠ "" := by
    rw [key_player]
    exact fun hempty => absurd (congrArg String.toList hempty) (by simp)
  have hchar {c : Char} (hname : c ∉ "player".toList) (hdigit : c.isDigit = false) :
      c ∉ (keyOf table (player i)).toList := by
    rw [key_player, String.toList_append]
    refine List.not_mem_append hname fun hmem => ?_
    exact Bool.false_ne_true (hdigit.symm.trans (Decimal.is_digit_of_mem_pad_left hmem))
  exact ⟨hne, hchar (by decide +kernel) (by decide), hchar (by decide +kernel) (by decide),
    hchar (by decide +kernel) (by decide)⟩

/-- Of two players with numbers of four digits, the one with the smaller number has the smaller
key. -/
theorem key_lt {i j : Nat} (h : i < j) (hj : j < 10000) :
    keyOf table (player i) < keyOf table (player j) := by
  have hdigits := Decimal.pad_left_lt (by decide) (show j < 10 ^ 4 from hj) h
  rw [key_player, key_player, String.lt_iff_toList_lt, String.toList_append, String.toList_append]
  exact List.append_left_lt (String.lt_iff_toList_lt.mp hdigits)

/-- The players in a table are those with numbers below its size. -/
theorem mem_players {row : Row} : row ∈ (players n).rows ↔ ∃ i < n, player i = row := by
  simp [players]

/-- The rows of the table are players. -/
theorem exists_player {row : Row} (h : row ∈ (players n).rows) : ∃ i, player i = row := by
  obtain ⟨i, -, hi⟩ := mem_players.mp h
  exact ⟨i, hi⟩

/-- The key of the last of some players is plain. -/
theorem plain_of_last {rows : List Row} (hrows : ∀ row ∈ rows, ∃ i, player i = row) :
    ∀ m ∈ rows.getLast?.map (keyOf table), Plain m := by
  intro m hm
  obtain ⟨last, hlast, rfl⟩ := Option.map_eq_some_iff.mp hm
  obtain ⟨i, rfl⟩ := hrows last (List.mem_of_getLast? hlast)
  exact plain_key i

/-- The rows of a table in which four digits are enough are in the order of their keys. -/
theorem keyed_players (h : n ≤ 10000) : Keyed table (players n).rows where
  cell := by
    intro row hrow
    obtain ⟨i, -, rfl⟩ := mem_players.mp hrow
    rfl
  increasing := by
    rw [players, List.pairwise_map]
    refine List.pairwise_lt_range.imp_of_mem fun _ hj hless => key_lt hless ?_
    exact Nat.lt_of_lt_of_le (List.mem_range.mp hj) h

/-- A player comes after a mark if the key does. -/
theorem follows_player (m : String) (i : Nat) :
    follows (some m) (player i) = decide (m < keyOf table (player i)) := rfl

/-- The rows of the table after a mark are those whose keys come after it. -/
theorem filter_players {rows : List Row} (hrows : ∀ row ∈ rows, ∃ i, player i = row)
    (mark : Option String) :
    rows.filter (follows mark) =
      rows.filter fun row => mark.all fun m => decide (m < keyOf table row) := by
  refine List.filter_congr fun row hrow => ?_
  obtain ⟨i, rfl⟩ := hrows row hrow
  cases mark with
  | none => rfl
  | some m => exact follows_player m i

/-! ## Reading the table to its end -/

/-- A reader of the table that hands its rows on as they are. -/
def reader (batch : Nat) : QueryReader := .of sourceName table .identity batch

/-- A size that is not zero is that of the pages. -/
theorem batch_reader {batch : Nat} (h : 0 < batch) : (reader batch).batch = batch := by
  rw [reader, QueryReader.of, if_neg (by simpa using Nat.ne_of_gt h)]

/-- The table of the first `n` players is read to its end in pages of this size: every row comes
once, in order, each page is full but the last, which may be shorter, and after the last page comes
the end. -/
def Drained (n batch : Nat) : Prop :=
  ∃ pages, CutsInto (players n).rows batch pages ∧
    ((reader batch).readMany query (players n) (pages.length + 1)).1.map Exchange.outcome =
      (pages.map fun page => .batch page.length (page.map rawRecord)) ++ [.error .eof]

/-- The table gives a reader between two pages the next rows. -/
theorem query_between {done rest : List Row} {r : QueryReader} {f : Row → Records} {t : Table}
    (h : Between table f done rest r) (hrows : done ++ rest = (players n).rows)
    (ht : t.rows = (players n).rows) (hbatch : r.batch < 18446744073709551616) :
    (t.query r.statement).1 = .ok (rest.take r.batch) := by
  have hplayers : ∀ row ∈ done ++ rest, ∃ i, player i = row := fun row hrow =>
    exists_player (hrows ▸ hrow)
  have hplain : ∀ m ∈ r.watermark, Plain m := h.watermark ▸
    plain_of_last fun row hrow => hplayers row (List.mem_append_left rest hrow)
  rw [query_eq, statement, h.table, ht, ← hrows, select_page hplain hbatch,
    filter_players hplayers, h.watermark, filter_after h.keyed.increasing]

/-- A table in which four digits are enough is read to its end in pages of any size. -/
theorem drained_of_le (hn : n ≤ 10000) {batch : Nat} (hbatch : 0 < batch)
    (hfits : batch < 18446744073709551616) : Drained n batch := by
  have hsize := batch_reader hbatch
  have hkey : ∀ row ∈ (players n).rows, keyOf table row ≠ "" := by
    intro row hrow
    obtain ⟨i, -, rfl⟩ := mem_players.mp hrow
    exact (plain_key i).ne_empty
  have hstart : Between table (fun row => [rawRecord row]) [] (players n).rows (reader batch) := by
    refine ⟨keyed_players hn, rfl, fun _ _ => rfl, Nat.lt_of_lt_of_eq hbatch hsize.symm, rfl, nofun,
      fun _ hempty => ?_⟩
    obtain ⟨last, hlast, hnone⟩ := Option.map_eq_some_iff.mp hempty
    exact hkey last (List.mem_of_mem_take (List.mem_of_getLast? hlast)) hnone
  have hcuts := cuts_sub_batches (players n).rows batch
  rw [Nat.max_eq_left hbatch] at hcuts
  refine ⟨_, hcuts, ?_⟩
  rw [hstart.read_pages (fun t => t.rows = (players n).rows) (fun hbetween hpage hrows ht =>
    ⟨query_between hbetween hrows ht (hpage ▸ hfits), ht⟩) hsize rfl rfl]
  simp only [List.map_eq_flatMap]

/-- The records of a reader that hands rows on as they are are the rows of its page. -/
theorem records_of_batch {r : QueryReader} {rows : List Row} {units : Nat} {records : Records}
    (hidentity : r.convert = .identity) (h : (r.receive (.ok rows)).1 = .batch units records) :
    records = rows.map rawRecord := by
  have hcomes : r.Comes r.watermark (.ok rows) (r.receive (.ok rows)).1 :=
    (comes_of_receive r r.watermark (.ok rows)).1
  have hall : Convertor.convertAll .identity (rows.map rawRecord) =
      .records (rows.flatMap fun row => [rawRecord row]) :=
    Convertor.convert_all_map fun _ _ => rfl
  rw [h] at hcomes
  cases hcomes with
  | batch _ mark _ _ _ hconvert =>
      rw [hidentity, hall] at hconvert
      rw [← Conversion.records.inj hconvert, List.map_eq_flatMap]

/-! ## A row that is passed over -/

/-- A reader of the table that has got the first players, in pages of this size. -/
structure Reached (batch k : Nat) (r : QueryReader) : Prop where
  table : r.table = Table.table
  convert : r.convert = .identity
  batch : r.batch = batch
  watermark : r.watermark = (players k).rows.getLast?.map (keyOf Table.table)

variable {batch k : Nat} {r : QueryReader} {t : Table} {page rows : List Row}

/-- The last player of a table. -/
theorem last_of_players (k : Nat) : (players (k + 1)).rows.getLast? = some (player k) := by
  rw [players, List.range_succ, List.map_append]
  exact List.getLast?_concat

/-- The first rows of a table are those of a smaller one. -/
theorem take_players (h : k ≤ n) : (players n).rows.take k = (players k).rows := by
  rw [players, players, ← List.map_take, List.take_range, Nat.min_eq_left h]

/-- A full page continues the rows before it. -/
theorem players_add (h : k + batch ≤ n) :
    (players (k + batch)).rows = (players k).rows ++ ((players n).rows.drop k).take batch := by
  rw [← take_players h, List.take_add, take_players (Nat.le_of_add_right_le h)]

/-- The last key of some players is that of the last of them. -/
theorem last_key_players (hpage : ∀ row ∈ page, ∃ i, player i = row) :
    lastKey table (.ok page) = page.getLast?.map (keyOf table) := by
  cases hlast : page.getLast? with
  | none => rw [lastKey, hlast, Option.bind_none, Option.map_none]
  | some last =>
      obtain ⟨i, rfl⟩ := hpage last (List.mem_of_getLast? hlast)
      rw [lastKey, hlast, Option.bind_some, Option.map_some]
      rfl

/-- The last key of rows is that of their records. -/
theorem last_key_of_records (h : rows.map rawRecord = page.map rawRecord) :
    lastKey table (.ok rows) = lastKey table (.ok page) := by
  have hlast (rows : List Row) : lastKey table (.ok rows) =
      (rows.map rawRecord).getLast?.bind fun raw => raw[table.id.index.toNat]? := by
    rw [lastKey, List.getLast?_map, Option.bind_map]
    rfl
  rw [hlast, hlast, h]

/-- The table gives the reader rows that come after the last player that it has got. -/
theorem Reached.answer (h : Reached batch k r) (ht : t.rows = (players n).rows)
    (hfits : batch < 18446744073709551616) :
    (t.query r.statement).1 =
      .ok (((players n).rows.filter (follows r.watermark)).take batch) := by
  have hplain : ∀ m ∈ r.watermark, Plain m :=
    h.watermark ▸ plain_of_last fun _ => exists_player
  rw [query_eq, statement, h.table, h.batch, ht, select_page hplain hfits]

/-- A reader that has handed on the next page has got its rows, too. -/
theorem Reached.next {units : Nat} (h : Reached batch k r) (hn : k + batch ≤ n)
    (hreceive : (r.receive (.ok rows)).1 =
      .batch units ((((players n).rows.drop k).take batch).map rawRecord)) :
    Reached batch (k + batch) (r.receive (.ok rows)).2 := by
  have hrecords := records_of_batch h.convert hreceive
  have hplayers : ∀ row ∈ ((players n).rows.drop k).take batch, ∃ i, player i = row :=
    fun _ hrow => exists_player (List.mem_of_mem_drop (List.mem_of_mem_take hrow))
  obtain ⟨hcomes, hnext⟩ := comes_of_receive r r.watermark (.ok rows)
  obtain ⟨_, mark, -, -, hkey, -⟩ := Comes.of_batch (hreceive ▸ hcomes)
  have hmark : lastKey r.table (.ok rows) =
      (((players n).rows.drop k).take batch).getLast?.map (keyOf Table.table) := by
    rw [h.table, last_key_of_records hrecords.symm, last_key_players hplayers]
  obtain ⟨last, hlast, -⟩ := Option.map_eq_some_iff.mp (hmark.symm.trans hkey)
  have hreached : (players (k + batch)).rows.getLast? =
      (((players n).rows.drop k).take batch).getLast? := by
    rw [players_add hn, List.getLast?_append, hlast, Option.some_or]
  rw [← hreached] at hmark
  have hwatermark := congrArg QueryReader.watermark hnext
  dsimp only at hwatermark
  rw [hreceive] at hwatermark
  exact ⟨(congrArg QueryReader.table hnext).trans h.table,
    (congrArg QueryReader.convert hnext).trans h.convert,
    (congrArg QueryReader.batch hnext).trans h.batch, hwatermark.trans hmark⟩

/-- The player 10000 comes before all players in the second half of those with four digits. -/
theorem key_of_long {i : Nat} (hlow : 5000 ≤ i) (hhigh : i < 10000) :
    keyOf table (player 10000) < keyOf table (player i) := by
  have hhalf : keyOf table (player 10000) < keyOf table (player 5000) := by decide +kernel
  rcases Nat.eq_or_lt_of_le hlow with rfl | hless
  · exact hhalf
  · exact lt_trans hhalf (key_lt hless hhigh)

/-- A reader whose last player is such a one does not get the player 10000 any more. -/
theorem Reached.misses (h : Reached batch k r) (hlow : 5000 < k) (hhigh : k ≤ 10000) :
    rawRecord (player 10000) ∉
      (((players n).rows.filter (follows r.watermark)).take batch).map rawRecord := by
  intro hmem
  obtain ⟨row, hrow, hraw⟩ := List.mem_map.mp hmem
  obtain ⟨hplayer, hfollows⟩ := List.mem_filter.mp (List.mem_of_mem_take hrow)
  obtain ⟨i, -, rfl⟩ := mem_players.mp hplayer
  -- The row that is taken for the player 10000 has that player's key.
  have hkey : keyOf Table.table (player i) = keyOf Table.table (player 10000) :=
    congrArg (fun raw => raw.headD "") hraw
  obtain ⟨j, rfl⟩ := Nat.exists_eq_add_of_lt (Nat.zero_lt_of_lt hlow)
  rw [Nat.zero_add] at hlow hhigh h
  rw [h.watermark, last_of_players, Option.map_some, follows_player, hkey,
    decide_eq_true_eq] at hfollows
  exact lt_asymm hfollows (key_of_long (Nat.le_of_lt_succ hlow) hhigh)

/-- The player 10000 is in the page that goes beyond the players with four digits. -/
theorem long_in_page (hn : 10000 < n) (hk : k ≤ 10000) (hbeyond : 10000 < k + batch) :
    player 10000 ∈ ((players n).rows.drop k).take batch := by
  refine List.mem_of_getElem? (i := 10000 - k) ?_
  rw [List.getElem?_take_of_lt (by omega), List.getElem?_drop, Nat.add_sub_cancel' hk, players,
    List.getElem?_map, List.getElem?_range hn, Option.map_some]

/-- A reader of a table in which four digits are not enough does not get all rows that are left, in
pages of ten thousand rows or less: it goes on page by page until it misses the player 10000. -/
theorem Reached.not_read_out {pages : List (List Row)} (hn : 10000 < n) (hpos : 0 < batch)
    (hbatch : batch ≤ 10000) (hk : k ≤ 10000) (hfirst : k = 0 ∨ batch ≤ k)
    (hcuts : CutsInto ((players n).rows.drop k) batch pages) (h : Reached batch k r)
    (ht : t.rows = (players n).rows) :
    (r.readMany query t (pages.length + 1)).1.map Exchange.outcome ≠
      (pages.map fun page => .batch page.length (page.map rawRecord)) ++ [.error .eof] := by
  have hfits : batch < 18446744073709551616 := by omega
  induction pages generalizing k r t with
  | nil =>
      have hnone := congrArg List.length (cuts_nil_iff.mp hcuts)
      rw [List.length_drop, players, List.length_map, List.length_range, List.length_nil] at hnone
      omega
  | cons page pages ih =>
      intro hread
      obtain ⟨-, rfl, hrest⟩ := hcuts.of_cons hpos
      rw [List.length_cons, read_many_succ _ _ _ _ (h.answer ht hfits), List.map_cons,
        List.cons_append] at hread
      obtain ⟨hpage, hlater⟩ := List.cons.inj hread
      by_cases hfour : k + batch ≤ 10000
      · rw [List.drop_drop] at hrest
        have hnext := h.next (Nat.le_trans hfour (Nat.le_of_lt hn)) hpage
        have hrows : (t.query r.statement).2.rows = (players n).rows := ht
        exact ih hfour (.inr (Nat.le_add_left _ _)) hrest hnext hrows hlater
      · have hbeyond : 10000 < k + batch := Nat.lt_of_not_le hfour
        have hmem := List.mem_map_of_mem (f := rawRecord) (long_in_page hn hk hbeyond)
        rw [records_of_batch h.convert hpage] at hmem
        exact h.misses (by omega) hk hmem

/-- A table in which four digits are not enough is not read to its end in pages of ten thousand rows
or less. -/
theorem not_drained_of_lt (hn : 10000 < n) (hpos : 0 < batch) (hbatch : batch ≤ 10000) :
    ¬ Drained n batch := by
  rintro ⟨pages, hcuts, hread⟩
  have hstart : Reached batch 0 (reader batch) := ⟨rfl, rfl, batch_reader hpos, rfl⟩
  exact hstart.not_read_out hn hpos hbatch (Nat.zero_le _) (.inl rfl) hcuts rfl hread

/-- Reading the table of the first `n` players to its end, with a reader that hands rows on as they
are, gives every row once, in order, in full pages but for the last, and then the end, if there are
no more than ten thousand players, whatever the size of the pages. If there are more it does not,
for pages of up to ten thousand rows. -/
theorem drained_by_size (n : Nat) {batch : Nat} (hpos : 0 < batch)
    (hfits : batch < 18446744073709551616) :
    (n ≤ 10000 → Drained n batch) ∧ (10000 < n → batch ≤ 10000 → ¬ Drained n batch) :=
  ⟨fun hn => drained_of_le hn hpos hfits, fun hn hbatch => not_drained_of_lt hn hpos hbatch⟩

/-- In pages of a hundred rows, two hundred and fifty players are read to the end and ten thousand
and one are not. -/
theorem drained_of_hundreds :
    0 < 100 ∧ 100 < 18446744073709551616 ∧ Drained 250 100 ∧ ¬ Drained 10001 100 := by
  have hpos : 0 < 100 := by decide
  have hfits : 100 < 18446744073709551616 := by decide
  obtain ⟨hdrained, -⟩ := drained_by_size 250 hpos hfits
  obtain ⟨-, hmissed⟩ := drained_by_size 10001 hpos hfits
  exact ⟨hpos, hfits, hdrained (by decide), hmissed (by decide) (by decide)⟩

/-- Not every table is read to its end: the player 10000 does not come after the player 9999. -/
theorem not_all_drained :
    ¬ Drained 10001 10000 ∧
      ¬ ∀ n batch, 0 < batch → batch < 18446744073709551616 → Drained n batch := by
  have hmissed : ¬ Drained 10001 10000 :=
    not_drained_of_lt (Nat.lt_succ_self 10000) (by decide) (Nat.le_refl _)
  exact ⟨hmissed, fun hall => hmissed (hall 10001 10000 (by decide) (by decide))⟩

end BulkLoad.InMemory.Table
