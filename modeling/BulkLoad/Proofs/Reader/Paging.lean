import BulkLoad.Proofs.Portions
import BulkLoad.Proofs.Source.Pages
import BulkLoad.Reader.Query
import Mathlib.Algebra.GroupWithZero.Nat
import Mathlib.Data.String.Basic

/-!
# Paging through a table

A `QueryReader` asks a table for the rows after the key of the last row that it has got, page by
page. If the keys increase it gets every row once, in order, and then the end of the stream, unless
the first page ends with the empty key: as a watermark the empty key counts as none, the reader is
given the first page again, and gives up (`pages_of_table`).
-/

namespace BulkLoad.QueryReader

/-- The key of a row. -/
def keyOf (t : SqlTable) (row : Row) : String := (row[t.id.index.toNat]?.join).getD ""

/-- Rows that have keys, in the order of their keys. -/
structure Keyed (t : SqlTable) (rows : List Row) : Prop where
  cell : ∀ row ∈ rows, row[t.id.index.toNat]? = some (some (keyOf t row))
  increasing : rows.Pairwise fun row other => keyOf t row < keyOf t other

/-- The rows of a table that a request asks for. -/
def select (t : SqlTable) (rows : List Row) (request : SqlTable.Request) : List Row :=
  (rows.filter fun row => request.mark.all fun mark => decide (mark < keyOf t row)).take
    request.limit

/-- A source answers page statements with the rows of a table that they ask for. -/
def AnswersFrom {σ : Type} (t : SqlTable) (rows : List Row) (answer : σ → String → Page × σ) :
    Prop :=
  ∀ source statement request, t.request? statement = some request →
    (answer source statement).1 = .ok (select t rows request)

/-- The outcomes of as many requests as there are pages, and one more: each page of the table is a
batch, and then the stream is at its end. The pages have as many rows as the table, and what has
been converted is what all rows of the table become, in order. -/
structure ReadsAll (rows : List Row) (f : Row → Records) (pages : List (List Row))
    (outcomes : List BatchOutcome) : Prop where
  outcomes : outcomes =
    (pages.map fun page => .batch page.length (page.flatMap f)) ++ [.error .eof]
  counts : (pages.map List.length).sum = rows.length
  records : (pages.map fun page => page.flatMap f).flatten = rows.flatMap f

section

variable {σ : Type} {t : SqlTable} {rows done rest page : List Row} {answer : σ → String → Page × σ}
  {convert : Convertor} {f : Row → Records} {r : QueryReader}

/-! ## One page -/

/-- The raw record of a row has the key at its place. -/
theorem key_raw_record (hkeyed : Keyed t rows) {row : Row} (hrow : row ∈ rows) :
    (rawRecord row)[t.id.index.toNat]? = some (keyOf t row) := by
  rw [rawRecord, List.getElem?_map, hkeyed.cell row hrow]
  rfl

/-- The rows after the last of some rows at the beginning are the others. -/
theorem filter_after (h : (done ++ rest).Pairwise fun row other => keyOf t row < keyOf t other) :
    ((done ++ rest).filter fun row =>
      (done.getLast?.map (keyOf t)).all fun mark => decide (mark < keyOf t row)) = rest := by
  rcases List.eq_nil_or_concat done with rfl | ⟨init, last, rfl⟩
  · exact List.filter_eq_self.mpr fun _ _ => rfl
  · rw [List.concat_eq_append] at h ⊢
    obtain ⟨hdone, -, hrest⟩ := List.pairwise_append.mp h
    obtain ⟨-, -, hlast⟩ := List.pairwise_append.mp hdone
    rw [List.getLast?_concat, Option.map_some, List.filter_append]
    have hnone : ((init ++ [last]).filter fun row =>
        (some (keyOf t last)).all fun mark => decide (mark < keyOf t row)) = [] := by
      refine List.filter_eq_nil_iff.mpr fun row hrow => ?_
      rw [Option.all_some, decide_eq_true_eq]
      rcases List.mem_append.mp hrow with hrow | hrow
      · exact lt_asymm (hlast row hrow last List.mem_cons_self)
      · rw [List.mem_singleton.mp hrow]
        exact lt_irrefl _
    have hall : (rest.filter fun row =>
        (some (keyOf t last)).all fun mark => decide (mark < keyOf t row)) = rest :=
      List.filter_eq_self.mpr fun row hrow => decide_eq_true
        (hrest last (List.mem_append_right _ List.mem_cons_self) row hrow)
    rw [hnone, hall, List.nil_append]

/-- A source answers the statement for the next page with as many rows after the watermark as are
wanted. An empty watermark is none. -/
theorem answer_statement (hsource : AnswersFrom t rows answer) (htable : r.table = t) (source : σ) :
    (answer source r.statement).1 =
      .ok (select t rows ⟨SqlTable.nonEmpty r.watermark, r.batch⟩) := by
  apply hsource
  rw [statement, htable]
  exact t.request_page_statement r.watermark r.batch

/-- A page whose last key is new is converted, and that key becomes the watermark. -/
theorem receive_page (hkeyed : Keyed t rows) (htable : r.table = t)
    (hconvert : ∀ row ∈ rows, r.convert (rawRecord row) = .records (f row))
    (hpage : ∀ row ∈ page, row ∈ rows) {last : Row} (hlast : page.getLast? = some last)
    (hnew : r.watermark ≠ some (keyOf t last)) :
    r.receive (.ok page) =
      (.batch page.length (page.flatMap f), { r with watermark := some (keyOf t last) }) := by
  have hmark := key_raw_record hkeyed (hpage last (List.mem_of_getLast? hlast))
  have hrecords := Convertor.convert_all_map fun row hrow => hconvert row (hpage row hrow)
  subst htable
  have hunequal : ¬ (r.watermark == some (keyOf r.table last)) = true := by simpa using hnew
  simp only [receive, hlast, hmark, if_neg hunequal, hrecords]

/-- A page whose last key is the watermark is refused. -/
theorem receive_again (hkeyed : Keyed t rows) (htable : r.table = t)
    (hpage : ∀ row ∈ page, row ∈ rows) {last : Row} (hlast : page.getLast? = some last)
    (hsame : r.watermark = some (keyOf t last)) :
    (r.receive (.ok page)).1 = .error (.failed r.sourceName
      ("key '" ++ keyOf t last ++ "' does not advance past the previous page")) := by
  have hmark := key_raw_record hkeyed (hpage last (List.mem_of_getLast? hlast))
  subst htable
  have hequal : (r.watermark == some (keyOf r.table last)) = true := by simpa using hsame
  simp only [receive, hlast, hmark, if_pos hequal]

/-- Reading several batches is reading the first and then the others. -/
theorem read_many_succ (r : QueryReader) (answer : σ → String → Page × σ) (source : σ) (n : Nat)
    {pageAnswer : Page} (hanswer : (answer source r.statement).1 = pageAnswer) :
    (r.readMany answer source (n + 1)).1.map Exchange.outcome =
      (r.receive pageAnswer).1 ::
        ((r.receive pageAnswer).2.readMany answer (answer source r.statement).2 n).1.map
          Exchange.outcome := by
  subst hanswer
  rfl

/-! ## All pages -/

/-- A watermark that is not empty is one for the statement, too. -/
theorem non_empty_of_ne {watermark : Option String} (h : watermark ≠ some "") :
    SqlTable.nonEmpty watermark = watermark := by
  cases watermark with
  | none => rfl
  | some mark =>
      have hmark : (!mark.isEmpty) = true := by
        rw [Bool.not_eq_true', ← Bool.not_eq_true, String.isEmpty_iff]
        rintro rfl
        exact h rfl
      exact Option.filter_some_pos hmark

/-- No key comes before the empty one. -/
theorem ne_empty_of_lt {key other : String} (h : key < other) : other ≠ "" := by
  rintro rfl
  rw [String.lt_iff_toList_lt] at h
  exact List.not_lt_nil _ h

/-- A reader that has got some rows of a table and is to get the others. Its watermark is the key of
the last row that it has got, and neither that nor the end of the first page is the empty key. -/
structure Between (t : SqlTable) (f : Row → Records) (done rest : List Row) (r : QueryReader) :
    Prop where
  keyed : Keyed t (done ++ rest)
  table : r.table = t
  converts : ∀ row ∈ done ++ rest, r.convert (rawRecord row) = .records (f row)
  batch_pos : 0 < r.batch
  watermark : r.watermark = done.getLast?.map (keyOf t)
  ne_empty : r.watermark ≠ some ""
  first : done = [] → (rest.take r.batch).getLast?.map (keyOf t) ≠ some ""

/-- The reader is given the next rows. -/
theorem Between.answer_eq (h : Between t f done rest r)
    (hsource : AnswersFrom t (done ++ rest) answer) (source : σ) :
    (answer source r.statement).1 = .ok (rest.take r.batch) := by
  rw [answer_statement hsource h.table, select, non_empty_of_ne h.ne_empty, h.watermark,
    filter_after h.keyed.increasing]

/-- The keys of the rows to come are greater than the watermark. -/
theorem Between.watermark_lt (h : Between t f done rest r) {mark : String}
    (hmark : r.watermark = some mark) {row : Row} (hrow : row ∈ rest) : mark < keyOf t row := by
  obtain ⟨last, hlast, rfl⟩ := Option.map_eq_some_iff.mp (h.watermark.symm.trans hmark)
  obtain ⟨-, -, hless⟩ := List.pairwise_append.mp h.keyed.increasing
  exact hless last (List.mem_of_getLast? hlast) row hrow

/-- The key of the last row of a page that the reader is given is not empty. -/
theorem Between.ne_empty_of_last (h : Between t f done rest r) {last : Row}
    (hlast : (rest.take r.batch).getLast? = some last) : keyOf t last ≠ "" := by
  have hmem : last ∈ rest := List.mem_of_mem_take (List.mem_of_getLast? hlast)
  rcases List.eq_nil_or_concat done with rfl | ⟨init, before, rfl⟩
  · intro hempty
    refine h.first rfl ?_
    rw [hlast, Option.map_some, hempty]
  · have hmark := h.watermark
    rw [List.concat_eq_append, List.getLast?_concat, Option.map_some] at hmark
    exact ne_empty_of_lt (h.watermark_lt hmark hmem)

/-- The next page is a batch, and the reader has got it, too. -/
theorem Between.receive_next (h : Between t f done rest r) (hrest : rest ≠ []) :
    ∃ next : QueryReader, next.batch = r.batch ∧
      r.receive (.ok (rest.take r.batch)) =
        (.batch (rest.take r.batch).length ((rest.take r.batch).flatMap f), next) ∧
      Between t f (done ++ rest.take r.batch) (rest.drop r.batch) next := by
  have hpage : rest.take r.batch ≠ [] := by
    rw [Ne, List.take_eq_nil_iff]
    exact not_or.mpr ⟨Nat.ne_of_gt h.batch_pos, hrest⟩
  obtain ⟨last, hlast⟩ := Option.isSome_iff_exists.mp (List.getLast?_isSome.mpr hpage)
  have hmem : last ∈ rest := List.mem_of_mem_take (List.mem_of_getLast? hlast)
  have hrows : done ++ rest.take r.batch ++ rest.drop r.batch = done ++ rest := by
    rw [List.append_assoc, List.take_append_drop]
  have hdone : (done ++ rest.take r.batch).getLast? = some last := by
    rw [List.getLast?_append, hlast, Option.some_or]
  have hnew : r.watermark ≠ some (keyOf t last) := fun hsame =>
    lt_irrefl _ (h.watermark_lt hsame hmem)
  refine ⟨{ r with watermark := some (keyOf t last) }, rfl, ?_, ?_⟩
  · exact receive_page h.keyed h.table h.converts
      (fun row hrow => List.mem_append_right done (List.mem_of_mem_take hrow)) hlast hnew
  · refine ⟨hrows ▸ h.keyed, h.table, hrows ▸ h.converts, h.batch_pos, ?_, ?_, ?_⟩
    · rw [hdone, Option.map_some]
    · exact fun hempty => h.ne_empty_of_last hlast (Option.some.inj hempty)
    · intro hnone
      rw [hnone] at hdone
      cases hdone

/-- A source that answers a reader between two pages with the next rows, and stays one that does so,
is read to its end: the reader gets all rows that are left, page by page, and then the end. -/
theorem Between.read_pages {batch : Nat} (Holds : σ → Prop)
    (hanswer : ∀ {done rest : List Row} {r : QueryReader} {source : σ}, Between t f done rest r →
      r.batch = batch → done ++ rest = rows → Holds source →
        (answer source r.statement).1 = .ok (rest.take r.batch) ∧
          Holds (answer source r.statement).2)
    (h : Between t f done rest r) (hbatch : r.batch = batch) (hrows : done ++ rest = rows)
    {source : σ} (hsource : Holds source) :
    (r.readMany answer source ((subBatches rest batch).length + 1)).1.map Exchange.outcome =
      ((subBatches rest batch).map fun page => .batch page.length (page.flatMap f)) ++
        [.error .eof] := by
  obtain ⟨hpage, hlater⟩ := hanswer h hbatch hrows hsource
  fun_induction subBatches rest batch generalizing done r source with
  | case1 =>
      rw [List.take_nil] at hpage
      exact read_many_succ r answer source 0 hpage
  | case2 first rest ih =>
      obtain ⟨next, hsame, hreceive, hnext⟩ := h.receive_next (List.cons_ne_nil first rest)
      rw [hbatch] at hpage hreceive hnext hsame
      rw [Nat.max_eq_left (hbatch ▸ h.batch_pos)] at ih ⊢
      rw [List.length_cons, read_many_succ r answer source _ hpage, hreceive]
      have hrest : done ++ (first :: rest).take batch ++ (first :: rest).drop batch = rows := by
        rw [List.append_assoc, List.take_append_drop, hrows]
      obtain ⟨hnextPage, hnextLater⟩ := hanswer hnext hsame hrest hlater
      exact congrArg (_ :: ·) (ih hnext hsame hrest hlater hnextPage hnextLater)

/-- The reader gets all rows that are left, page by page, and then the end. -/
theorem Between.read_rest {batch : Nat} (h : Between t f done rest r) (hbatch : r.batch = batch)
    (hsource : AnswersFrom t (done ++ rest) answer) (source : σ) :
    (r.readMany answer source ((subBatches rest batch).length + 1)).1.map Exchange.outcome =
      ((subBatches rest batch).map fun page => .batch page.length (page.flatMap f)) ++
        [.error .eof] :=
  h.read_pages (fun _ => True)
    (fun hbetween _ hrows _ => ⟨hbetween.answer_eq (hrows ▸ hsource) _, trivial⟩) hbatch rfl trivial

/-- A reader that gets a page that ends with the empty key is given it again and gives up. -/
theorem read_empty {sourceName : String} {batch : Nat} (hkeyed : Keyed t rows)
    (hsource : AnswersFrom t rows answer) (htable : r.table = t)
    (hconvert : ∀ row ∈ rows, r.convert (rawRecord row) = .records (f row))
    (hsize : r.batch = batch) (hname : r.sourceName = sourceName) (hnone : r.watermark = none)
    (hempty : (rows.take batch).getLast?.map (keyOf t) = some "") (source : σ) :
    (r.readMany answer source 2).1.map Exchange.outcome =
      [.batch (rows.take batch).length ((rows.take batch).flatMap f),
        .error (.failed sourceName "key '' does not advance past the previous page")] := by
  obtain ⟨last, hlast, hkey⟩ := Option.map_eq_some_iff.mp hempty
  have hpage : ∀ row ∈ rows.take batch, row ∈ rows := fun row => List.mem_of_mem_take
  have hall : select t rows ⟨none, batch⟩ = rows.take batch :=
    congrArg (List.take batch) (List.filter_eq_self.mpr fun _ _ => rfl)
  have hanswer : (answer source r.statement).1 = .ok (rows.take batch) := by
    rw [answer_statement hsource htable, hnone, hsize, ← hall]
    rfl
  have hreceive : r.receive (.ok (rows.take batch)) =
      (.batch (rows.take batch).length ((rows.take batch).flatMap f),
        { r with watermark := some (keyOf t last) }) :=
    receive_page hkeyed htable hconvert hpage hlast (by rw [hnone]; nofun)
  -- The empty watermark is none, so the first page is the answer again.
  have hagain : (answer (answer source r.statement).2
      ({ r with watermark := some (keyOf t last) } : QueryReader).statement).1 =
        .ok (rows.take batch) := by
    rw [answer_statement (r := { r with watermark := some (keyOf t last) }) hsource htable, hkey,
      hsize, ← hall]
    rfl
  have hrefuse := receive_again (r := { r with watermark := some (keyOf t last) }) hkeyed htable
    hpage hlast rfl
  rw [read_many_succ r answer source 1 hanswer, hreceive, read_many_succ _ answer _ 0 hagain,
    hrefuse, hkey, hname]
  rfl

/-- Reading a table page by page. If its rows have increasing keys and can all be converted, a
reader of pages of any size gets every row once, in order, and then the end of the stream, unless
the first page ends with the empty key. In that case it gets that page, is given it again, and
fails, because the key does not advance. -/
theorem pages_of_table {sourceName : String} {batch : Nat} (hbatch : 0 < batch)
    (hkeyed : Keyed t rows) (hsource : AnswersFrom t rows answer)
    (hconvert : ∀ row ∈ rows, convert (rawRecord row) = .records (f row)) (source : σ)
    (hr : r = .of sourceName t convert batch) :
    ((rows.take batch).getLast?.map (keyOf t) ≠ some "" →
      ReadsAll rows f (subBatches rows batch)
        ((r.readMany answer source ((subBatches rows batch).length + 1)).1.map
          Exchange.outcome)) ∧
    ((rows.take batch).getLast?.map (keyOf t) = some "" →
      (r.readMany answer source 2).1.map Exchange.outcome =
        [.batch (rows.take batch).length ((rows.take batch).flatMap f),
          .error (.failed sourceName "key '' does not advance past the previous page")]) := by
  have hsize : r.batch = batch := by
    rw [hr, of, if_neg (by simpa using Nat.ne_of_gt hbatch)]
  have hname : r.sourceName = sourceName := by rw [hr, of]
  have htable : r.table = t := by rw [hr, of]
  have hconverts : ∀ row ∈ rows, r.convert (rawRecord row) = .records (f row) := by
    rw [hr, of]
    exact hconvert
  have hnone : r.watermark = none := by rw [hr, of]
  constructor
  · intro hfirst
    refine ⟨?_, ?_, ?_⟩
    · have hstart : Between t f [] rows r := by
        refine ⟨hkeyed, htable, hconverts, hsize ▸ hbatch, hnone, ?_, fun _ => hsize ▸ hfirst⟩
        rw [hnone]
        nofun
      exact hstart.read_rest hsize hsource source
    · rw [← List.length_flatten, flatten_sub_batches]
    · calc ((subBatches rows batch).map fun page => page.flatMap f).flatten
          = (subBatches rows batch).flatten.flatMap f := by
            simp [List.flatMap_def, List.map_flatten, List.flatten_flatten, Function.comp_def]
        _ = rows.flatMap f := by rw [flatten_sub_batches]
  · intro hempty
    exact read_empty hkeyed hsource htable hconverts hsize hname hnone hempty source

end

/-! ## A table that cannot be read -/

/-- The source that holds some rows of a table and answers page statements with them. -/
def holding (t : SqlTable) (rows : List Row) (source : Unit) (statement : String) : Page × Unit :=
  match t.request? statement with
  | some request => (.ok (select t rows request), source)
  | none => (.error (.query t.name statement), source)

/-- Such a source answers as a table does. -/
theorem answers_holding (t : SqlTable) (rows : List Row) :
    AnswersFrom t rows (holding t rows) := by
  intro source statement request hrequest
  rw [holding, hrequest]

/-- A table of one row with the empty key is not read to its end: its row comes once, and then the
reader fails instead of finding the end. -/
theorem stuck_at_empty_key :
    Keyed { name := "player" } [[some ""]] ∧
      AnswersFrom { name := "player" } [[some ""]] (holding { name := "player" } [[some ""]]) ∧
      ((QueryReader.of "player" { name := "player" } .identity 1).readMany
          (holding { name := "player" } [[some ""]]) () 2).1.map Exchange.outcome =
        [.batch 1 [[""]],
          .error (.failed "player" "key '' does not advance past the previous page")] := by
  refine ⟨⟨by decide, by decide⟩, answers_holding _ _, ?_⟩
  decide +kernel

/-- A table of three rows, the first of which has the empty key, is read in two pages. -/
theorem pages_of_three :
    ((QueryReader.of "player" { name := "player" } .identity 2).readMany
        (holding { name := "player" } [[some ""], [some "a"], [some "b"]]) () 3).1.map
          Exchange.outcome =
      [.batch 2 [[""], ["a"]], .batch 1 [["b"]], .error .eof] := by
  have hkeyed : Keyed { name := "player" } [[some ""], [some "a"], [some "b"]] :=
    ⟨by decide +kernel, by decide +kernel⟩
  obtain ⟨hall, -⟩ := pages_of_table (f := fun row => [rawRecord row]) (by decide) hkeyed
    (answers_holding _ _) (fun _ _ => rfl) () (rfl : _ = QueryReader.of "player" _ .identity 2)
  have hpages : subBatches [[some ""], [some "a"], [some "b"]] 2 =
      [[[some ""], [some "a"]], [[some "b"]]] := by simp [subBatches]
  have hread := (hall (by decide +kernel)).outcomes
  rw [hpages] at hread
  exact hread

end BulkLoad.QueryReader
