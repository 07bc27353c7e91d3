import BulkLoad.Proofs.Reader.Stream
import BulkLoad.Reader.Query
import BulkLoad.Rehearsal.Convertors
import BulkLoad.Rehearsal.Source

/-!
# The watermark of a reader of pages

All that a reader of pages keeps of its requests is the key of the last row of the latest page that
it has handed out (`latestKey`). It asks for the page after that key, and whatever the source
answers, a request that does not lead to a batch leaves the key as it was, so that the next request
sends the same statement (`statements_of_reads`).
-/

namespace BulkLoad.QueryReader

/-- The key of the last row of a page. A null key is empty, and a short row has none. -/
def lastKey (t : SqlTable) : Page → Option String
  | .error _ => none
  | .ok rows => rows.getLast?.bind fun last => (rawRecord last)[t.id.index.toNat]?

/-- A source that notes every statement that it is sent, with its answer. -/
def noting {σ : Type} (answer : σ → String → Page × σ) (source : σ × List (String × Page))
    (statement : String) : Page × σ × List (String × Page) :=
  let (page, next) := answer source.1 statement
  (page, next, source.2 ++ [(statement, page)])

/-- What a source notes while this many batches are read. -/
def notes {σ : Type} (r : QueryReader) (answer : σ → String → Page × σ) (source : σ) (n : Nat) :
    List (String × Page) :=
  (r.readMany (noting answer) (source, []) n).2.2

/-- A request for a batch: the statement that the source was sent, its answer, what came of it, and
the watermark after it. -/
structure Turn where
  statement : String
  page : Page
  outcome : BatchOutcome
  watermark : Option String

/-- The requests for this many batches. -/
def turns {σ : Type} (r : QueryReader) (answer : σ → String → Page × σ) (source : σ) (n : Nat) :
    List Turn :=
  List.zipWith
    (fun exchange (statement, page) =>
      ⟨statement, page, exchange.outcome, exchange.reader.watermark⟩)
    (r.readMany answer source n).1 (r.notes answer source n)

/-- The key of the last row of the latest page that was handed out. -/
def latestKey (t : SqlTable) (turns : List Turn) : Option String :=
  (turns.filter fun turn => turn.outcome.isBatch).getLast?.bind fun turn => lastKey t turn.page

/-- What comes of a page, given the watermark: a batch with as many units as the page has rows, or
one of the ways to fail. -/
inductive Comes (r : QueryReader) (watermark : Option String) : Page → BatchOutcome → Prop where
  | refused (error : SourceError) : r.Comes watermark (.error error) (.error (.source error))
  | ended : r.Comes watermark (.ok []) (.error .eof)
  | keyless (rows : List Row) (hrows : rows ≠ []) (hkey : lastKey r.table (.ok rows) = none) :
      r.Comes watermark (.ok rows) (.error (.failed r.sourceName
        ("row has no key column at index " ++ toString r.table.id.index.toNat)))
  | stuck (rows : List Row) (mark : String) (hkey : lastKey r.table (.ok rows) = some mark)
      (hsame : watermark = some mark) :
      r.Comes watermark (.ok rows) (.error (.failed r.sourceName
        ("key '" ++ mark ++ "' does not advance past the previous page")))
  | unconverted (rows : List Row) (mark : String) (error : ConvertError)
      (hkey : lastKey r.table (.ok rows) = some mark) (hnew : watermark ≠ some mark)
      (hconvert : r.convert.convertAll (rows.map rawRecord) = .failed error) :
      r.Comes watermark (.ok rows) (.error (.convert error))
  | panicked (rows : List Row) (mark message : String)
      (hkey : lastKey r.table (.ok rows) = some mark) (hnew : watermark ≠ some mark)
      (hconvert : r.convert.convertAll (rows.map rawRecord) = .panicked message) :
      r.Comes watermark (.ok rows) (.panicked message)
  | batch (rows : List Row) (mark : String) (records : Records)
      (hkey : lastKey r.table (.ok rows) = some mark) (hnew : watermark ≠ some mark)
      (hconvert : r.convert.convertAll (rows.map rawRecord) = .records records) :
      r.Comes watermark (.ok rows) (.batch rows.length records)

/-- A request that comes after others: its statement asks for the page after the latest key, the
answer decides what comes of it, and only a batch moves the watermark. -/
structure Follows (r : QueryReader) (earlier : List Turn) (turn : Turn) : Prop where
  statement : turn.statement = r.table.pageStatement (latestKey r.table earlier) r.batch
  comes : r.Comes (latestKey r.table earlier) turn.page turn.outcome
  watermark : turn.watermark = latestKey r.table (earlier ++ [turn])

section

variable {σ : Type} {r : QueryReader} {t : SqlTable} {page : Page} {outcome : BatchOutcome}
  {earlier later : List Turn} {turn : Turn} {answer : σ → String → Page × σ} {source : σ}

/-! ## One request -/

/-- The reader after these requests. -/
def since (r : QueryReader) (turns : List Turn) : QueryReader :=
  { r with watermark := latestKey r.table turns }

/-- The request of a reader that gets this answer. -/
def Turn.of (r : QueryReader) (page : Page) : Turn :=
  ⟨r.statement, page, (r.receive page).1, (r.receive page).2.watermark⟩

/-- The answer decides what comes of a request. Only a batch moves the watermark, to the last key of
its page, and nothing else of the reader changes. -/
theorem comes_of_receive (r : QueryReader) (watermark : Option String) (page : Page) :
    r.Comes watermark page (receive { r with watermark } page).1 ∧
      (receive { r with watermark } page).2 = { r with
        watermark := if (receive { r with watermark } page).1.isBatch then lastKey r.table page
          else watermark } := by
  cases page with
  | error error => exact ⟨.refused error, rfl⟩
  | ok rows =>
      cases hlast : rows.getLast? with
      | none =>
          obtain rfl := List.getLast?_eq_none_iff.mp hlast
          exact ⟨.ended, rfl⟩
      | some last =>
          have hkey : lastKey r.table (.ok rows) = (rawRecord last)[r.table.id.index.toNat]? := by
            rw [lastKey, hlast, Option.bind_some]
          cases hmark : (rawRecord last)[r.table.id.index.toNat]? with
          | none =>
              have hrows : rows ≠ [] := by
                rintro rfl
                cases hlast
              simp only [receive, hlast, hmark]
              exact ⟨.keyless rows hrows (hkey.trans hmark), rfl⟩
          | some mark =>
              rw [hmark] at hkey
              by_cases hsame : watermark = some mark
              · subst hsame
                simp only [receive, hlast, hmark, beq_self_eq_true, if_true]
                exact ⟨.stuck rows mark hkey rfl, rfl⟩
              · have hnew : ¬ (watermark == some mark) = true := by simpa using hsame
                cases hconvert : r.convert.convertAll (rows.map rawRecord) with
                | records records =>
                    simp only [receive, hlast, hmark, if_neg hnew, hconvert]
                    exact ⟨.batch rows mark records hkey hsame hconvert, by rw [hkey]; rfl⟩
                | failed error =>
                    simp only [receive, hlast, hmark, if_neg hnew, hconvert]
                    exact ⟨.unconverted rows mark error hkey hsame hconvert, rfl⟩
                | panicked message =>
                    simp only [receive, hlast, hmark, if_neg hnew, hconvert]
                    exact ⟨.panicked rows mark message hkey hsame hconvert, rfl⟩

/-- The latest key after one more request is that of its page if it led to a batch, and the one
before otherwise. -/
theorem latest_key_concat (t : SqlTable) (earlier : List Turn) (turn : Turn) :
    latestKey t (earlier ++ [turn]) =
      if turn.outcome.isBatch then lastKey t turn.page else latestKey t earlier := by
  rw [latestKey, List.filter_append]
  cases hbatch : turn.outcome.isBatch with
  | false => simp [latestKey, hbatch]
  | true => simp [hbatch]

/-- The next request follows those before it, and the reader is then the one after all of them. -/
theorem follows_of_since (r : QueryReader) (earlier : List Turn) (page : Page) :
    r.Follows earlier (.of (r.since earlier) page) ∧
      ((r.since earlier).receive page).2 =
        r.since (earlier ++ [.of (r.since earlier) page]) := by
  obtain ⟨hcomes, hnext⟩ := comes_of_receive r (latestKey r.table earlier) page
  have hlatest := latest_key_concat r.table earlier (.of (r.since earlier) page)
  have hsince : ((r.since earlier).receive page).2 =
      r.since (earlier ++ [.of (r.since earlier) page]) :=
    hnext.trans (congrArg (fun watermark => { r with watermark }) hlatest.symm)
  exact ⟨⟨rfl, hcomes, congrArg QueryReader.watermark hsince⟩, hsince⟩

/-! ## Several requests -/

/-- A source notes what comes after what it has noted before. -/
theorem notes_append (r : QueryReader) (answer : σ → String → Page × σ) (source : σ)
    (before : List (String × Page)) (n : Nat) :
    (r.readMany (noting answer) (source, before) n).2.2 = before ++ r.notes answer source n := by
  -- Notes are added at the end, so what has been noted before grows along the run.
  induction n generalizing r source before with
  | zero => exact (List.append_nil before).symm
  | succ n ih =>
      refine (ih _ _ _).trans ?_
      rw [List.append_assoc]
      exact congrArg (before ++ ·) (ih _ _ _).symm

/-- The source notes the first request and then the others. -/
theorem notes_succ (r : QueryReader) (answer : σ → String → Page × σ) (source : σ) (n : Nat) :
    r.notes answer source (n + 1) =
      (r.statement, (answer source r.statement).1) ::
        (r.receive (answer source r.statement).1).2.notes answer (answer source r.statement).2 n :=
  notes_append _ answer _ [_] n

/-- The first request is answered, and then the others. -/
theorem turns_succ (r : QueryReader) (answer : σ → String → Page × σ) (source : σ) (n : Nat) :
    r.turns answer source (n + 1) =
      .of r (answer source r.statement).1 ::
        (r.receive (answer source r.statement).1).2.turns answer (answer source r.statement).2
          n := by
  rw [turns, notes_succ]
  rfl

/-- As many requests are made as batches are read, each of which the source notes once. -/
theorem notes_of_turns (r : QueryReader) (answer : σ → String → Page × σ) (source : σ) (n : Nat) :
    (r.turns answer source n).length = n ∧
      r.notes answer source n =
        (r.turns answer source n).map fun turn => (turn.statement, turn.page) := by
  induction n generalizing r source with
  | zero => exact ⟨rfl, rfl⟩
  | succ n ih =>
      obtain ⟨hlength, hnotes⟩ := ih (r.receive (answer source r.statement).1).2
        (answer source r.statement).2
      rw [turns_succ, notes_succ]
      exact ⟨congrArg (· + 1) hlength, congrArg (_ :: ·) hnotes⟩

/-- Every request of a reader that has made others before follows all of them. -/
theorem follows_of_turns {history : List Turn} {n : Nat}
    (h : (r.since history).turns answer source n = earlier ++ turn :: later) :
    r.Follows (history ++ earlier) turn := by
  -- The reader is always the one after its history, and the request that it makes joins that.
  induction n generalizing history source earlier with
  | zero => exact absurd h.symm (List.append_ne_nil_of_right_ne_nil _ (List.cons_ne_nil _ _))
  | succ n ih =>
      rw [turns_succ] at h
      obtain ⟨hfollows, hnext⟩ :=
        follows_of_since r history (answer source (r.since history).statement).1
      cases earlier with
      | nil =>
          obtain ⟨rfl, -⟩ := List.cons.inj h
          rwa [List.append_nil]
      | cons first rest =>
          obtain ⟨rfl, hrest⟩ := List.cons.inj h
          rw [hnext] at hrest
          have hlater := ih hrest
          rwa [List.append_assoc] at hlater

/-! ## All requests -/

/-- A batch has as many units as its page has rows, and the key of the last of them is a new one. -/
theorem Comes.of_batch {watermark : Option String} {units : Nat} {records : Records}
    (h : r.Comes watermark page (.batch units records)) :
    ∃ rows mark, page = .ok rows ∧ units = rows.length ∧ lastKey r.table page = some mark ∧
      watermark ≠ some mark := by
  cases h with
  | batch rows mark records hkey hnew hconvert => exact ⟨rows, mark, rfl, rfl, hkey, hnew⟩

/-- The statements of a reader of pages, whatever its source answers. A new reader sends one
statement for each batch that it is asked for: the one for the page after the key of the last row of
the latest page that it has handed out, or for the first page if there is none. A request that does
not lead to a batch leaves that key as it was, and the next one sends the same statement. A batch
has as many units as its page has rows, and moves the key to another one. -/
theorem statements_of_reads (hfresh : r.watermark = none) (answer : σ → String → Page × σ)
    (source : σ) (n : Nat) :
    (r.turns answer source n).length = n ∧
    r.notes answer source n =
      ((r.turns answer source n).map fun turn => (turn.statement, turn.page)) ∧
    ∀ earlier turn later, r.turns answer source n = earlier ++ turn :: later →
      r.Follows earlier turn ∧
      (turn.outcome.isBatch = false →
        turn.watermark = latestKey r.table earlier ∧
          ∀ next rest, later = next :: rest → next.statement = turn.statement) ∧
      ∀ units records, turn.outcome = .batch units records →
        ∃ rows mark, turn.page = .ok rows ∧ units = rows.length ∧
          lastKey r.table turn.page = some mark ∧ latestKey r.table earlier ≠ some mark ∧
          turn.watermark = some mark := by
  have hsince : r.since [] = r := congrArg (fun watermark => { r with watermark }) hfresh.symm
  have hfollows {earlier turn later} (h : r.turns answer source n = earlier ++ turn :: later) :
      r.Follows earlier turn := by
    rw [← hsince] at h
    exact follows_of_turns h
  obtain ⟨hlength, hnotes⟩ := notes_of_turns r answer source n
  refine ⟨hlength, hnotes, ?_⟩
  intro earlier turn later hturns
  have hturn := hfollows hturns
  refine ⟨hturn, ?_, ?_⟩
  · intro hfailed
    have hkept : latestKey r.table (earlier ++ [turn]) = latestKey r.table earlier := by
      rw [latest_key_concat, hfailed, if_neg Bool.false_ne_true]
    refine ⟨hturn.watermark.trans hkept, ?_⟩
    rintro next rest rfl
    rw [List.append_cons] at hturns
    rw [(hfollows hturns).statement, hkept, hturn.statement]
  · intro units records hbatch
    obtain ⟨rows, mark, hpage, hunits, hkey, hnew⟩ := (hbatch ▸ hturn.comes).of_batch
    refine ⟨rows, mark, hpage, hunits, hkey, hnew, ?_⟩
    rw [hturn.watermark, latest_key_concat, hbatch, ← hkey]
    rfl

end

namespace Sample

/-- A reader of pages of two rows. -/
def paging : QueryReader := .of "player" { name := "player" } Rehearsal.double 2

/-- A source that answers in all the ways in which a request can fail, between two pages. Nothing is
left of the last page by the conversion. -/
def failing : Rehearsal.Source where
  pages := [.ok [[some "k", none], [some "m", some "1"]], .error (.query "player" "busy"),
    .ok [[some "m"]], .ok [[some "bad"]], .ok [[]], .ok [], .ok [[some "skip"], [some "skip"]]]

/-- The requests for seven batches. -/
def asked : List Turn := paging.turns (fun source _ => source.query) failing 7

end Sample

/-- After five failures the last request still asks for the page after the first one, which ends
with the key `m`. -/
theorem statements_of_failing :
    Sample.asked.map Turn.outcome =
        [.batch 2 [["k", ""], ["K", ""], ["m", "1"], ["M", "1"]],
          .error (.source (.query "player" "busy")),
          .error (.failed "player" "key 'm' does not advance past the previous page"),
          .error (.convert (.other "bad")),
          .error (.failed "player" "row has no key column at index 0"), .error .eof,
          .batch 2 []] ∧
      ∃ earlier last, Sample.asked = earlier ++ [last] ∧
        last.statement = SqlTable.pageStatement { name := "player" } (some "m") 2 := by
  obtain ⟨hlength, -, hsplit⟩ := statements_of_reads (r := Sample.paging) rfl
    (fun source _ => source.query) Sample.failing 7
  have hasked : Sample.asked ≠ [] := List.ne_nil_of_length_eq_add_one hlength
  have hlast := (List.dropLast_concat_getLast hasked).symm
  obtain ⟨hfollows, -⟩ := hsplit _ _ _ hlast
  refine ⟨by decide +kernel, _, _, hlast, ?_⟩
  have hkey : latestKey Sample.paging.table Sample.asked.dropLast = some "m" := by decide +kernel
  rw [hfollows.statement, hkey]
  rfl

end BulkLoad.QueryReader
