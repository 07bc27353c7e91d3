import BulkLoad.Proofs.Reader.Stream
import BulkLoad.Reader.Query

/-!
# A convertor that panics

Both readers of batches convert the raw records that a request has got hold of, and differ in what a
panic of the convertor does to them: a reader of single records answers with an aborted read, a
reader of pages panics itself (`request_of_panics`).
-/

namespace BulkLoad

/-- The convertor panics on one of these raw records, having converted those before it. -/
def Convertor.PanicsOn (convert : Convertor) (raws : Records) (message : String) : Prop :=
  ∃ before raw after, raws = before ++ raw :: after ∧
    (∀ other ∈ before, ∃ records, convert other = .records records) ∧
    convert raw = .panicked message

/-- Converting raw records panics if the convertor does. -/
theorem Convertor.PanicsOn.convert_all {convert : Convertor} {raws : Records} {message : String}
    (h : convert.PanicsOn raws message) : convert.convertAll raws = .panicked message := by
  obtain ⟨before, raw, after, rfl, hbefore, hraw⟩ := h
  induction before with
  | nil => rw [List.nil_append, convertAll, hraw]
  | cons first before ih =>
      obtain ⟨records, hfirst⟩ := hbefore first List.mem_cons_self
      have hrest := ih fun other hother => hbefore other (List.mem_cons_of_mem _ hother)
      rw [List.cons_append, convertAll, hfirst]
      simp only [hrest]

/-- A reader of batches: one that collects single records, or one of pages and the source that
answers its statements. -/
inductive BatchReader (σ : Type) where
  | stream (r : StreamReader)
  | query (r : QueryReader) (answer : σ → String → Page × σ) (source : σ)

namespace BatchReader

variable {σ : Type}

/-- The convertor of the reader. -/
def convert : BatchReader σ → Convertor
  | stream r => r.convert
  | query r _ _ => r.convert

/-- The answer to a request for a batch, and the reader after it. -/
def request : BatchReader σ → BatchOutcome × BatchReader σ
  | stream r => (r.readBatch.1, stream r.readBatch.2.2)
  | query r answer source =>
      let (page, source) := answer source r.statement
      let (outcome, next) := r.receive page
      (outcome, query next answer source)

/-- The answers to this many requests. -/
def answers (b : BatchReader σ) : Nat → List BatchOutcome
  | 0 => []
  | m + 1 => b.request.1 :: b.request.2.answers m

/-- The reader after this many requests. -/
def after (b : BatchReader σ) : Nat → BatchReader σ
  | 0 => b
  | k + 1 => b.request.2.after k

/-- The raw records that the next request converts, if it comes to that. A reader of pages does not
convert a page without a new key. -/
def raws? : BatchReader σ → Option Records
  | stream r => do
      let upcoming ← r.upcoming
      if StreamReader.largestBatch < r.batch then none
      else
        match (StreamReader.collect r.sourceName {} r.batch upcoming).1 with
        | .full collected => some collected.raw
        | .refused _ | .panicked _ => none
  | query r answer source =>
      match (answer source r.statement).1 with
      | .error _ => none
      | .ok rows => do
          let last ← rows.getLast?
          let mark ← (QueryReader.rawRecord last)[r.table.id.index.toNat]?
          if r.watermark == some mark then none else some (rows.map QueryReader.rawRecord)

/-- The answer to a request in which the convertor panics. -/
def panicAnswer (message : String) : BatchReader σ → BatchOutcome
  | stream _ => .error (.aborted (panicMessage message))
  | query _ _ _ => .panicked message

variable {b : BatchReader σ} {raws : Records} {message : String} {k m : Nat}

/-- The answers of a reader of single records are those to reading as often. -/
theorem answers_stream (r : StreamReader) (m : Nat) :
    (stream r : BatchReader σ).answers m = (r.readMany m).1 := by
  induction m generalizing r with
  | zero => rfl
  | succ m ih => exact congrArg (r.readBatch.1 :: ·) (ih r.readBatch.2.2)

/-- The answers of a reader of pages are those to reading as often. -/
theorem answers_query (r : QueryReader) (answer : σ → String → Page × σ) (source : σ) (m : Nat) :
    (query r answer source).answers m =
      (r.readMany answer source m).1.map QueryReader.Exchange.outcome := by
  induction m generalizing r source with
  | zero => rfl
  | succ m ih => exact congrArg (_ :: ·) (ih _ _)

/-- The answers to several requests are those to some of them and then those to the others. -/
theorem answers_add (b : BatchReader σ) (k m : Nat) :
    b.answers (k + m) = b.answers k ++ (b.after k).answers m := by
  induction k generalizing b with
  | zero => rw [Nat.zero_add]; rfl
  | succ k ih =>
      rw [Nat.add_right_comm, answers, ih]
      rfl

/-- The answers to several requests begin with those to fewer and the next. -/
theorem answers_of_lt (b : BatchReader σ) (hk : k < m) :
    ∃ rest, b.answers m = b.answers k ++ (b.after k).request.1 :: rest := by
  obtain ⟨count, rfl⟩ := Nat.exists_eq_add_of_lt hk
  exact ⟨_, answers_add b k (count + 1)⟩

/-- A reader keeps its kind, and with it the answer to a panic. -/
theorem panic_answer_after (b : BatchReader σ) (k : Nat) (message : String) :
    (b.after k).panicAnswer message = b.panicAnswer message := by
  induction k generalizing b with
  | zero => rfl
  | succ k ih =>
      rw [after, ih]
      cases b <;> rfl

/-- A request in which the convertor panics is answered accordingly. -/
theorem request_of_panics (hraws : b.raws? = some raws) (hpanic : b.convert.PanicsOn raws message) :
    b.request.1 = b.panicAnswer message := by
  cases b with
  | stream r =>
      obtain ⟨upcoming, hupcoming, hraws⟩ := Option.bind_eq_some_iff.mp hraws
      split at hraws
      next => cases hraws
      next hsize =>
        split at hraws
        next collected hcollect =>
          cases hraws
          have hwhole : StreamReader.collect r.sourceName {} r.batch upcoming =
            (.full collected, _, _) := Prod.ext hcollect rfl
          obtain ⟨hanswer, -⟩ :=
            StreamReader.read_collected (Nat.not_lt.mp hsize) hupcoming hwhole
          refine hanswer.trans ?_
          have hconvert : r.convert.convertAll collected.raw = .panicked message :=
            hpanic.convert_all
          simp only [StreamReader.converted, hconvert]
          rfl
        next => cases hraws
        next => cases hraws
  | query r answer source =>
      have hpage : (query r answer source).request.1 =
        (r.receive (answer source r.statement).1).1 := rfl
      rw [hpage]
      simp only [raws?] at hraws
      split at hraws
      next => cases hraws
      next rows hrows =>
        obtain ⟨last, hlast, hraws⟩ := Option.bind_eq_some_iff.mp hraws
        obtain ⟨mark, hmark, hraws⟩ := Option.bind_eq_some_iff.mp hraws
        split at hraws
        next => cases hraws
        next hnew =>
          cases hraws
          have hconvert : r.convert.convertAll (rows.map QueryReader.rawRecord) =
            .panicked message := hpanic.convert_all
          simp only [QueryReader.receive, hrows, hlast, hmark, if_neg hnew, hconvert]
          rfl

/-- No batch comes of a panic. -/
theorem panic_answer_is_batch (b : BatchReader σ) (message : String) :
    (b.panicAnswer message).isBatch = false := by
  cases b <;> rfl

end BatchReader

end BulkLoad
