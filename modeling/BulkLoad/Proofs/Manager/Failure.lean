import BulkLoad.Proofs.Csv.Failure
import BulkLoad.Proofs.Manager.Delivery
import BulkLoad.Proofs.Manager.Reading

/-!
# What a failure to read does to a job

A job whose source fails ends with that failure if nothing was consumed in the request for a batch
in which it happens. Otherwise what was consumed is delivered and the job reads on; if its record
reader answers with nothing but the end from then on, as one of delimited text does, the job ends as
if the source were exhausted.
-/

namespace BulkLoad

/-- The batch of an answer, if it has records. -/
def BatchOutcome.filled? : BatchOutcome → Option Manager.Batch
  | .batch units records => if records.isEmpty then none else some ⟨units, records⟩
  | .error _ | .panicked _ => none

namespace Manager

open StreamReader

section

variable {settings : Settings} {s : State} {n k m : Nat} {j : Job} {r stream : StreamReader}
  {full : List Collected} {last : Collected} {before after : List RecordOutcome}
  {error : ReadError} {cancelled : Bool} {graph : String}
  {earlier later answers : List BatchOutcome} {answer : BatchOutcome}

/-- The batches with records that a job has read are those among its answers. -/
theorem batches_of_answers (history : List Event) (n : Nat) :
    (Journal.of history).batchesRead n = (answersTo history n).filterMap BatchOutcome.filled? := by
  rw [Journal.batchesRead, Journal.of, answersTo, List.filterMap_reverse, List.filter_reverse,
    List.map_reverse]
  congr 1
  induction history with
  | nil => rfl
  | cons event history ih =>
      cases event with
      | read job outcome =>
          cases outcome with
          | batch units records =>
              by_cases hjob : job = n <;> by_cases hempty : records = [] <;>
                simp [Event.read?, Event.answer?, BatchOutcome.filled?, hjob, hempty, ih]
          | error | panicked =>
              by_cases hjob : job = n <;>
                simp [List.filterMap_cons, Event.read?, Event.answer?, BatchOutcome.filled?, hjob,
                  ih]
      | _ => exact ih

/-- Every batch with records among the answers to a job has been handed to a task, in order, except
the one that the job is handing over. -/
theorem handed_of_reachable (h : Reachable settings s) (n : Nat) :
    (answersTo s.history n).filterMap BatchOutcome.filled? =
      (Journal.of s.history).batchesSubmitted n ++ (s.ledger.held n).toList := by
  rw [← batches_of_answers]
  exact (sound_of_reachable h).handed n

/-- What becomes of a job after an answer with what was consumed before a failure. If that could not
be converted the job ends with the error. If it was a batch the job reads on with what the record
reader answers after the failure, unless the run is being stopped; and if that is nothing but the
end, the job ends as if the source were exhausted. -/
structure ReadsOn (graph : String) (cancelled : Bool) (j : Job) (r : StreamReader)
    (after : List RecordOutcome) (answer : BatchOutcome) (later : List BatchOutcome) : Prop where
  unconverted : ∀ error, answer = .error error → later = [] ∧
    j.point.verdict? = some (.finished (.error (.readBatch graph j.sourceName error)))
  reads : answer.isBatch = true →
    later = ({ r with upcoming := some after }.readMany later.length).1
  goesOn : answer.isBatch = true → later = [] → j.point.verdict? = none ∨
    j.point.verdict? = some (.finished (.ok ())) ∧ cancelled = true
  exhausted : answer.isBatch = true → (∀ outcome ∈ after, outcome = .error .eof) → later ≠ [] →
    later = [.error .eof] ∧ j.point.verdict? = some (.finished (.ok ()))

/-- The answers to a job from some request on are batches, too, except the last. -/
theorem Judged.batches_later (h : Judged graph cancelled j (earlier ++ later))
    (hsome : later ≠ []) : ∀ answer ∈ later.dropLast, answer.isBatch = true := by
  intro answer hanswer
  apply h.batches
  rw [List.dropLast_append_of_ne_nil hsome]
  exact List.mem_append_right _ hanswer

/-- A job that has been told the end gets no more answers and ends without an error. -/
theorem Judged.exhausted (h : Judged graph cancelled j (earlier ++ .error .eof :: later)) :
    later = [] ∧ j.point.verdict? = some (.finished (.ok ())) := by
  obtain rfl := last_of_not_batch (h.batches_later (List.cons_ne_nil _ _)) rfl
  exact ⟨rfl, h.last rfl⟩

/-- A job that has got what was consumed before a failure reads on with what comes after it. -/
theorem Judged.reads_on (hsize : r.batch ≤ largestBatch) (hpos : 0 < r.batch)
    (h : Judged graph cancelled j (earlier ++ converted r.convert last :: later))
    (hlater : later = if (converted r.convert last).isBatch then
      ({ r with upcoming := some after }.readMany k).1 else []) :
    ReadsOn graph cancelled j r after (converted r.convert last) later := by
  have hreads (hbatch : (converted r.convert last).isBatch = true) :
      later = ({ r with upcoming := some after }.readMany later.length).1 := by
    rw [if_pos hbatch] at hlater
    rw [hlater, length_read_many]
  refine ⟨?_, hreads, ?_, ?_⟩
  · intro error herror
    rcases converted_cases r.convert last with hbatch | ⟨failure, hfailure, heof⟩
    · rw [herror] at hbatch
      cases hbatch
    · obtain rfl : error = failure := BatchOutcome.error.inj (herror.symm.trans hfailure)
      rw [herror] at h hlater
      obtain rfl : later = [] := hlater
      exact ⟨rfl, (h.last rfl).trans (verdict_of_error heof)⟩
  · intro hbatch hnone
    rw [hnone] at h
    exact h.goes_on hbatch
  · intro hbatch hafter hsome
    cases hcases : later with
    | nil => exact absurd hcases hsome
    | cons answer rest =>
        have hanswer : answer = .error .eof := by
          have hfirst := hreads hbatch
          rw [hcases, List.length_cons, read_many_succ] at hfirst
          rw [(List.cons.inj hfirst).1]
          exact read_end hsize hpos rfl hafter
        rw [hcases, hanswer, List.append_cons] at h
        obtain ⟨rfl, hverdict⟩ := h.exhausted
        exact ⟨by rw [hanswer], hverdict⟩

/-- What a failure does to a job whose reader collects batches of any size from any record reader.
After `k` answers the record reader is going to give or skip some records and then to fail, neither
with a skipped record nor with the end, and the job has asked for enough batches to get there. The
records before the failure make up full batches and the last collection, and every batch that has
records is handed to a task. If the last collection is empty, the failure is the last answer and the
job ends with it. Otherwise the failure is only logged and the collection is the next answer, after
which the job reads on. A batch that is too large ends the job before any record is read. After the
failure of a source of delimited text there is nothing but the end. -/
theorem failure_of_reachable {sourceName : String} {convert : Convertor} {batch : Nat}
    {outcomes : List RecordOutcome} (h : Reachable settings s) (hj : s.jobs[n]? = some j)
    (hstream : stream = .of sourceName convert batch outcomes)
    (hanswers : answersTo s.history n = (stream.readMany m).1)
    (hr : r = (stream.readMany k).2.2)
    (hupcoming : r.upcoming = some (before ++ .error error :: after))
    (hbefore : ∀ outcome ∈ before, outcome.goesOn = true) (hskip : error.isSkip = false)
    (heof : error.isEof = false) (hgather : gather r.batch {} before = (full, last))
    (hm : k + full.length < m) :
    (full.map Collected.raw).flatten ++ last.raw = before.filterMap RecordOutcome.record? ∧
    (answersTo s.history n).filterMap BatchOutcome.filled? =
      (Journal.of s.history).batchesSubmitted n ++ (s.ledger.held n).toList ∧
    (largestBatch < r.batch →
      answersTo s.history n =
        (stream.readMany k).1 ++ [.error (.aborted (panicMessage "capacity overflow"))]) ∧
    (r.batch ≤ largestBatch → last.isEmpty = true →
      answersTo s.history n =
        (stream.readMany k).1 ++ full.map (converted convert) ++ [.error error] ∧
      j.point.verdict? =
        some (.finished (.error (.readBatch settings.graphName j.sourceName error)))) ∧
    (r.batch ≤ largestBatch → last.isEmpty = false →
      partialLine sourceName error last.latest.length ∈ (stream.readMany m).2.1 ∧
      ∃ later : List BatchOutcome,
        answersTo s.history n =
          (stream.readMany k).1 ++ full.map (converted convert) ++
            converted convert last :: later ∧
        ReadsOn settings.graphName s.cancelled j r after (converted convert last) later) ∧
    (∀ (config : CsvConfig) (pieces : List (List UInt8)) (message : String) (input : List Serving),
      (∀ piece ∈ pieces, piece ≠ []) →
      outcomes = (Csv.RecordReader.of sourceName config
        (pieces.map .bytes ++ .fault message :: input)).outcomes →
      error = .failed sourceName message ∧ after = [.error .eof]) := by
  have hfollows := hr ▸ follows_read_many stream k
  have hconvert : r.convert = convert := by rw [hfollows.convert, hstream]; rfl
  have hname : r.sourceName = sourceName := by rw [hfollows.sourceName, hstream]; rfl
  have hpos : 0 < r.batch := by
    rw [hfollows.batch, hstream]
    exact batch_of_pos sourceName convert batch outcomes
  have hjudged := judged_of_reachable h n
  rw [hj, hanswers] at hjudged
  dsimp only at hjudged
  -- From the request on in which the failure may happen the answers are those of `r`.
  have hrest : stream.readMany m =
      ((stream.readMany k).1 ++ (r.readMany (m - k)).1,
        (stream.readMany k).2.1 ++ (r.readMany (m - k)).2.1, (r.readMany (m - k)).2.2) := by
    rw [hr, ← read_many_add, Nat.add_sub_of_le (by omega)]
  have hfull : full.length < m - k := by omega
  rw [hrest] at hjudged
  have hbatches := hjudged.batches_later (List.ne_nil_of_length_pos (by
    rw [length_read_many]
    omega))
  rw [hanswers, hrest]
  refine ⟨?_, ?_, ?_, ?_, ?_, ?_⟩
  · have hraw := raw_gather r.batch {} before
    rwa [hgather] at hraw
  · rw [← handed_of_reachable h n, hanswers, hrest]
  · intro hlarge
    obtain ⟨count, hcount⟩ := Nat.exists_eq_add_one.mpr (Nat.zero_lt_of_lt hfull)
    rw [hcount, read_many_succ, read_too_large hlarge hupcoming] at hbatches ⊢
    rw [last_of_not_batch hbatches rfl]
  · intro hsize hempty
    obtain ⟨hrefused, -⟩ :=
      read_many_failure hsize hpos hbefore hskip heof hupcoming hgather hfull hbatches
    rw [hrefused hempty, ← List.append_assoc] at hjudged ⊢
    rw [hconvert]
    exact ⟨rfl, (hjudged.last rfl).trans (verdict_of_error heof)⟩
  · intro hsize hsome
    obtain ⟨-, hpartial⟩ :=
      read_many_failure hsize hpos hbefore hskip heof hupcoming hgather hfull hbatches
    obtain ⟨hlog, later, hlater, hcases⟩ := hpartial hsome
    rw [hlater, ← List.append_assoc] at hjudged ⊢
    rw [← hconvert, ← hname]
    exact ⟨List.mem_append_right _ hlog, later, rfl, hjudged.reads_on hsize hpos hcases⟩
  · intro config pieces message input hpieces houtcomes
    obtain ⟨upcoming, hwhole, hsuffix⟩ := hfollows.upcoming _ hupcoming
    rw [hstream] at hwhole
    obtain rfl : outcomes = upcoming := Option.some.inj hwhole
    rw [houtcomes] at hsuffix
    exact Csv.RecordReader.failure_of_fault hpieces hskip heof hsuffix

end

/-! ## A truncated source that looks complete -/

namespace Truncated

/-- A record reader that fails once between two records. -/
def script : List RecordOutcome := [
  .record 2 ["a"], .error (.failed "people" "disk gone"), .record 2 ["b"]]

/-- A source is imported whose job reads until it is told the end, while no one stops the run. -/
def labels : List Label := [
  .import "people" [{ name := "single", build := fun _ => .statement "CREATE" 1 }],
  .answer (.job 0) .go, .answer (.job 0) (.source (.ok ())), .answer (.job 0) (.size (.ok 6)),
  .call .start, .answer (.caller 0) .go, .answer .starter .go, .answer .starter (.client (.ok ())),
  .answer (.job 0) .go, .answer (.job 0) .go, .answer (.job 0) .go, .answer (.job 0) .ready,
  .answer (.job 0) (.batch (.batch 2 [["a"]])), .answer (.job 0) .go,
  .answer (.job 0) (.batch (.batch 2 [["b"]])), .answer (.job 0) .go,
  .answer (.job 0) (.batch (.error .eof)), .answer (.job 0) (.source (.ok ()))]

/-- The state at the end. -/
def final : State :=
  (run Sample.settings (.initial Sample.settings) labels).getD (.initial Sample.settings)

end Truncated

/-- A failure need not be fatal: the job gets the answers of a reader whose record reader fails, no
one stops the run, and yet it reads the record after the failure and ends without an error. -/
theorem ended_after_failure :
    Reachable Sample.settings Truncated.final ∧ Truncated.final.cancelled = false ∧
      answersTo Truncated.final.history 0 =
        ((StreamReader.of "people" .identity 10 Truncated.script).readMany 3).1 ∧
      (Journal.of Truncated.final.history).batchesRead 0 = [⟨2, [["a"]]⟩, ⟨2, [["b"]]⟩] ∧
      ∃ j, Truncated.final.jobs[0]? = some j ∧
        j.point.verdict? = some (.finished (.ok ())) := by
  refine ⟨reachable_run _ _, by decide +kernel, by decide +kernel, by decide +kernel, ?_⟩
  exact Option.map_eq_some_iff.mp (rfl : (Truncated.final.jobs[0]?.map fun j =>
    j.point.verdict?) = some (some (.finished (.ok ()))))

/-- The job of the truncated source reads on after the batch that the failure has cut short. -/
theorem failure_of_truncated :
    partialLine "people" (.failed "people" "disk gone") 1 ∈
        ((StreamReader.of "people" .identity 10 Truncated.script).readMany 3).2.1 ∧
      ∃ (j : Job) (later : List BatchOutcome), Truncated.final.jobs[0]? = some j ∧
        answersTo Truncated.final.history 0 = .batch 2 [["a"]] :: later ∧
        ReadsOn "" false j (.of "people" .identity 10 Truncated.script) [.record 2 ["b"]]
          (.batch 2 [["a"]]) later := by
  obtain ⟨j, hj⟩ : ∃ j, Truncated.final.jobs[0]? = some j :=
    Option.isSome_iff_exists.mp (by decide +kernel)
  have hanswers : answersTo Truncated.final.history 0 =
      ((StreamReader.of "people" .identity 10 Truncated.script).readMany 3).1 := by decide +kernel
  have hbefore : ∀ outcome ∈ [RecordOutcome.record 2 ["a"]], outcome.goesOn = true := by decide
  have hgather : gather 10 {} [.record 2 ["a"]] = ([], ⟨2, [["a"]]⟩) := rfl
  obtain ⟨-, -, -, -, hpartial, -⟩ :=
    failure_of_reachable (k := 0) (r := .of "people" .identity 10 Truncated.script)
      (reachable_run Sample.settings Truncated.labels) hj rfl hanswers rfl rfl hbefore rfl rfl
      hgather (by decide)
  obtain ⟨hlog, later, hlater, hreads⟩ := hpartial (by decide) rfl
  exact ⟨hlog, j, later, hj, hlater, hreads⟩

end Manager

end BulkLoad
