import BulkLoad.InMemory.Table
import BulkLoad.Proofs.Manager.Failure
import BulkLoad.Proofs.Manager.Fates
import BulkLoad.Proofs.Manager.Sources
import BulkLoad.Proofs.Reader.Panics

/-!
# What a panicking convertor does to a job

With either reader a panic of the convertor ends the job, its units are given back, and the batches
before it stay accounted for. But only a reader of single records turns the panic into an error,
with which the job closes its source. The panic of a reader of pages takes the job with it, and
nobody closes the source (`panic_of_reachable`, `unclosed_after_panic`).
-/

namespace BulkLoad.Manager

/-- How a panic of the convertor ends the job of a reader. -/
def panicEnd {σ : Type} (graph sourceName message : String) : BatchReader σ → JobEnd
  | .stream _ => .finished (.error (.readBatch graph sourceName (.aborted (panicMessage message))))
  | .query _ _ _ => .panicked message

/-- What has happened to the source of a reader after a panic of the convertor. -/
def panicSource {σ : Type} : BatchReader σ → List SourceEvent
  | .stream _ => [.opening, .opened, .closing]
  | .query _ _ _ => [.opening, .opened]

section

variable {σ : Type} {settings : Settings} {s : State} {n k m : Nat} {j : Job} {b : BatchReader σ}
  {raws : Records} {message graph sourceName : String}

/-- The answer to a panic ends the job. -/
theorem verdict_of_panic (graph sourceName message : String) (b : BatchReader σ) :
    verdictOf graph sourceName (b.panicAnswer message) =
      some (panicEnd graph sourceName message b) := by
  cases b <;> rfl

/-- A job that has ended in a panic of its convertor has done to its source what the reader says. -/
theorem source_of_panic (hpoint : j.point = .ended (panicEnd graph sourceName message b)) :
    j.source = panicSource b := by
  cases b <;> rw [Job.source, hpoint] <;> rfl

/-- Once a call that stops the run has returned, a job that has been judged by an answer has ended
with it. -/
theorem ended_of_verdict (h : Reachable settings s) (hreturned : s.stopReturned = true)
    (hj : s.jobs[n]? = some j) {result : JobEnd} (hverdict : j.point.verdict? = some result) :
    j.point = .ended result := by
  have hregistered : j.point.isRegistered = true := by
    cases hpoint : j.point with
    | closing | ended => rfl
    | begun | opening | sizing | dismissing | absent | spawned | queued | gated | readying | reading
    | submitting =>
        rw [hpoint] at hverdict
        cases hverdict
  obtain ⟨other, hpoint⟩ := ended_of_returned h hreturned hj hregistered
  rw [hpoint] at hverdict ⊢
  exact congrArg JobPoint.ended (Option.some.inj hverdict)

/-- What a panic of the convertor does to a job with either reader, once a call that stops the run
has returned. The request in which it happens is the last, and the job has ended; a reader of single
records has had its source closed, a reader of pages has not. Nobody holds a unit of an importer any
more. The batches before the panic have been handed to tasks, in order, and have been settled,
unless an importer has panicked in one or the accumulated times do not fit; and the counters account
for all batches that have been settled. -/
theorem panic_of_reachable (h : Reachable settings s) (hj : s.jobs[n]? = some j)
    (hanswers : answersTo s.history n = b.answers m) (hk : k < m)
    (hraws : (b.after k).raws? = some raws) (hpanic : (b.after k).convert.PanicsOn raws message)
    (hreturned : s.stopReturned = true) :
    answersTo s.history n = b.answers k ++ [b.panicAnswer message] ∧
      j.point = .ended (panicEnd settings.graphName j.sourceName message b) ∧
      sourceOf s.history n = panicSource b ∧
      (∀ name, s.units.count name = 0) ∧
      (Journal.of s.history).batchesSubmitted n =
        (b.answers k).filterMap BatchOutcome.filled? ∧
      (∀ submission ∈ (Journal.of s.history).submissionsOf n,
        (∀ i ∈ (Journal.of s.history).importsOf submission.task, i.outcome.panic? = none) →
        (Journal.of s.history).times.1 ≤ Duration.longest.totalNanos →
        (Journal.of s.history).times.2 ≤ Duration.longest.totalNanos →
        submission ∈ settledIn s.history) ∧
      s.Accounted := by
  have hjudged := judged_of_reachable h n
  rw [hj] at hjudged
  dsimp only at hjudged
  have hanswer := (BatchReader.request_of_panics hraws hpanic).trans
    (b.panic_answer_after k message)
  have hlast : answersTo s.history n = b.answers k ++ [b.panicAnswer message] := by
    obtain ⟨rest, hrest⟩ := b.answers_of_lt hk
    rw [hanswer] at hrest
    rw [hanswers, hrest] at hjudged ⊢
    rw [StreamReader.last_of_not_batch (hjudged.batches_later (List.cons_ne_nil _ _))
      (b.panic_answer_is_batch message)]
  rw [hlast] at hjudged
  have hpoint : j.point = .ended (panicEnd settings.graphName j.sourceName message b) :=
    ended_of_verdict h hreturned hj
      ((hjudged.last (b.panic_answer_is_batch message)).trans (verdict_of_panic _ _ _ b))
  refine ⟨hlast, hpoint, ?_, count_of_returned h hreturned, ?_, ?_, accounted_of_reachable h⟩
  · rw [source_of_reachable h n, hj]
    exact source_of_panic hpoint
  · have hhanded := handed_of_reachable h n
    obtain ⟨hheld, -⟩ := ledger_of_stopped h hreturned
    have hnone : (b.panicAnswer message).filled? = none := by cases b <;> rfl
    rw [hlast, hheld n, Option.toList_none, List.append_nil, List.filterMap_append,
      List.filterMap_cons_none hnone, List.filterMap_nil, List.append_nil] at hhanded
    exact hhanded.symm
  · intro submission hsubmission hcalm hlatency hrespTime
    have hmem := (List.mem_filter.mp hsubmission).1
    obtain ⟨_, -, hfate⟩ := fate_of_stopped h hreturned hmem
    exact mem_settled_in.mpr ⟨hmem, (hfate.settled_of_calm hcalm hlatency hrespTime).1⟩

end

/-! ## A source that is left open -/

namespace Unclosed

/-- A convertor that passes every record on but one. -/
def convert : Convertor := fun raw =>
  if raw.head? = some "boom" then .panicked "convertor boom" else .records [raw]

/-- A reader of pages of one row, of which the second cannot be converted. -/
def reader : BatchReader InMemory.Table :=
  .query (.of InMemory.Table.sourceName InMemory.Table.table convert 1) InMemory.Table.query
    { rows := [[some "a"], [some "boom"]] }

/-- The source is imported, and the run is stopped after its job has ended. -/
def labels : List Label := [
  .import "player" [{ name := "single", build := fun _ => .statement "CREATE" 1 }],
  .answer (.job 0) .go, .answer (.job 0) (.source (.ok ())), .answer (.job 0) (.size (.ok 2)),
  .call .start, .answer (.caller 0) .go, .answer .starter .go, .answer .starter (.client (.ok ())),
  .answer (.job 0) .go, .answer (.job 0) .go, .answer (.job 0) .go, .answer (.job 0) .ready,
  .answer (.job 0) (.batch (.batch 1 [["a"]])), .answer (.job 0) .go, .answer (.task 0) .go,
  .answer (.task 0) Sample.executed, .answer (.task 0) .go,
  .answer (.job 0) (.batch (.panicked "convertor boom")), .call .stop, .answer (.caller 1) .go,
  .answer .stopper .go, .answer .stopper .go, .answer .stopper .go, .answer .stopper .go,
  .answer .stopper .go, .answer .stopper (.client (.ok ())), .answer (.caller 1) .go]

/-- The state at the end. -/
def final : State :=
  (run Sample.settings (.initial Sample.settings) labels).getD (.initial Sample.settings)

end Unclosed

/-- A source may be left open for good: its job gets the answers of a reader of pages whose
convertor panics, and when the run has been stopped the source has been opened, but not closed. -/
theorem unclosed_after_panic :
    Reachable Sample.settings Unclosed.final ∧ Unclosed.final.stopReturned = true ∧
      answersTo Unclosed.final.history 0 = Unclosed.reader.answers 2 ∧
      (Unclosed.reader.after 1).raws? = some [["boom"]] ∧
      Unclosed.convert ["boom"] = .panicked "convertor boom" ∧
      sourceOf Unclosed.final.history 0 = [.opening, .opened] := by
  refine ⟨reachable_run _ _, ?_⟩
  decide +kernel

/-- The job of the source that is left open has handed over the page before the panic, and has given
back its units. -/
theorem panic_of_unclosed :
    sourceOf Unclosed.final.history 0 = [.opening, .opened] ∧
      Unclosed.final.units.count "single" = 0 ∧
      (Journal.of Unclosed.final.history).batchesSubmitted 0 = [⟨1, [["a"]]⟩] ∧
      ⟨0, 0, ⟨1, [["a"]]⟩⟩ ∈ settledIn Unclosed.final.history := by
  obtain ⟨j, hj⟩ : ∃ j, Unclosed.final.jobs[0]? = some j :=
    Option.isSome_iff_exists.mp (by decide +kernel)
  have hanswers : answersTo Unclosed.final.history 0 = Unclosed.reader.answers 2 := by
    decide +kernel
  have hraws : (Unclosed.reader.after 1).raws? = some [["boom"]] := by decide +kernel
  have hpanic : (Unclosed.reader.after 1).convert.PanicsOn [["boom"]] "convertor boom" :=
    ⟨[], ["boom"], [], rfl, nofun, by decide +kernel⟩
  obtain ⟨-, -, hsource, hunits, hbatches, hsettled, -⟩ :=
    panic_of_reachable (reachable_run Sample.settings Unclosed.labels) hj hanswers (by decide)
      hraws hpanic (by decide +kernel)
  refine ⟨hsource, hunits "single", hbatches.trans (by decide +kernel), ?_⟩
  exact hsettled _ (by decide +kernel) (by decide +kernel) (by decide +kernel) (by decide +kernel)

end BulkLoad.Manager
