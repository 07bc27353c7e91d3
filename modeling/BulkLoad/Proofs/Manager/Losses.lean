import BulkLoad.Proofs.Manager.Accounting

/-!
# What a panicking importer loses

A panic of an importer ends the task of the batch. The portions that came before it have been
imported, those that come after it reach no importer, neither the one that panicked nor another, and
no counter accounts for the batch (`losses_of_stopped`). Batches in which no importer panics are not
affected. So a batch may be lost as a whole, although only one of its importers fails
(`batch_lost`).
-/

namespace BulkLoad.Manager

section

variable {settings : Settings} {s : State} {submission : Submission}

/-- A batch in which an importer has panicked was lost with the portion in which it did. -/
theorem Ledger.Fate.lost_of_panic {l : Ledger} {settled : List Nat} {importers : List Importer}
    (h : l.Fate settings settled submission importers) {i : Import}
    (hi : i ∈ l.journal.importsOf submission.task) (hpanic : i.outcome.panic? ≠ none) :
    submission.task ∉ settled ∧ ∃ before after,
      portions settings.batch importers submission.batch.records =
        before ++ i.portion :: after ∧
      l.journal.portionsOf submission.task = before ++ [i.portion] := by
  cases h with
  | settled _ _ hcalm => exact absurd (hcalm i hi) hpanic
  | lost earlier last after hlost himports hportions hcalm _ =>
      have hlast : i = last := by
        rw [himports] at hi
        rcases List.mem_append.mp hi with hearlier | hlast
        · exact absurd (hcalm i hearlier) hpanic
        · exact List.mem_singleton.mp hlast
      subst hlast
      refine ⟨hlost, earlier.map Import.portion, after, hportions, ?_⟩
      have hmap := congrArg (List.map Import.portion) himports
      rwa [List.map_append] at hmap

/-- What is lost when importers panic, once a call that stops the run has returned. The counters are
the sums over the batches that have been settled. A batch in whose import an importer has panicked
is not one of them, and the portion in which it did is the last that was imported; those after it
have reached no importer. A batch in which none has panicked has been settled, and been delivered to
all importers, if the accumulated times fit. -/
theorem losses_of_stopped (h : Reachable settings s) (hreturned : s.stopReturned = true) :
    s.Accounted ∧
    ∀ submission ∈ (Journal.of s.history).submissions,
      ∃ j, s.jobs[submission.job]? = some j ∧
        (∀ i ∈ (Journal.of s.history).importsOf submission.task, i.outcome.panic? ≠ none →
          submission ∉ settledIn s.history ∧ ∃ before after,
            portions settings.batch j.importers submission.batch.records =
              before ++ i.portion :: after ∧
            (Journal.of s.history).portionsOf submission.task = before ++ [i.portion]) ∧
        ((∀ i ∈ (Journal.of s.history).importsOf submission.task, i.outcome.panic? = none) →
          (Journal.of s.history).times.1 ≤ Duration.longest.totalNanos →
          (Journal.of s.history).times.2 ≤ Duration.longest.totalNanos →
          submission ∈ settledIn s.history ∧
            Delivered j.importers submission.batch.records
              ((Journal.of s.history).portionsOf submission.task)) := by
  refine ⟨accounted_of_reachable h, ?_⟩
  intro submission hsubmission
  obtain ⟨j, hj, hfate⟩ := fate_of_stopped h hreturned hsubmission
  refine ⟨j, hj, ?_, ?_⟩
  · intro i hi hpanic
    obtain ⟨hlost, hportions⟩ := hfate.lost_of_panic hi hpanic
    exact ⟨fun hsettled => hlost (mem_settled_in.mp hsettled).2, hportions⟩
  · intro hcalm hlatency hrespTime
    obtain ⟨hsettled, hportions⟩ := hfate.settled_of_calm hcalm hlatency hrespTime
    refine ⟨mem_settled_in.mpr ⟨hsubmission, hsettled⟩, ?_⟩
    rw [show (Journal.of s.history).portionsOf submission.task = _ from hportions]
    exact delivered_portions settings.batch j.importers submission.batch.records

end

/-! ## A batch that is lost -/

namespace Lost

/-- Two importers, of which the first cannot build a statement from any group of records. -/
def importers : List Importer := [
  { name := "broken", batchSize := some 1, build := fun _ => .panicked "builder boom" },
  { name := "sound", build := fun records => .statement "CREATE" records.length }]

/-- A source with one batch of two records is imported, and the run is stopped after it. -/
def labels : List Label := [
  .import "people" importers, .answer (.job 0) .go, .answer (.job 0) (.source (.ok ())),
  .answer (.job 0) (.size (.ok 8)), .call .start, .answer (.caller 0) .go, .answer .starter .go,
  .answer .starter (.client (.ok ())), .answer (.job 0) .go, .answer (.job 0) .go,
  .answer (.job 0) .go, .answer (.job 0) .ready, .answer (.job 0) .ready,
  .answer (.job 0) (.batch (.batch 8 [["1"], ["2"]])), .answer (.job 0) .go, .answer (.task 0) .go,
  .answer (.job 0) (.batch (.error .eof)), .answer (.job 0) (.source (.ok ())), .call .stop,
  .answer (.caller 1) .go, .answer .stopper .go, .answer .stopper .go, .answer .stopper .go,
  .answer .stopper .go, .answer .stopper .go, .answer .stopper (.client (.ok ())),
  .answer (.caller 1) .go]

/-- The state at the end. -/
def final : State :=
  (run Sample.settings (.initial Sample.settings) labels).getD (.initial Sample.settings)

end Lost

/-- A batch may be lost as a whole because one importer panics: two records have been read, the
second importer has got none of them, and no counter knows of them. -/
theorem batch_lost :
    Reachable Sample.settings Lost.final ∧ Lost.final.stopReturned = true ∧
      (Journal.of Lost.final.history).recordsRead = 2 ∧
      (Journal.of Lost.final.history).unitsRead = 8 ∧
      ((Journal.of Lost.final.history).portionsOf 0).map
        (fun portion => (portion.importer.name, portion.records)) = [("broken", [["1"]])] ∧
      Lost.final.stats.totalRecords = 0 ∧ Lost.final.stats.failedRecords = 0 ∧
      Lost.final.stats.processed = 0 := by
  refine ⟨reachable_run _ _, ?_⟩
  decide +kernel

/-- The lost batch was not settled, and the portion in which the importer panicked was the last. -/
theorem losses_of_lost :
    ∃ i ∈ (Journal.of Lost.final.history).importsOf 0,
      i.outcome.panic? = some "builder boom" ∧
        ⟨0, 0, ⟨8, [["1"], ["2"]]⟩⟩ ∉ settledIn Lost.final.history ∧
        ∃ before, (Journal.of Lost.final.history).portionsOf 0 = before ++ [i.portion] := by
  have hreturned : Lost.final.stopReturned = true := by decide +kernel
  obtain ⟨i, hi, hpanic⟩ := List.any_eq_true.mp (by decide +kernel :
    ((Journal.of Lost.final.history).importsOf 0).any
      (fun i => i.outcome.panic? == some "builder boom") = true)
  obtain ⟨-, hfates⟩ := losses_of_stopped (reachable_run Sample.settings Lost.labels) hreturned
  obtain ⟨j, -, hlost, -⟩ := hfates ⟨0, 0, ⟨8, [["1"], ["2"]]⟩⟩ (by decide +kernel)
  have hpanic := beq_iff_eq.mp hpanic
  obtain ⟨hunsettled, before, -, -, hportions⟩ := hlost i hi (by rw [hpanic]; nofun)
  exact ⟨i, hi, hpanic, hunsettled, before, hportions⟩

end BulkLoad.Manager
