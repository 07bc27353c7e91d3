import BulkLoad.Proofs.Manager.Accounting

/-!
# Every batch is delivered

No batch is ever rejected. Once a call that stops the run has returned and nothing has panicked, the
batches with records that a job has read are those of its tasks, in order, and each task has handed
its batch to every importer of the job, in consecutive portions that make it up.
-/

namespace BulkLoad.Manager

/-- The batches that were handed to the tasks of a job. -/
def Journal.batchesSubmitted (j : Journal) (job : Nat) : List Batch :=
  (j.submissionsOf job).map Submission.batch

section

variable {settings : Settings} {s : State}

/-- Once every task is over, each has delivered its batch to the importers of its job. -/
theorem Ledger.Balanced.delivered {l : Ledger} (hbalanced : l.Balanced settings)
    (hfinished : l.finished = l.journal.submissions) {n : Nat} {importers : List Importer}
    (himporters : l.importers[n]? = some importers) :
    ∀ submission ∈ l.journal.submissionsOf n,
      Delivered importers submission.batch.records (l.journal.portionsOf submission.task) := by
  intro submission hsubmission
  obtain ⟨hmem, hjob⟩ := List.mem_filter.mp hsubmission
  obtain ⟨others, hothers, hportions⟩ := hbalanced.through submission (hfinished ▸ hmem)
  rw [beq_iff_eq.mp hjob, himporters] at hothers
  obtain rfl := Option.some.inj hothers
  rw [hportions]
  exact delivered_portions settings.batch importers submission.batch.records

/-- In no run is a batch rejected. Once a call that stops the run has returned and nothing has
panicked, the batches with records that a job has read are those handed to its tasks, in the same
order and each to a task of its own, and each task has delivered its batch to the importers of the
job. -/
theorem delivered_of_reachable (h : Reachable settings s) :
    (Journal.of s.history).rejections = [] ∧
      ((Journal.of s.history).Calm → s.stopReturned = true →
        ((Journal.of s.history).submissions.map Submission.task).Nodup ∧
        ∀ (n : Nat) (j : Job), s.jobs[n]? = some j →
          (Journal.of s.history).batchesSubmitted n = (Journal.of s.history).batchesRead n ∧
          ∀ submission ∈ (Journal.of s.history).submissionsOf n,
            Delivered j.importers submission.batch.records
              ((Journal.of s.history).portionsOf submission.task)) := by
  have hsound := sound_of_reachable h
  refine ⟨hsound.accepted, ?_⟩
  intro hcalm hreturned
  refine ⟨hsound.distinct, ?_⟩
  intro n j hj
  obtain ⟨hheld, hfinished⟩ := ledger_of_stopped h hreturned
  constructor
  · have hhanded := hsound.handed n
    rw [hheld n, Option.toList_none, List.append_nil] at hhanded
    exact hhanded.symm
  · have himporters : s.ledger.importers[n]? = some j.importers := by simp [State.ledger, hj]
    exact (balanced_of_reachable h hcalm).delivered hfinished himporters

end

/-- The batch of the sample, for which its job found a worker after the stop, was delivered. -/
theorem delivered_of_sample :
    (Journal.of Sample.final.history).batchesRead 0 = [⟨4, [["1"], ["2"]]⟩] ∧
      ∃ j, Sample.final.jobs[0]? = some j ∧ j.importers.map Importer.name = ["pairs", "singles"] ∧
        Delivered j.importers [["1"], ["2"]] ((Journal.of Sample.final.history).portionsOf 0) := by
  obtain ⟨-, hdelivered⟩ := delivered_of_reachable Sample.reachable_final
  obtain ⟨-, hjobs⟩ := hdelivered (by decide +kernel) (by decide +kernel)
  obtain ⟨j, hj, hnames⟩ : ∃ j, Sample.final.jobs[0]? = some j ∧
      j.importers.map Importer.name = ["pairs", "singles"] := by
    refine Option.map_eq_some_iff.mp (?_ : (Sample.final.jobs[0]?.map fun j =>
      j.importers.map Importer.name) = some ["pairs", "singles"])
    decide +kernel
  obtain ⟨hbatches, hportions⟩ := hjobs 0 j hj
  refine ⟨hbatches ▸ ?_, j, hj, hnames, hportions ⟨0, 0, 4, [["1"], ["2"]]⟩ ?_⟩ <;> decide +kernel

end BulkLoad.Manager
