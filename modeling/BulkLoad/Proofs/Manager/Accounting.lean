import BulkLoad.Proofs.Manager.Fates
import BulkLoad.Proofs.Portions
import BulkLoad.Proofs.Steps

/-!
# The counters account for every record

As long as nothing panics every batch whose task is over has been settled, and so the ledger is
balanced (`balanced_of_reachable`). Once a call that stops the run has returned, no batch waits and
no task is under way: every batch with records belongs to a task that is over, and the counters are
sums over all that was read (`stats_of_stopped`).
-/

namespace BulkLoad.Manager

/-! ## Without panics -/

namespace Ledger

/-- What holds of every ledger as long as nothing has panicked. -/
structure Balanced (settings : Settings) (l : Ledger) : Prop where
  through : ∀ submission ∈ l.finished, ∃ importers,
    l.importers[submission.job]? = some importers ∧
      l.journal.portionsOf submission.task =
        portions settings.batch importers submission.batch.records
  processed : l.tally.processed = .ofNat
    ((l.finished.map fun submission => submission.batch.units).sum + l.journal.emptyUnits)
  totalRecords : l.tally.totalRecords = .ofNat
    (l.finished.map fun submission => submission.batch.records.length).sum
  failedRecords : l.tally.failedRecords = .ofNat (l.finished.map l.journal.failures).sum
  times : (l.tally.latency, l.tally.respTime) = l.journal.times

section

variable {settings : Settings} {l : Ledger} {settled : List Nat}

/-- As long as nothing has panicked a task is over only when it has settled its batch, with all
portions handed to the importers of its job. -/
theorem Accounts.through_of_calm (h : l.Accounts settings settled) (hcalm : l.journal.Calm)
    {submission : Submission} (hsubmission : submission ∈ l.finished) :
    ∃ importers, l.importers[submission.job]? = some importers ∧
      submission.task ∈ settled ∧ l.journal.portionsOf submission.task =
        portions settings.batch importers submission.batch.records := by
  obtain ⟨hmem, hover⟩ := mem_finished.mp hsubmission
  obtain ⟨importers, himporters, hfate⟩ := h.fates submission hmem hover
  exact ⟨importers, himporters, hfate.settled_of_calm
    (fun i hi => hcalm.unpanicked i (List.mem_filter.mp hi).1) hcalm.latency_le
    hcalm.respTime_le⟩

/-- As long as nothing has panicked every batch whose task is over has been settled. -/
theorem Accounts.settled_eq_finished (h : l.Accounts settings settled) (hcalm : l.journal.Calm) :
    l.journal.settledBatches settled = l.finished := by
  apply List.filter_congr
  intro submission hsubmission
  rw [Bool.eq_iff_iff, List.contains_iff_mem, Option.isNone_iff_eq_none]
  constructor
  · exact fun hsettled => (h.finished _ hsettled).2
  · intro hover
    obtain ⟨-, -, hsettled, -⟩ := h.through_of_calm hcalm (mem_finished.mpr ⟨hsubmission, hover⟩)
    exact hsettled

/-- As long as nothing has panicked the counters are sums over the batches whose tasks are over. -/
theorem Accounts.balanced (h : l.Accounts settings settled) (hcalm : l.journal.Calm) :
    l.Balanced settings := by
  have hbatches := h.settled_eq_finished hcalm
  refine ⟨?_, hbatches ▸ h.processed, hbatches ▸ h.totalRecords, hbatches ▸ h.failedRecords,
    h.times hcalm⟩
  intro submission hsubmission
  obtain ⟨importers, himporters, -, hportions⟩ := h.through_of_calm hcalm hsubmission
  exact ⟨importers, himporters, hportions⟩

end

end Ledger

section

variable {settings : Settings} {s next : State}

/-! ## Along a run -/

/-- The ledger of every reachable state is balanced if nothing has panicked. -/
theorem balanced_of_reachable (h : Reachable settings s) (hcalm : (Journal.of s.history).Calm) :
    s.ledger.Balanced settings := (accounts_of_reachable h).balanced hcalm

/-- Several steps lead from a reachable state to a reachable state. -/
theorem reachable_of_run {labels : List Label} (h : Reachable settings s)
    (hrun : run settings s labels = some next) : Reachable settings next :=
  Steps.keeps (fun _ hs hstep => hs.step _ hstep) h hrun

/-- The state after a run from the initial state is reachable, as is the initial state, in which a
run that is not possible is taken to end. -/
theorem reachable_run (settings : Settings) (labels : List Label) :
    Reachable settings
      ((run settings (.initial settings) labels).getD (.initial settings)) := by
  cases hrun : run settings (.initial settings) labels with
  | none => exact .initial
  | some s => exact reachable_of_run .initial hrun

/-! ## After the run -/

/-- Lists of entries with keys hold the same entries if they agree key by key. -/
theorem perm_of_keys {α : Type} [DecidableEq α] {entries others : List (Nat × α)}
    (h : ∀ n, (entries.filter fun (key, _) => key == n).map Prod.snd =
      (others.filter fun (key, _) => key == n).map Prod.snd) : entries.Perm others := by
  have hcount (entries : List (Nat × α)) (n : Nat) (a : α) :
      entries.count (n, a) =
        ((entries.filter fun (key, _) => key == n).map Prod.snd).count a := by
    rw [List.count, List.count, List.countP_map, List.countP_filter]
    apply List.countP_congr
    intro (key, b) _
    simp [and_comm]
  -- How often an entry occurs can be counted among the entries with its key.
  rw [List.perm_iff_count]
  intro (n, a)
  rw [hcount, hcount, h]

/-- A sum over the batches that were read is one over those with records and one over the others. -/
theorem Journal.sum_reads (j : Journal) (f : Nat × Batch → Nat) :
    (j.reads.map f).sum =
      ((j.reads.filter fun (_, batch) => !batch.records.isEmpty).map f).sum +
        ((j.reads.filter fun (_, batch) => batch.records.isEmpty).map f).sum := by
  have hperm := List.filter_append_perm (fun (_, batch) => !batch.records.isEmpty) j.reads
  rw [← (hperm.map f).sum_nat, List.map_append, List.sum_append]
  simp only [Bool.not_not]

/-- The batches with records that were read are those that were handed to tasks and those that jobs
hold, in any list that names for each job the batch that it holds. -/
theorem Ledger.Sound.perm_reads {l : Ledger} (h : l.Sound settings) (waiting : List (Nat × Batch))
    (hwaiting : ∀ n, (waiting.filter fun (key, _) => key == n).map Prod.snd = (l.held n).toList) :
    (l.journal.reads.filter fun (_, batch) => !batch.records.isEmpty).Perm
      ((l.journal.submissions.map fun submission => (submission.job, submission.batch)) ++
        waiting) := by
  apply perm_of_keys
  intro n
  have hhanded := h.handed n
  rw [List.filter_append, List.map_append, hwaiting]
  simpa [Journal.batchesRead, Journal.submissionsOf, List.filter_filter, List.filter_map,
    Function.comp_def] using hhanded

/-- If no job holds a batch, the batches with records that were read are those of the tasks. -/
theorem Ledger.Sound.perm_submissions {l : Ledger} (h : l.Sound settings)
    (hheld : ∀ n, l.held n = none) :
    (l.journal.reads.filter fun (_, batch) => !batch.records.isEmpty).Perm
      (l.journal.submissions.map fun submission => (submission.job, submission.batch)) := by
  have hperm := h.perm_reads [] fun n => by rw [hheld n]; rfl
  rwa [List.append_nil] at hperm

/-- Once every task is over, each portion that was imported is a part of the batch of its task. -/
theorem Ledger.Balanced.part_of {l : Ledger} (hbalanced : l.Balanced settings)
    (hsound : l.Sound settings) (hfinished : l.finished = l.journal.submissions) {i : Import}
    (hi : i ∈ l.journal.imports) :
    ∃ submission ∈ l.journal.submissions, submission.task = i.task ∧
      i.portion.IsPartOf submission.batch.records := by
  obtain ⟨submission, hsubmission, htask⟩ := hsound.imported i hi
  obtain ⟨importers, -, hportions⟩ := hbalanced.through submission (hfinished ▸ hsubmission)
  have hmem : i.portion ∈ portions settings.batch importers submission.batch.records := by
    rw [← hportions, htask]
    exact List.mem_map_of_mem (List.mem_filter.mpr ⟨hi, beq_self_eq_true _⟩)
  exact ⟨submission, hsubmission, htask, part_of_portions hmem⟩

/-- Once a call that stops the run has returned and nothing has panicked, the counters account for
all records and units of the batches that were read, and the failed records are those at a position
of a batch on which some importer has failed: as words, and as numbers where these fit. The
positions are those of the records, since every portion that was imported is the part of its batch
that lies at its offset. -/
theorem stats_of_stopped (h : Reachable settings s) (hcalm : (Journal.of s.history).Calm)
    (hreturned : s.stopReturned = true) :
    s.stats.totalRecords = .ofNat (Journal.of s.history).recordsRead ∧
      s.stats.processed = .ofNat (Journal.of s.history).unitsRead ∧
      s.stats.failedRecords = .ofNat (Journal.of s.history).failedRecords ∧
      ((Journal.of s.history).recordsRead < 18446744073709551616 →
        s.stats.totalRecords.toNat = (Journal.of s.history).recordsRead) ∧
      ((Journal.of s.history).unitsRead < 18446744073709551616 →
        s.stats.processed.toNat = (Journal.of s.history).unitsRead) ∧
      ((Journal.of s.history).failedRecords < 18446744073709551616 →
        s.stats.failedRecords.toNat = (Journal.of s.history).failedRecords) ∧
      ∀ i ∈ (Journal.of s.history).imports, ∃ submission ∈ (Journal.of s.history).submissions,
        submission.task = i.task ∧ i.portion.IsPartOf submission.batch.records := by
  obtain ⟨hheld, hfinished⟩ := ledger_of_stopped h hreturned
  have hbalanced := balanced_of_reachable h hcalm
  have hperm := (sound_of_reachable h).perm_submissions hheld
  have hsum (f : Batch → Nat) :
      ((s.ledger.journal.reads.filter fun (_, batch) => !batch.records.isEmpty).map
        fun (_, batch) => f batch).sum =
        (s.ledger.journal.submissions.map fun submission => f submission.batch).sum := by
    rw [(hperm.map fun (_, batch) => f batch).sum_nat, List.map_map]
    rfl
  have hrecords : s.stats.totalRecords = .ofNat s.ledger.journal.recordsRead := by
    -- Batches without records go to no task, and add none to the records that were read.
    have hempty : ((s.ledger.journal.reads.filter fun (_, batch) => batch.records.isEmpty).map
        fun (_, batch) => batch.records.length).sum = 0 := by
      apply List.sum_eq_zero_iff_forall_eq_nat.mpr
      intro length hlength
      obtain ⟨⟨n, batch⟩, hbatch, rfl⟩ := List.mem_map.mp hlength
      simpa using (List.mem_filter.mp hbatch).2
    rw [Journal.recordsRead, Journal.sum_reads, hempty, Nat.add_zero,
      hsum fun batch => batch.records.length, ← hfinished]
    exact hbalanced.totalRecords
  have hunits : s.stats.processed = .ofNat s.ledger.journal.unitsRead := by
    rw [Journal.unitsRead, Journal.sum_reads, hsum fun batch => batch.units, ← hfinished]
    exact hbalanced.processed
  have hfailed : s.stats.failedRecords = .ofNat s.ledger.journal.failedRecords := by
    rw [Journal.failedRecords, ← hfinished]
    exact hbalanced.failedRecords
  exact ⟨hrecords, hunits, hfailed, fun hfits => hrecords ▸ UInt64.toNat_ofNat_of_lt' hfits,
    fun hfits => hunits ▸ UInt64.toNat_ofNat_of_lt' hfits,
    fun hfits => hfailed ▸ UInt64.toNat_ofNat_of_lt' hfits,
    fun i hi => hbalanced.part_of (sound_of_reachable h) hfinished hi⟩

end

/-! ## A run -/

namespace Sample

/-- Batches go to the importers in portions of two records unless an importer says otherwise. -/
def settings : Settings := { batch := 2, statsInterval := none }

/-- Two importers cut a batch in different places, and the second fails on one of its portions. -/
def importers : List Importer := [
  { name := "pairs", build := fun records => .statement "CREATE" records.length },
  { name := "singles", batchSize := some 1,
    build := fun records =>
      if records = [["2"]] then .failed (.other "even") else .statement "MERGE" records.length }]

/-- The server executes a statement. -/
def executed : Answer := .reply (.ok (.success (.ofNanos 5) (.ofNanos 7)))

/-- A source is imported, and the run is stopped while its job waits for a worker that takes its
only batch. -/
def labels : List Label := [
  .import "people" importers, .answer (.job 0) .go, .answer (.job 0) (.source (.ok ())),
  .answer (.job 0) (.size (.ok 8)), .call .start, .answer (.caller 0) .go,
  .answer .starter .go, .answer .starter (.client (.ok ())), .answer (.job 0) .go,
  .answer (.job 0) .go, .answer (.job 0) .go, .answer (.job 0) .ready, .answer (.job 0) .ready,
  .answer (.job 0) (.batch (.batch 4 [["1"], ["2"]])), .call .stop, .answer (.caller 1) .go,
  .answer .stopper .go, .answer (.job 0) .go, .answer (.task 0) .go, .answer (.task 0) executed,
  .answer (.task 0) .go, .answer (.job 0) (.source (.ok ())), .answer .stopper .go,
  .answer (.task 0) executed, .answer (.task 0) .go, .answer (.task 0) .go,
  .answer .stopper .go, .answer .stopper .go, .answer .stopper .go,
  .answer .stopper (.client (.ok ())), .answer (.caller 1) .go]

/-- The state at the end. -/
def final : State := (run settings (.initial settings) labels).getD (.initial settings)

/-- The state at the end is reachable. -/
theorem reachable_final : Reachable settings final := reachable_run settings labels

end Sample

/-- Both records of the sample are counted, and one of them as failed. -/
theorem stats_of_sample :
    (Journal.of Sample.final.history).Calm ∧ Sample.final.stopReturned = true ∧
      Sample.final.stats.totalRecords = 2 ∧ Sample.final.stats.processed.toNat = 4 ∧
      Sample.final.stats.failedRecords = 1 := by
  have hcalm : (Journal.of Sample.final.history).Calm := by decide +kernel
  have hreturned : Sample.final.stopReturned = true := by decide +kernel
  obtain ⟨hrecords, -, hfailed, -, hunits, -⟩ :=
    stats_of_stopped Sample.reachable_final hcalm hreturned
  refine ⟨hcalm, hreturned, hrecords.trans ?_, (hunits ?_).trans ?_, hfailed.trans ?_⟩ <;>
    decide +kernel

end BulkLoad.Manager
