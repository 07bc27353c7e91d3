import BulkLoad.Proofs.Manager.Batch

/-!
# The books of a run are sound

What holds of the ledger of every run. `Ledger.Sound` says that each batch with records that a job
has read was handed to one task or is held by the job, and that each task has imported a beginning
of its portions and marked what has failed. It is preserved by every ledger step
(`LedgerStep.sound`).
-/

namespace BulkLoad.Manager

namespace Journal

variable (j : Journal)

/-- Entering a read extends the batches that its job has read. -/
theorem batches_read_append (n k : Nat) (batch : Batch) :
    ({ j with reads := j.reads ++ [(n, batch)] } : Journal).batchesRead k =
      j.batchesRead k ++ if n = k ∧ batch.records ≠ [] then [batch] else [] := by
  simp only [batchesRead, List.filter_append, List.map_append]
  congr 1
  by_cases hn : n = k <;> by_cases hrecords : batch.records = [] <;> simp [hn, hrecords]

/-- Entering a submission extends the submissions of its job. -/
theorem submissions_of_append (submission : Submission) (k : Nat) :
    ({ j with submissions := j.submissions ++ [submission] } : Journal).submissionsOf k =
      j.submissionsOf k ++ if submission.job = k then [submission] else [] := by
  simp only [submissionsOf, List.filter_append]
  congr 1
  by_cases hn : submission.job = k <;> simp [hn]

/-- Entering a portion extends the portions of its task. -/
theorem portions_of_enter (task k : Nat) (portion : Portion) (outcome : ImportOutcome) :
    (j.enter task portion outcome).portionsOf k =
      j.portionsOf k ++ if task = k then [portion] else [] := by
  simp only [portionsOf, enter, List.filter_append, List.map_append]
  congr 1
  by_cases hn : task = k <;> simp [hn]

/-- Entering a portion on which its importer failed adds the positions that it covers. -/
theorem has_failed_enter (task k position : Nat) (portion : Portion) (outcome : ImportOutcome) :
    (j.enter task portion outcome).hasFailed k position =
      (j.hasFailed k position ||
        (task == k && Import.isFailed ⟨task, portion, outcome⟩ && portion.covers position)) := by
  simp [hasFailed, enter, List.any_append]

/-- The marks after a portion are those of the journal in which it is entered. -/
theorem marks_after_enter (task length : Nat) (portion : Portion) (outcome : ImportOutcome) :
    marksAfter portion outcome ((List.range length).map (j.hasFailed task)) =
      (List.range length).map ((j.enter task portion outcome).hasFailed task) := by
  have hfailed : Import.isFailed ⟨task, portion, outcome⟩ = outcome.isFailed := by
    cases outcome <;> rfl
  rw [marks_after_range]
  apply List.map_congr_left
  intro position _
  rw [has_failed_enter, hfailed, beq_self_eq_true, Bool.true_and]

/-- Entering a portion accumulates its times. -/
theorem times_enter (task : Nat) (portion : Portion) (outcome : ImportOutcome) :
    (j.enter task portion outcome).times =
      (j.times.1 + (Import.times ⟨task, portion, outcome⟩).1,
        j.times.2 + (Import.times ⟨task, portion, outcome⟩).2) := by
  simp [times, enter]

end Journal

namespace Ledger

/-- The portions in which a batch reaches the importers of its job. -/
def portionsFor (settings : Settings) (w : Work) : List Portion :=
  portions settings.batch w.importers w.batch.records

/-- A task under way: it belongs to a submission, has imported the portions before those that
remain, and has marked what failed in them. -/
structure UnderWay (settings : Settings) (l : Ledger) (k : Nat) (w : Work) : Prop where
  submitted : ⟨w.job, k, w.batch⟩ ∈ l.journal.submissions
  importers : l.importers[w.job]? = some w.importers
  portions : l.journal.portionsOf k ++ w.remaining = portionsFor settings w
  marks : w.marks = (List.range w.batch.records.length).map (l.journal.hasFailed k)

/-- What holds of every ledger, whether something has panicked or not. -/
structure Sound (settings : Settings) (l : Ledger) : Prop where
  handed : ∀ n, l.journal.batchesRead n =
    (l.journal.submissionsOf n).map Submission.batch ++ (l.held n).toList
  distinct : (l.journal.submissions.map Submission.task).Nodup
  numbered : ∀ submission ∈ l.journal.submissions, submission.task < l.nextTask
  accepted : l.journal.rejections = []
  imported : ∀ i ∈ l.journal.imports, ∃ submission ∈ l.journal.submissions,
    submission.task = i.task
  underWay : ∀ k w, l.work k = some w → l.UnderWay settings k w

variable {settings : Settings} {l next : Ledger}

/-- The number of a task that has imported a portion has been given away. -/
theorem Sound.import_lt (h : l.Sound settings) {i : Import} (hi : i ∈ l.journal.imports) :
    i.task < l.nextTask := by
  obtain ⟨submission, hsubmission, htask⟩ := h.imported i hi
  exact htask ▸ h.numbered submission hsubmission

/-- No portion has been imported for a number that has not been given away. -/
theorem Sound.portions_of_fresh (h : l.Sound settings) {k : Nat} (hk : l.nextTask ≤ k) :
    l.journal.portionsOf k = [] := by
  simp only [Journal.portionsOf, List.map_eq_nil_iff, List.filter_eq_nil_iff]
  intro i hi
  have := h.import_lt hi
  simp only [beq_iff_eq]
  omega

/-- No importer has failed for a number that has not been given away. -/
theorem Sound.has_failed_fresh (h : l.Sound settings) {k : Nat} (hk : l.nextTask ≤ k)
    (position : Nat) : l.journal.hasFailed k position = false := by
  simp only [Journal.hasFailed, List.any_eq_false, Bool.and_eq_true, beq_iff_eq, not_and]
  intro i hi htask
  have := h.import_lt hi
  omega

/-- A task under way stays so when other things are entered and other jobs join. -/
theorem UnderWay.mono {k : Nat} {w : Work} (h : l.UnderWay settings k w)
    (hsubmissions : ∀ submission ∈ l.journal.submissions,
      submission ∈ next.journal.submissions)
    (himporters : ∀ (n : Nat) (importers : List Importer), l.importers[n]? = some importers →
      next.importers[n]? = some importers)
    (hportions : next.journal.portionsOf k = l.journal.portionsOf k)
    (hfailed : next.journal.hasFailed k = l.journal.hasFailed k) :
    next.UnderWay settings k w where
  submitted := hsubmissions _ h.submitted
  importers := himporters _ _ h.importers
  portions := hportions ▸ h.portions
  marks := hfailed ▸ h.marks

/-- A task that has begun is under way. -/
theorem Sound.under_way_submitted (h : l.Sound settings) {n : Nat} {importers : List Importer}
    {batch : Batch} (himporters : l.importers[n]? = some importers)
    (hsubmitted : ⟨n, l.nextTask, batch⟩ ∈ next.journal.submissions)
    (hnext : next.importers = l.importers) (hjournal : next.journal.imports = l.journal.imports) :
    next.UnderWay settings l.nextTask (newWork settings n importers batch) where
  submitted := hsubmitted
  importers := hnext ▸ himporters
  portions := by
    have hfresh := h.portions_of_fresh (Nat.le_refl l.nextTask)
    simp only [Journal.portionsOf, hjournal] at hfresh ⊢
    rw [hfresh]
    rfl
  marks := by
    have hfresh : next.journal.hasFailed l.nextTask = fun _ => false := by
      funext position
      rw [← h.has_failed_fresh (Nat.le_refl l.nextTask) position]
      simp only [Journal.hasFailed, hjournal]
    rw [hfresh, List.map_const', List.length_range]
    rfl

/-- A task that has imported a portion is under way with the others. -/
theorem UnderWay.enter {k : Nat} {w : Work} {portion : Portion} {rest : List Portion}
    {outcome : ImportOutcome} (h : l.UnderWay settings k w)
    (hremaining : w.remaining = portion :: rest)
    (hjournal : next.journal = l.journal.enter k portion outcome)
    (himporters : next.importers = l.importers) :
    next.UnderWay settings k
      { w with marks := marksAfter portion outcome w.marks, remaining := rest } where
  submitted := by
    rw [hjournal]
    exact h.submitted
  importers := himporters ▸ h.importers
  portions := by
    have hportions := h.portions
    rw [hremaining] at hportions
    rw [hjournal, Journal.portions_of_enter, if_pos rfl, List.append_assoc]
    exact hportions
  marks := by
    rw [hjournal, ← Journal.marks_after_enter, ← h.marks]

/-- A task under way stays so when another task has imported a portion. -/
theorem UnderWay.enter_other {k other : Nat} {w : Work} (h : l.UnderWay settings k w)
    (portion : Portion) (outcome : ImportOutcome) (hk : k ≠ other)
    (hjournal : next.journal = l.journal.enter other portion outcome)
    (himporters : next.importers = l.importers) : next.UnderWay settings k w := by
  refine h.mono (fun _ h => by rw [hjournal]; exact h) (fun _ _ h => himporters ▸ h) ?_ ?_
  · rw [hjournal, Journal.portions_of_enter, if_neg (Ne.symm hk), List.append_nil]
  · funext position
    rw [hjournal, Journal.has_failed_enter, beq_false_of_ne (Ne.symm hk), Bool.false_and,
      Bool.false_and, Bool.or_false]

/-- The work that is left when a task is over. -/
theorem work_of_update_none {work : Nat → Option Work} {k other : Nat} {w : Work}
    (h : Function.update work other none k = some w) : k ≠ other ∧ work k = some w := by
  by_cases hk : k = other
  · subst hk
    rw [Function.update_self] at h
    cases h
  · exact ⟨hk, by rwa [Function.update_of_ne hk] at h⟩

/-- A portion is entered only for a task that has begun. -/
theorem Sound.imported_enter (h : l.Sound settings) {k : Nat} {w : Work}
    (hwork : l.work k = some w) (portion : Portion) (outcome : ImportOutcome) :
    ∀ i ∈ (l.journal.enter k portion outcome).imports, ∃ submission ∈ l.journal.submissions,
      submission.task = i.task := by
  intro i hi
  rcases List.mem_append.mp hi with hi | hi
  · exact h.imported i hi
  · rw [List.mem_singleton.mp hi]
    exact ⟨_, (h.underWay k w hwork).submitted, rfl⟩

/-- A batch that is handed to a new task keeps the ledger sound. -/
theorem Sound.after_submitted (h : l.Sound settings) {n : Nat} {importers : List Importer}
    {batch : Batch} (himporters : l.importers[n]? = some importers)
    (hheld : l.held n = some batch) :
    ({ l with
        journal := { l.journal with
          submissions := l.journal.submissions ++ [⟨n, l.nextTask, batch⟩] }
        held := Function.update l.held n none
        work := fun k =>
          (l.work k).or (if k = l.nextTask then some (newWork settings n importers batch)
            else none)
        nextTask := l.nextTask + 1 } : Ledger).Sound settings := by
  have hmem {submission : Submission} :
      submission ∈ l.journal.submissions ++ [⟨n, l.nextTask, batch⟩] ↔
        submission ∈ l.journal.submissions ∨ submission = ⟨n, l.nextTask, batch⟩ := by
    simp
  refine ⟨?_, ?_, ?_, h.accepted, ?_, ?_⟩
  · intro k
    have hhanded := h.handed k
    simp only [Journal.batchesRead] at hhanded ⊢
    rw [Journal.submissions_of_append, hhanded]
    by_cases hk : n = k
    · subst hk
      simp [hheld]
    · simp [hk, Ne.symm hk]
  · rw [List.map_append, List.nodup_append]
    refine ⟨h.distinct, by simp, ?_⟩
    intro task htask other hother
    obtain ⟨submission, hsubmission, rfl⟩ := List.mem_map.mp htask
    have := h.numbered submission hsubmission
    simp only [List.map_cons, List.map_nil, List.mem_singleton] at hother
    omega
  · intro submission hsubmission
    rcases hmem.mp hsubmission with hsubmission | rfl
    · exact Nat.lt_succ_of_lt (h.numbered _ hsubmission)
    · exact Nat.lt_succ_self _
  · intro i hi
    obtain ⟨submission, hsubmission, htask⟩ := h.imported i hi
    exact ⟨submission, hmem.mpr (.inl hsubmission), htask⟩
  · intro k w hwork
    rcases Option.or_eq_some_iff.mp hwork with hold | ⟨-, hnew⟩
    · exact (h.underWay k w hold).mono (fun _ h => hmem.mpr (.inl h)) (fun _ _ h => h)
        rfl rfl
    · obtain ⟨rfl, hbegun⟩ := Option.ite_none_right_eq_some.mp hnew
      obtain rfl := Option.some.inj hbegun
      exact h.under_way_submitted himporters (hmem.mpr (.inr rfl)) rfl rfl

end Ledger

section

variable {settings : Settings} {l next : Ledger}

/-- Every ledger step keeps the ledger sound. -/
theorem LedgerStep.sound (h : LedgerStep settings l next) (hsound : l.Sound settings) :
    next.Sound settings := by
  cases h with
  | still => exact hsound
  | joined importers =>
      refine { hsound with underWay := ?_ }
      intro k w hwork
      exact (hsound.underWay k w hwork).mono (fun _ h => h)
        (fun n _ hn => List.getElem?_append_left (List.getElem?_eq_some_iff.mp hn).1 ▸ hn) rfl rfl
  | readNothing n units =>
      refine { hsound with handed := ?_, underWay := ?_ }
      · intro k
        have hhanded := hsound.handed k
        rw [Journal.batches_read_append, hhanded]
        simp [Journal.submissionsOf]
      · intro k w hwork
        exact (hsound.underWay k w hwork).mono (fun _ h => h) (fun _ _ h => h) rfl rfl
  | readBatch n batch hsome hheld =>
      refine { hsound with handed := ?_, underWay := ?_ }
      · intro k
        have hhanded := hsound.handed k
        rw [Journal.batches_read_append, hhanded]
        by_cases hk : n = k
        · subst hk
          simp [hheld, hsome, Journal.submissionsOf]
        · simp [hk, Ne.symm hk, Journal.submissionsOf]
      · intro k w hwork
        exact (hsound.underWay k w hwork).mono (fun _ h => h) (fun _ _ h => h) rfl rfl
  | submitted n importers batch himporters hheld =>
      exact hsound.after_submitted himporters hheld
  | imported k w portion rest outcome hwork hremaining =>
      refine ⟨hsound.handed, hsound.distinct, hsound.numbered, hsound.accepted,
        hsound.imported_enter hwork portion outcome, ?_⟩
      intro k' w' hwork'
      by_cases hk : k' = k
      · subst hk
        simp only [Function.update_self, Option.some.injEq] at hwork'
        subst hwork'
        exact (hsound.underWay k' w hwork).enter hremaining rfl rfl
      · simp only [Function.update_of_ne hk] at hwork'
        exact (hsound.underWay k' w' hwork').enter_other portion outcome hk rfl rfl
  | settled k w hwork hremaining =>
      refine { hsound with underWay := ?_ }
      intro k' w' hwork'
      exact (hsound.underWay k' w' (Ledger.work_of_update_none hwork').2).mono (fun _ h => h)
        (fun _ _ h => h) rfl rfl
  | panicked k w portion rest outcome tally hwork hremaining hpanic =>
      refine ⟨hsound.handed, hsound.distinct, hsound.numbered, hsound.accepted,
        hsound.imported_enter hwork portion outcome, ?_⟩
      intro k' w' hwork'
      obtain ⟨hk, hwork'⟩ := Ledger.work_of_update_none hwork'
      exact (hsound.underWay k' w' hwork').enter_other portion outcome hk rfl rfl

end

/-! ## What the counters are to say -/

namespace Journal

/-- The units of the batches without records. -/
def emptyUnits (j : Journal) : Nat :=
  ((j.reads.filter fun (_, batch) => batch.records.isEmpty).map fun (_, batch) =>
    batch.units).sum

/-- Entering a read adds its units if it has no records. -/
theorem empty_units_append (j : Journal) (n : Nat) (batch : Batch) :
    ({ j with reads := j.reads ++ [(n, batch)] } : Journal).emptyUnits =
      j.emptyUnits + if batch.records = [] then batch.units else 0 := by
  simp only [emptyUnits, List.filter_append, List.map_append, List.sum_append]
  congr 1
  by_cases hrecords : batch.records = [] <;> simp [hrecords]

/-- Whether a journal is calm is decided by the portions that were imported. -/
theorem Calm.same {j other : Journal} (h : other.Calm) (himports : other.imports = j.imports) :
    j.Calm := by
  have htimes : other.times = j.times := by rw [times, times, himports]
  exact ⟨himports ▸ h.unpanicked, htimes ▸ h.latency_le, htimes ▸ h.respTime_le⟩

/-- A journal that is calm after a portion was calm before it. -/
theorem Calm.of_enter {j : Journal} {task : Nat} {portion : Portion} {outcome : ImportOutcome}
    (h : (j.enter task portion outcome).Calm) : j.Calm := by
  have hlatency := h.latency_le
  have hrespTime := h.respTime_le
  rw [times_enter] at hlatency hrespTime
  exact ⟨fun i hi => h.unpanicked i (List.mem_append_left _ hi),
    Nat.le_trans (Nat.le_add_right _ _) hlatency, Nat.le_trans (Nat.le_add_right _ _) hrespTime⟩

/-- Entering a portion of one task leaves the failures of another. -/
theorem failures_enter (j : Journal) (submission : Submission) (k : Nat) (portion : Portion)
    (outcome : ImportOutcome) (hk : submission.task ≠ k) :
    (j.enter k portion outcome).failures submission = j.failures submission := by
  have hfailed : (j.enter k portion outcome).hasFailed submission.task =
      j.hasFailed submission.task := by
    funext position
    rw [has_failed_enter, beq_false_of_ne (Ne.symm hk), Bool.false_and, Bool.false_and,
      Bool.or_false]
  simp only [failures, hfailed]

end Journal

namespace Ledger

/-- The submissions whose tasks are over. -/
def finished (l : Ledger) : List Submission :=
  l.journal.submissions.filter fun submission => (l.work submission.task).isNone

variable {settings : Settings} {l : Ledger}

/-- A submission that is finished is not under way. -/
theorem mem_finished {submission : Submission} :
    submission ∈ l.finished ↔
      submission ∈ l.journal.submissions ∧ l.work submission.task = none := by
  simp [finished]

/-- A task under way has a mark for each record. -/
theorem UnderWay.length_marks {k : Nat} {w : Work} (h : l.UnderWay settings k w) :
    w.marks.length = w.batch.records.length := by
  simp [h.marks]

/-- A task under way has marked the records on which an importer has failed. -/
theorem UnderWay.count_marks {k : Nat} {w : Work} (h : l.UnderWay settings k w) :
    w.marks.count true = l.journal.failures ⟨w.job, k, w.batch⟩ := by
  rw [h.marks, List.count, List.countP_map]
  exact List.countP_congr fun position _ => by simp

end Ledger

end BulkLoad.Manager
