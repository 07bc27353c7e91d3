import BulkLoad.Manager.State
import Mathlib.Algebra.GroupWithZero.Nat
import Mathlib.Logic.Function.Basic

/-!
# The records of a run

The history of a run says which batches were read, which task each of them was handed to, and which
portions the tasks have imported. A `Journal` holds just these entries, in the order in which they
were made, and what can be asked of them: the records that were read, the portions in which a batch
reached the importers, and the positions at which an importer failed. A `Ledger` adds what is under
way.
-/

namespace BulkLoad

/-- Whether a sub-batch holds the record at a position of the batch. -/
def Portion.covers (p : Portion) (position : Nat) : Bool :=
  p.offset ≤ position && position < p.offset + p.records.length

namespace Manager

/-- A batch that a job has handed to a task. -/
structure Submission where
  job : Nat
  task : Nat
  batch : Batch
deriving DecidableEq

/-- A portion that a task has handed to its importer, and what came of it. -/
structure Import where
  task : Nat
  portion : Portion
  outcome : ImportOutcome

/-- The batches that jobs have read, those without records included, the batches that were handed to
tasks, the batches that were rejected, and the portions that were imported, each in order. -/
structure Journal where
  reads : List (Nat × Batch)
  submissions : List Submission
  rejections : List (Nat × Batch)
  imports : List Import

/-- The batch that an event reports as read. -/
def Event.read? : Event → Option (Nat × Batch)
  | .read job (.batch units records) => some (job, ⟨units, records⟩)
  | _ => none

/-- The batch that an event reports as handed to a task. -/
def Event.submission? : Event → Option Submission
  | .submitted job task batch => some ⟨job, task, batch⟩
  | _ => none

/-- The batch that an event reports as rejected. -/
def Event.rejection? : Event → Option (Nat × Batch)
  | .rejected job batch => some (job, batch)
  | _ => none

/-- The portion that an event reports as imported. -/
def Event.import? : Event → Option Import
  | .imported task portion outcome => some ⟨task, portion, outcome⟩
  | _ => none

namespace Import

/-- Whether the importer failed on the portion. -/
def isFailed (i : Import) : Bool :=
  match i.outcome with
  | .failed _ => true
  | .imported _ | .panicked _ => false

/-- The times of the statement that imported the portion, in nanoseconds. A statement that carried
no records was not sent and has none. -/
def times (i : Import) : Nat × Nat :=
  match i.outcome with
  | .imported result =>
      if 0 < result.records then (result.latency.totalNanos, result.respTime.totalNanos)
      else (0, 0)
  | .failed _ | .panicked _ => (0, 0)

end Import

namespace Journal

/-- The entries of a history, which has its latest event first. -/
def of (history : List Event) : Journal where
  reads := (history.filterMap Event.read?).reverse
  submissions := (history.filterMap Event.submission?).reverse
  rejections := (history.filterMap Event.rejection?).reverse
  imports := (history.filterMap Event.import?).reverse

/-- The number of records in all batches that were read. -/
def recordsRead (j : Journal) : Nat := (j.reads.map fun (_, batch) => batch.records.length).sum

/-- The units of the sources in all batches that were read. -/
def unitsRead (j : Journal) : Nat := (j.reads.map fun (_, batch) => batch.units).sum

/-- The batches with records that a job has read, in order. -/
def batchesRead (j : Journal) (job : Nat) : List Batch :=
  (j.reads.filter fun (n, batch) => n == job && !batch.records.isEmpty).map Prod.snd

/-- The submissions of a job, in order. -/
def submissionsOf (j : Journal) (job : Nat) : List Submission :=
  j.submissions.filter fun submission => submission.job == job

/-- The portions that a task has handed to its importers, in order. -/
def portionsOf (j : Journal) (task : Nat) : List Portion :=
  (j.imports.filter fun i => i.task == task).map Import.portion

/-- Whether an importer has failed on the record at a position of the batch of a task. -/
def hasFailed (j : Journal) (task position : Nat) : Bool :=
  j.imports.any fun i => i.task == task && i.isFailed && i.portion.covers position

/-- The number of records of a batch on which an importer has failed. -/
def failures (j : Journal) (submission : Submission) : Nat :=
  (List.range submission.batch.records.length).countP (j.hasFailed submission.task)

/-- The number of records on which an importer has failed. -/
def failedRecords (j : Journal) : Nat := (j.submissions.map j.failures).sum

/-- The accumulated times of the server and until the answers arrived, in nanoseconds. -/
def times (j : Journal) : Nat × Nat :=
  ((j.imports.map fun i => i.times.1).sum, (j.imports.map fun i => i.times.2).sum)

/-- No importer has panicked, and the accumulated times fit, which would otherwise be a panic as
well. -/
structure Calm (j : Journal) : Prop where
  unpanicked : ∀ i ∈ j.imports, i.outcome.panic? = none
  latency_le : j.times.1 ≤ Duration.longest.totalNanos
  respTime_le : j.times.2 ≤ Duration.longest.totalNanos

instance (j : Journal) : Decidable j.Calm :=
  decidable_of_iff
    ((∀ i ∈ j.imports, i.outcome.panic? = none) ∧ j.times.1 ≤ Duration.longest.totalNanos ∧
      j.times.2 ≤ Duration.longest.totalNanos)
    ⟨fun ⟨hunpanicked, hlatency, hrespTime⟩ => ⟨hunpanicked, hlatency, hrespTime⟩,
      fun ⟨hunpanicked, hlatency, hrespTime⟩ => ⟨hunpanicked, hlatency, hrespTime⟩⟩

/-- Reports leave no entries. -/
@[simp] theorem of_report (lines : List LogLine) (history : List Event) :
    of (lines.map .logged ++ history) = of history := by
  induction lines with
  | nil => rfl
  | cons line lines ih => exact ih

/-- Hooks leave no entries. -/
@[simp] theorem of_hooks (phase : HookPhase) (events : List HookEvent) (history : List Event) :
    of ((events.map (Event.hook phase)).reverse ++ history) = of history := by
  have hnone {β : Type} (f : Event → Option β) (hf : ∀ event, f (.hook phase event) = none) :
      ((events.map (Event.hook phase)).reverse ++ history).filterMap f = history.filterMap f := by
    rw [List.filterMap_append, List.append_left_eq_self]
    simp [hf]
  simp only [of, hnone Event.read? (fun _ => rfl), hnone Event.submission? (fun _ => rfl),
    hnone Event.rejection? (fun _ => rfl), hnone Event.import? (fun _ => rfl)]

/-- A batch that is read is entered. -/
@[simp] theorem of_read (n units : Nat) (records : Records) (history : List Event) :
    of (.read n (.batch units records) :: history) =
      { of history with reads := (of history).reads ++ [(n, ⟨units, records⟩)] } := by
  simp [of, List.filterMap_cons, Event.read?, Event.submission?, Event.rejection?, Event.import?]

/-- A batch that is handed to a task is entered. -/
@[simp] theorem of_submitted (n task : Nat) (batch : Batch) (history : List Event) :
    of (.submitted n task batch :: history) =
      { of history with submissions := (of history).submissions ++ [⟨n, task, batch⟩] } := by
  simp [of, List.filterMap_cons, Event.read?, Event.submission?, Event.rejection?, Event.import?]

/-- A portion that is imported is entered. -/
@[simp] theorem of_imported (task : Nat) (portion : Portion) (outcome : ImportOutcome)
    (history : List Event) :
    of (.imported task portion outcome :: history) =
      { of history with imports := (of history).imports ++ [⟨task, portion, outcome⟩] } := by
  simp [of, List.filterMap_cons, Event.read?, Event.submission?, Event.rejection?, Event.import?]

end Journal

end Manager

end BulkLoad
