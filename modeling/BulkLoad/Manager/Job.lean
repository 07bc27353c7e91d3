import BulkLoad.Answer
import BulkLoad.Manager.State

/-!
# Importing a source

A source is opened and sized when it is imported. Its job is handed to the readers and asks for a
worker when it goes on. It waits for the worker, for the start of the run and for its importers, and
reads batches until the source is exhausted, a read fails, or the run is stopped. Each batch that
holds records is handed to a task of its own.
-/

namespace BulkLoad.Manager.State

/-- The report of a source that could not be closed. -/
def closeLine (graph sourceName : String) (error : SourceError) : LogLine :=
  .warning "Failed to close source"
    [("graph", graph), ("source", sourceName), ("error", error.message)]

/-- Report a failure to close a source. -/
def reportClose (s : State) (graph sourceName : String) : Except SourceError Unit → State
  | .ok () => s
  | .error error => s.log (closeLine graph sourceName error)

/-- Answer the call that imports a source without leaving a job. -/
def declineImport (s : State) (job : Nat) (result : Result) : State :=
  s.modifyJob job fun j => { j with point := .absent, answer := some result }

/-- Close the source of an import that has failed. -/
def dismiss (s : State) (job : Nat) (error : ManagerError) : State :=
  (s.moveJob job (.dismissing error)).record (.sourceClosing job)

/-- Begin to import a source. There is nothing to do without importers. -/
def beginImport (s : State) (graph : String) (job : Nat) (j : Job) : State :=
  if j.importers.isEmpty then s.declineImport job (.ok ())
  else if s.cancelled || s.readers.closed then s.declineImport job (.error (.stopped graph))
  else (s.moveJob job .opening).record (.sourceOpening job)

/-- Announce the size of a source and take a unit of each of its importers. -/
def announce (s : State) (importers : List Importer) (size : Nat) : State :=
  { s with stats := s.stats.addTotal size, units := s.units.acquire importers }

/-- Hand the job of a source to the readers, which leaves them like this. -/
def handOver (s : State) (job : Nat) (readers : WorkerPool) : State :=
  { s with readers }.modifyJob job (fun j => { j with point := .spawned, answer := some (.ok ()) })
    |>.record (.registered job)

/-- Keep a job for stopping to take up. -/
def keepJob (s : State) (job : Nat) : State := { s with uncollected := s.uncollected ++ [job] }

/-- The readers do not take the job of a source: give back its units and close the source. -/
def turnAway (s : State) (graph : String) (job : Nat) (sourceName : String)
    (importers : List Importer) (error : PoolClosed) : State :=
  { s with units := s.units.release importers }
    |>.log (.failure "Failed to submit job"
        [("graph", graph), ("source", sourceName), ("error", error.message)])
    |>.dismiss job (.submit graph sourceName error)

/-- Announce the size of a source and register its job, which takes a unit of each importer. If the
readers are closed the units are given back, but the size stays announced. -/
def register (s : State) (graph : String) (job : Nat) (j : Job) (size : Nat) : State :=
  let s := s.announce j.importers size
  match s.readers.spawn with
  | .ok readers => (s.handOver job readers).keepJob job
  | .error error => s.turnAway graph job j.sourceName j.importers error

/-- The read loop of a job ends: it gives back its units and closes its source. -/
def endReading (s : State) (job : Nat) (j : Job) (result : Result) : State :=
  { s with units := s.units.release j.importers }
    |>.moveJob job (.closing result)
    |>.record (.sourceClosing job)

/-- Ask for the next batch, unless the run is being stopped. -/
def readOn (s : State) (job : Nat) (j : Job) : State :=
  if s.cancelled then s.endReading job j (.ok ())
  else (s.moveJob job .reading).record (.reading job)

/-- Wait until these importers are ready, and then read. -/
def awaitImporters (s : State) (job : Nat) (j : Job) : List Importer → State
  | [] => s.readOn job j
  | importer :: rest => s.moveJob job (.readying importer rest)

/-- A panic of its reader ends a job without closing its source. -/
def loseJob (s : State) (job : Nat) (j : Job) (message : String) : State :=
  { s with units := s.units.release j.importers, readers := s.readers.finish j.worker }
    |>.moveJob job (.ended (.panicked message))

/-- Take the answer to a request for a batch. A batch without records is only counted. -/
def receive (s : State) (graph : String) (job : Nat) (j : Job) (outcome : BatchOutcome) : State :=
  let s := s.record (.read job outcome)
  match outcome with
  | .batch units [] => { s with stats := s.stats.succeeded units 0 }.readOn job j
  | .batch units records =>
      { s with units := s.units.acquire j.importers, importers := s.importers.enqueue job }
        |>.moveJob job (.submitting ⟨units, records⟩)
  | .error .eof => s.endReading job j (.ok ())
  | .error error => s.endReading job j (.error (.readBatch graph j.sourceName error))
  | .panicked message => s.loseJob job j message

/-- Hand a batch to a task, which keeps the units taken for it, and read on. -/
def submit (s : State) (settings : Settings) (job : Nat) (j : Job) (batch : Batch) : State :=
  let task : Task := {
    job, importers := j.importers, batch
    marks := List.replicate batch.records.length false
    point := .turning (portions settings.batch j.importers batch.records) }
  { s with
    importers := (s.importers.grant job).accept
    tasks := s.tasks ++ [(s.nextTask, task)]
    nextTask := s.nextTask + 1 }
    |>.record (.submitted job s.nextTask batch)
    |>.readOn job j

/-- The importers are closed: count the records of a batch as failed and read on. -/
def reject (s : State) (graph : String) (job : Nat) (j : Job) (batch : Batch) : State :=
  { s with
    importers := s.importers.refuse job
    units := s.units.release j.importers
    stats := s.stats.failed batch.units batch.records.length }
    |>.log (.failure "Batch rejected"
        [("graph", graph), ("records", toString batch.records.length),
          ("error", PoolClosed.message ⟨s.importers.name⟩)])
    |>.record (.rejected job batch)
    |>.readOn job j

/-- The source of a job has been closed, and the job is over. -/
def endJob (s : State) (graph : String) (job : Nat) (j : Job) (result : Result)
    (closed : Except SourceError Unit) : State :=
  let s := s.reportClose graph j.sourceName closed
  let s :=
    match result with
    | .ok () => s
    | .error error =>
        s.log (.failure "Job aborted"
          [("graph", graph), ("source", j.sourceName), ("error", error.message)])
  { s with readers := s.readers.finish j.worker }.moveJob job (.ended (.finished result))

/-- What an answer to a job leads to. -/
def stepJob (s : State) (settings : Settings) (job : Nat) (answer : Answer) : Option State :=
  let graph := settings.graphName
  match s.jobs[job]? with
  | none => none
  | some j =>
      match j.point, answer with
      | .begun, .go => some (s.beginImport graph job j)
      | .opening, .source (.ok ()) => some ((s.record (.sourceOpened job)).moveJob job .sizing)
      | .opening, .source (.error error) =>
          some (s.declineImport job (.error (.openSource graph j.sourceName error)))
      | .sizing, .size (.ok size) => some (s.register graph job j size)
      | .sizing, .size (.error error) =>
          some (s.dismiss job (.sourceSize graph j.sourceName error))
      | .dismissing error, .source closed =>
          some ((s.reportClose graph j.sourceName closed).declineImport job (.error error))
      | .spawned, .go =>
          some ({ s with readers := s.readers.enqueue job }.moveJob job .queued)
      | .queued, .go =>
          if s.readers.mayProceed job then
            some
              ({ s with readers := s.readers.grant job }.modifyJob job fun j =>
                { j with point := .gated, worker := !s.readers.closed })
          else none
      | .gated, .go =>
          if s.started.released then some (s.awaitImporters job j j.importers) else none
      | .gated, .cancelled | .readying _ _, .cancelled =>
          if s.cancelled then some (s.endReading job j (.ok ())) else none
      | .readying _ rest, .ready => some (s.awaitImporters job j rest)
      | .reading, .batch outcome => some (s.receive graph job j outcome)
      | .submitting batch, .go =>
          if s.importers.mayProceed job then
            if s.importers.closed then some (s.reject graph job j batch)
            else some (s.submit settings job j batch)
          else none
      | .closing result, .source closed => some (s.endJob graph job j result closed)
      | _, _ => none

end BulkLoad.Manager.State
