import BulkLoad.Gate
import BulkLoad.Manager.Event
import BulkLoad.Manager.Units
import BulkLoad.Settings
import BulkLoad.WorkerPool

/-!
# The state of a run

A run consists of jobs, each of which reads one source, of tasks, each of which hands one batch to
the importers of its job, and of calls of its users. Each of them stands at a point where it waits
for something. The bodies of starting and stopping run once however often they are called for; they
stand in cells of their own.
-/

namespace BulkLoad.Manager

/-- What a call of a user is answered. -/
abbrev Result := Except ManagerError Unit

/-- How a job ended. -/
inductive JobEnd where
  | finished (result : Result)
  | panicked (message : String)

/-- Where a job stands. Until it is `spawned` it belongs to the call that imports its source.

- `begun`: nothing has happened yet
- `opening`, `sizing`: the source is being opened, or asked for its size
- `dismissing`: the source is being closed because the import has failed
- `absent`: there is no job, and the call has been answered
- `spawned`: the job has been handed to the readers and has not gone on yet
- `queued`: it waits for a worker
- `gated`: it waits for the start of the run
- `readying`: it waits for the first of some importers to be ready
- `reading`: it waits for a batch
- `submitting`: it waits for a worker that takes its batch
- `closing`: the source is being closed
- `ended`: the job is over -/
inductive JobPoint where
  | begun
  | opening
  | sizing
  | dismissing (error : ManagerError)
  | absent
  | spawned
  | queued
  | gated
  | readying (importer : Importer) (rest : List Importer)
  | reading
  | submitting (batch : Batch)
  | closing (result : Result)
  | ended (result : JobEnd)

/-- A job, the answer to the call that imports its source, and whether the job has a worker. -/
structure Job where
  sourceName : String
  importers : List Importer
  point : JobPoint := .begun
  answer : Option Result := none
  worker : Bool := false

/-- A statement on its way: the portion it carries, the records that count as sent, the number of
earlier attempts, and the portions that come after it. -/
structure Shipment where
  portion : Portion
  statement : String
  count : Nat
  attempt : Nat
  rest : List Portion

/-- Where a task stands: before the next portion, waiting for the answer to a statement, or waiting
before it sends the statement again. -/
inductive TaskPoint where
  | turning (rest : List Portion)
  | sending (shipment : Shipment)
  | resting (delay : Duration) (shipment : Shipment)

/-- A batch that is being imported. The marks say which of its records have failed. -/
structure Task where
  job : Nat
  importers : List Importer
  batch : Batch
  marks : List Bool
  point : TaskPoint

/-- A body that runs once: it has not been called for, it is running, or it is done. -/
inductive Cell (π : Type) where
  | idle
  | running (point : π)
  | done (result : Result)

/-- The result of a body that is done. -/
def Cell.result? {π : Type} : Cell π → Option Result
  | .done result => some result
  | _ => none

/-- Where the body of starting stands. -/
inductive StartPoint where
  | begun
  | hooks (run : HookRun)
  | opening

/-- Where the body of stopping stands. It waits for the readers and for the importers to be idle,
for each of its jobs to end, for the progress reports to end, for the hooks, and for the client pool
to close. `failed` counts the jobs that have failed. -/
inductive StopPoint where
  | begun
  | drainingReaders (since : Nat)
  | drainingImporters (since : Nat)
  | collecting (jobs : List Nat) (failed : Nat)
  | joining
  | hooks (run : HookRun)
  | closing (result : Result)

/-- What a user calls for, beside the import of a source. -/
inductive Wish where
  | start
  | stop
  | wait
deriving DecidableEq

/-- Where a call stands. A call that waits for everything to be imported goes on as a call that
stops. -/
inductive CallPoint where
  | begun
  | drainingReaders (since : Nat)
  | drainingImporters (since : Nat)
  | awaiting
  | returned (result : Result)

/-- A call of a user. -/
structure Call where
  wish : Wish
  point : CallPoint := .begun

/-- Where the progress reports stand: before the first, between two, or at their end. -/
inductive ReporterPoint where
  | first
  | ticking
  | ended
deriving DecidableEq

/-- The state of a run. Jobs and calls are numbered by their positions, and tasks by the order in
which they began; a task that is over is left out. `uncollected` are the jobs that stopping has not
taken up, `clock` is the time in nanoseconds since the beginning of 1970, and the history has the
latest event first. -/
structure State where
  stats : Stats := {}
  readers : WorkerPool
  importers : WorkerPool
  started : Gate := {}
  cancelled : Bool := false
  poolOpened : Bool := false
  startCell : Cell StartPoint := .idle
  stopCell : Cell StopPoint := .idle
  reporter : Option ReporterPoint := none
  jobs : List Job := []
  tasks : List (Nat × Task) := []
  nextTask : Nat := 0
  calls : List Call := []
  uncollected : List Nat := []
  units : Units := []
  clock : Nat := 0
  history : List Event := []

namespace State

/-- A run that has not begun. -/
def initial (settings : Settings) : State where
  readers := .of "reader" settings.readerConcurrency
  importers := .of "importer" settings.importerConcurrency

/-- What is wrong with settings for which there cannot be enough workers. -/
def excess? (settings : Settings) : Option String :=
  (WorkerPool.excess? settings.readerConcurrency).or
    (WorkerPool.excess? settings.importerConcurrency)

/-- Add an event to the history. -/
def record (s : State) (event : Event) : State := { s with history := event :: s.history }

/-- Report a line. -/
def log (s : State) (line : LogLine) : State := s.record (.logged line)

/-- Add events of hooks to the history. -/
def recordHooks (s : State) (phase : HookPhase) (events : List HookEvent) : State :=
  { s with history := (events.map (Event.hook phase)).reverse ++ s.history }

/-- Change a job. -/
def modifyJob (s : State) (job : Nat) (change : Job → Job) : State :=
  { s with jobs := s.jobs.modify job change }

/-- Move a job to a point. -/
def moveJob (s : State) (job : Nat) (point : JobPoint) : State :=
  s.modifyJob job fun j => { j with point }

/-- Put a task in place of the one with this number. -/
def putTask (s : State) (number : Nat) (task : Task) : State :=
  { s with
    tasks := s.tasks.map fun (other, present) =>
      (other, if other == number then task else present) }

/-- Move a call to a point. -/
def moveCall (s : State) (call : Nat) (point : CallPoint) : State :=
  { s with calls := s.calls.modify call fun c => { c with point } }

/-- Whether the run has been stopped and everything is over. -/
def isStopped (s : State) : Bool := s.stopCell.result?.isSome

end State

end BulkLoad.Manager
