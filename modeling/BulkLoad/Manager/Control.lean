import BulkLoad.Answer
import BulkLoad.Manager.State

/-!
# Starting and stopping

Starting runs the hooks before the import, opens the client pool and lets the jobs begin. Stopping
cancels all reading, waits until the batches that were read have been imported, runs the hooks after
the import and closes the client pool. Each of them runs once, and everyone who calls for it gets
its result.
-/

namespace BulkLoad.Manager.State

/-- Report a phase of hooks that has failed. -/
def reportHooks (s : State) (graph : String) (phase : HookPhase) : Result → State
  | .ok () => s
  | .error error =>
      s.log (.failure "Hooks failed"
        [("graph", graph), ("phase", phase.word), ("error", error.message)])

/-- Progress reports begin if there is an interval. An interval of zero ends them before the first.
-/
def beginReports (s : State) (settings : Settings) : State :=
  { s with
    reporter := settings.statsInterval.map fun interval =>
      if interval.isZero then .ended else .first }

/-- The body of starting is done. -/
def endStart (s : State) (result : Result) : State := { s with startCell := .done result }

/-- After the hooks, note the time of the start and open the client pool. -/
def afterStartHooks (s : State) (graph : String) : HookProgress → State
  | .running run => { s with startCell := .running (.hooks run) }
  | .ended (.error error) => (s.reportHooks graph .before (.error error)).endStart (.error error)
  | .ended (.ok ()) =>
      { s with stats := s.stats.init s.clock, startCell := .running .opening }.record .poolOpening

/-- The client pool is open: let the jobs begin. -/
def beginRun (s : State) (settings : Settings) : State :=
  ({ s with poolOpened := true, started := s.started.release.2 }.beginReports settings)
    |>.record .poolOpened
    |>.endStart (.ok ())

/-- What an answer to the body of starting leads to. -/
def stepStart (s : State) (settings : Settings) (answer : Answer) : Option State :=
  let graph := settings.graphName
  match s.startCell, answer with
  | .running .begun, .go =>
      if s.cancelled then some (s.endStart (.error (.stopped graph)))
      else
        let (progress, events) := HookRun.begin settings.hooks.before
        some ((s.recordHooks .before events).afterStartHooks graph progress)
  | .running (.hooks run), answer =>
      (run.receive graph .before answer).map fun (progress, events) =>
        (s.recordHooks .before events).afterStartHooks graph progress
  | .running .opening, .client (.ok ()) => some (s.beginRun settings)
  | .running .opening, .client (.error error) =>
      some (s.endStart (.error (.clientPool graph error)))
  | _, _ => none

/-- The body of stopping stands at a point. -/
def moveStop (s : State) (point : StopPoint) : State := { s with stopCell := .running point }

/-- After the hooks, close the client pool if it is open. -/
def afterStopHooks (s : State) (graph : String) : HookProgress → State
  | .running run => s.moveStop (.hooks run)
  | .ended result =>
      let s := s.reportHooks graph .after result
      if s.poolOpened then
        ({ s with poolOpened := false }.moveStop (.closing result)).record .poolClosing
      else { s with stopCell := .done result }

/-- Run the hooks after the import. -/
def beginStopHooks (s : State) (settings : Settings) : State :=
  let (progress, events) := HookRun.begin settings.hooks.after
  (s.recordHooks .after events).afterStopHooks settings.graphName progress

/-- All jobs have been collected: report how many have failed, and wait for the progress reports. -/
def endCollecting (s : State) (settings : Settings) (failed : Nat) : State :=
  let s :=
    if 0 < failed then
      s.log (.warning "Some jobs did not finish cleanly"
        [("graph", settings.graphName), ("failed", toString failed)])
    else s
  match s.reporter with
  | none => s.beginStopHooks settings
  | some _ => s.moveStop .joining

/-- Whether a job has failed, with a report if it has panicked. -/
def collect (s : State) (graph : String) : JobEnd → Bool × State
  | .finished (.ok ()) => (false, s)
  | .finished (.error _) => (true, s)
  | .panicked message =>
      let error := ManagerError.task graph (panicMessage message)
      (true, s.log (.failure "Job task did not complete" [("error", error.message)]))

/-- The client pool has been closed. A failure of the hooks counts for more than one to close. -/
def endStop (s : State) (graph : String) (result : Result) : Except ClientError Unit → State
  | .ok () => { s with stopCell := .done result }
  | .error error =>
      let failure : Result := .error (.clientPool graph error)
      let s := s.log (.warning "Failed to close client pool"
        [("graph", graph), ("error", error.message)])
      { s with stopCell := .done (match result with | .ok () => failure | .error e => .error e) }

/-- What an answer to the body of stopping leads to. -/
def stepStop (s : State) (settings : Settings) (answer : Answer) : Option State :=
  let graph := settings.graphName
  match s.stopCell, answer with
  | .running .begun, .go =>
      let s := { s with cancelled := true, readers := s.readers.watch }.record .cancelled
      some (s.moveStop (.drainingReaders s.readers.drains))
  | .running (.drainingReaders since), .go =>
      if s.readers.hasDrained since then
        let s := { s with importers := s.importers.watch }
        some (s.moveStop (.drainingImporters s.importers.drains))
      else none
  | .running (.drainingImporters since), .go =>
      if s.importers.hasDrained since then
        some
          ({ s with
            readers := s.readers.close
            importers := s.importers.close
            uncollected := [] }.moveStop (.collecting s.uncollected 0))
      else none
  | .running (.collecting [] failed), .go => some (s.endCollecting settings failed)
  | .running (.collecting (job :: rest) failed), .go =>
      match (s.jobs[job]?).map Job.point with
      | some (.ended result) =>
          let (hasFailed, s) := s.collect graph result
          some (s.moveStop (.collecting rest (if hasFailed then failed + 1 else failed)))
      | _ => none
  | .running .joining, .go =>
      if s.reporter == some .ended then some (s.beginStopHooks settings) else none
  | .running (.hooks run), answer =>
      (run.receive graph .after answer).map fun (progress, events) =>
        (s.recordHooks .after events).afterStopHooks graph progress
  | .running (.closing result), .client closed => some (s.endStop graph result closed)
  | _, _ => none

/-- What an answer to the progress reports leads to. They end once the run is being stopped. -/
def stepReporter (s : State) (answer : Answer) : Option State :=
  match s.reporter, answer with
  | some .first, .go | some .ticking, .elapsed =>
      some ({ s with reporter := some .ticking }.record .progress)
  | some .ticking, .cancelled =>
      if s.cancelled then some { s with reporter := some .ended } else none
  | _, _ => none

/-- Call for a body: the first call lets it begin. -/
def enter (s : State) (call : Nat) (wish : Wish) : State :=
  let s := s.moveCall call .awaiting
  match wish, s.startCell, s.stopCell with
  | .start, .idle, _ => { s with startCell := .running .begun }
  | .stop, _, .idle | .wait, _, .idle => { s with stopCell := .running .begun }
  | _, _, _ => s

/-- The result that a call waits for, once there is one. -/
def awaited? (s : State) : Wish → Option Result
  | .start => s.startCell.result?
  | .stop | .wait => s.stopCell.result?

/-- A call goes on. -/
def stepCall (s : State) (call : Nat) : Option State :=
  match s.calls[call]? with
  | none => none
  | some c =>
      match c.point with
      | .begun =>
          match c.wish with
          | .wait =>
              let s := { s with readers := s.readers.watch }
              some (s.moveCall call (.drainingReaders s.readers.drains))
          | wish => some (s.enter call wish)
      | .drainingReaders since =>
          if s.readers.hasDrained since then
            let s := { s with importers := s.importers.watch }
            some (s.moveCall call (.drainingImporters s.importers.drains))
          else none
      | .drainingImporters since =>
          if s.importers.hasDrained since then some (s.enter call c.wish) else none
      | .awaiting => (s.awaited? c.wish).map fun result => s.moveCall call (.returned result)
      | .returned _ => none

end BulkLoad.Manager.State
