import BulkLoad.Manager.Control
import BulkLoad.Manager.Job
import BulkLoad.Manager.Task

/-!
# The steps of a run

A run is a labelled transition system. A label is a call of a user, the passing of time, or an
answer to whoever waits for one; `step` is what it leads to. Everything that can happen in any order
is a sequence of labels, and `Reachable` holds of the states they lead to.

A step is what an actor does from one wait to its next, and nothing else happens meanwhile. On
several threads such stretches can overlap, as when the run is stopped between the look at whether
it is and the request for a batch that follows it. What happens inside a stretch is not told here,
except that `BulkLoad.Manager.Threads` takes apart the one in which a job is registered.
-/

namespace BulkLoad.Manager

/-- Who waits for answers: a job, a task, the bodies of starting and stopping, the progress reports,
or a call. -/
inductive Actor where
  | job (number : Nat)
  | task (number : Nat)
  | starter
  | stopper
  | reporter
  | caller (number : Nat)
deriving DecidableEq

/-- One thing that moves a run. -/
inductive Label where
  | «import» (sourceName : String) (importers : List Importer)
  | call (wish : Wish)
  | clock (time : Nat)
  | answer (actor : Actor) (answer : Answer)

/-- What an answer leads to, if its actor waits for it. -/
def stepActor (settings : Settings) (s : State) : Actor → Answer → Option State
  | .job number, answer => s.stepJob settings number answer
  | .task number, answer => s.stepTask settings number answer
  | .starter, answer => s.stepStart settings answer
  | .stopper, answer => s.stepStop settings answer
  | .reporter, answer => s.stepReporter answer
  | .caller number, .go => s.stepCall number
  | .caller _, _ => none

/-- One step of a run, if it is possible. -/
def step (settings : Settings) (s : State) : Label → Option State
  | .import sourceName importers => some { s with jobs := s.jobs ++ [{ sourceName, importers }] }
  | .call wish => some { s with calls := s.calls ++ [{ wish }] }
  | .clock time => some { s with clock := time }
  | .answer actor answer => stepActor settings s actor answer

/-- Several steps, if they are possible one after the other. -/
def run (settings : Settings) (s : State) (labels : List Label) : Option State :=
  labels.foldlM (step settings) s

/-- The states that a run can get to. -/
inductive Reachable (settings : Settings) : State → Prop where
  | initial : Reachable settings (.initial settings)
  | step {s next : State} (label : Label) (h : Reachable settings s)
      (hstep : Manager.step settings s label = some next) : Reachable settings next

/-- What an actor waits for: its turn, a source, an importer, the client pool, a client, the answer
to a statement, or the end of a span of time. -/
inductive Request where
  | turn
  | openSource (job : Nat)
  | sizeSource (job : Nat)
  | closeSource (job : Nat)
  | readBatch (job : Nat)
  | importer (importer : Importer)
  | openPool
  | closePool
  | openClient
  | closeClient
  | hook (statement : String)
  | execute (statement : String)
  | timer (duration : Duration)

/-- What hooks wait for. -/
def hookRequest : HookRun → Request
  | .acquiring _ => .openClient
  | .sending statement _ => .hook statement
  | .pausing _ duration _ => .timer duration
  | .closing _ => .closeClient

/-- What a job waits for. -/
def JobPoint.request (job : Nat) : JobPoint → Request
  | .opening => .openSource job
  | .sizing => .sizeSource job
  | .dismissing _ | .closing _ => .closeSource job
  | .readying importer _ => .importer importer
  | .reading => .readBatch job
  | _ => .turn

/-- What a task waits for. -/
def TaskPoint.request : TaskPoint → Request
  | .turning _ => .turn
  | .sending shipment => .execute shipment.statement
  | .resting delay _ => .timer delay

/-- What an actor waits for. -/
def State.request (s : State) (settings : Settings) : Actor → Request
  | .job number => ((s.jobs[number]?).map fun j => j.point.request number).getD .turn
  | .task number => ((s.tasks.lookup number).map fun t => t.point.request).getD .turn
  | .starter =>
      match s.startCell with
      | .running (.hooks run) => hookRequest run
      | .running .opening => .openPool
      | _ => .turn
  | .stopper =>
      match s.stopCell with
      | .running (.hooks run) => hookRequest run
      | .running (.closing _) => .closePool
      | _ => .turn
  | .reporter =>
      match s.reporter, settings.statsInterval with
      | some .ticking, some interval => .timer interval
      | _, _ => .turn
  | .caller _ => .turn

/-- Everyone who may be waiting. -/
def State.actors (s : State) : List Actor :=
  (List.range s.jobs.length).map .job ++ s.tasks.map (fun (number, _) => .task number) ++
    [.starter, .stopper, .reporter] ++ (List.range s.calls.length).map .caller

end BulkLoad.Manager
