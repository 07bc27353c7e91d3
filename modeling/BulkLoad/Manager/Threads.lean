import BulkLoad.Manager.Step

/-!
# Imports on several threads

A step of a run is a stretch of code between two waits. Where calls are made on several threads such
stretches overlap. Those of jobs and tasks are over before the pool that keeps count of them is
empty, so stopping waits for them; but nothing keeps count of a call that imports a source. Here the
stretch in which it registers the job is taken apart. The call announces the size and takes the
units, finds the readers open, hands the job over to them, and keeps it for stopping to take up, and
anything may happen between two of these parts. Where nothing does they come to the step of the run.
-/

namespace BulkLoad.Manager.Threads

/-- How far a call has got that registers the job of a source.

- `holding`: it has announced the size and holds the units
- `admitted`: it has found the readers open
- `handed`: it has handed the job over to the readers -/
inductive Stage where
  | holding
  | admitted
  | handed
deriving DecidableEq

/-- A call that registers the job with this number. -/
structure Registration where
  job : Nat
  sourceName : String
  importers : List Importer
  stage : Stage := .holding

/-- A run, and the calls that are registering jobs. A job stands where the size of its source was
asked for until it is handed over. -/
structure State where
  run : Manager.State
  registering : List Registration := []

/-- One thing that moves a run: a step of it, or the next part of a call that registers a job. -/
inductive Label where
  | step (label : Manager.Label)
  | goOn (job : Nat)

namespace State

/-- A run that has not begun. -/
def initial (settings : Settings) : State where
  run := .initial settings

/-- The call that registers a job. -/
def registration? (s : State) (job : Nat) : Option Registration :=
  s.registering.find? fun r => r.job == job

/-- The call that registers a job has got to a stage. -/
def advance (s : State) (job : Nat) (stage : Stage) : State :=
  { s with
    registering := s.registering.map fun r => if r.job == job then { r with stage } else r }

/-- The call that registers a job is through. -/
def leave (s : State) (job : Nat) : State :=
  { s with registering := s.registering.filter fun r => r.job != job }

/-- Begin to register the job of a source of this size. -/
def beginRegistering (s : State) (job size : Nat) : Option State :=
  match s.run.jobs[job]? with
  | none => none
  | some j =>
      match j.point with
      | .sizing =>
          some
            { run := s.run.announce j.importers size
              registering := s.registering ++ [⟨job, j.sourceName, j.importers, .holding⟩] }
      | _ => none

/-- Go on with registering a job. -/
def goOn (s : State) (graph : String) (r : Registration) : State :=
  match r.stage with
  | .holding =>
      match s.run.readers.spawn with
      | .ok _ => s.advance r.job .admitted
      | .error error =>
          { s with run := s.run.turnAway graph r.job r.sourceName r.importers error }.leave r.job
  | .admitted => { s with run := s.run.handOver r.job s.run.readers.accept }.advance r.job .handed
  | .handed => { s with run := s.run.keepJob r.job }.leave r.job

/-- A step of the run, which leaves the calls that are registering jobs alone. -/
def stepRun (s : State) (settings : Settings) (label : Manager.Label) : Option State :=
  (Manager.step settings s.run label).map fun run => { s with run }

end State

/-- One step, if it is possible. The size of a source begins the registration of its job, once. -/
def step (settings : Settings) (s : State) : Label → Option State
  | .step (.answer (.job job) (.size result)) =>
      match s.registration? job, result with
      | some _, _ => none
      | none, .ok size => s.beginRegistering job size
      | none, .error error => s.stepRun settings (.answer (.job job) (.size (.error error)))
  | .step label => s.stepRun settings label
  | .goOn job => (s.registration? job).map (s.goOn settings.graphName)

/-- Several steps, if they are possible one after the other. -/
def run (settings : Settings) (s : State) (labels : List Label) : Option State :=
  labels.foldlM (step settings) s

/-- The states that a run can get to. -/
inductive Reachable (settings : Settings) : State → Prop where
  | initial : Reachable settings (.initial settings)
  | step {s next : State} (label : Label) (h : Reachable settings s)
      (hstep : Threads.step settings s label = some next) : Reachable settings next

end BulkLoad.Manager.Threads
