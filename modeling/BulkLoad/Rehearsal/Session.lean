import BulkLoad.Rehearsal.Trial

/-!
# Rehearsing a run step by step

The users of a run take one step after the other: they import sources, call for something, or
release a gate. Each step is followed by a stretch of time in which everything goes on, and then by
a report. A step whose answers are not there by then is reported as soon as they are.
-/

namespace BulkLoad.Rehearsal

open Manager (Result Wish)

/-- The answers that a step waits for: those to imports, or those to calls. -/
inductive Asked where
  | imports (jobs : List Nat)
  | calls (calls : List Nat)
deriving DecidableEq

/-- The answers that a step waits for, once all of them are there. -/
def Asked.results? (t : Trial) : Asked → Option (List Result)
  | imports numbers => numbers.mapM t.importResult?
  | calls numbers => numbers.mapM t.callResult?

/-- A run with the number of steps that were taken, and the steps that wait for answers. -/
structure Session where
  trial : Trial
  steps : Nat := 0
  waiting : List (Nat × Asked) := []

/-- What is reported after a step: its answers if they are there, the answers of earlier steps that
have come since the last report, what was observed, and the run. -/
structure Report where
  results : Option (List Result)
  finished : List (Nat × List Result)
  observed : Observation
  trial : Trial

namespace Session

/-- Import sources with the same importers, one after the other. -/
def importSources (s : Session) (supplies : List Supply) (importers : List Importer) :
    Session × Asked :=
  let first := s.trial.state.jobs.length
  let trial := supplies.foldl (fun t supply => t.importSource supply importers) s.trial
  ({ s with trial }, .imports ((List.range supplies.length).map (first + ·)))

/-- Call for something several times at once. -/
def call (s : Session) (wish : Wish) (callers : Nat) : Session × Asked :=
  let first := s.trial.state.calls.length
  let trial := (List.range callers).foldl (fun t _ => t.call wish) s.trial
  ({ s with trial }, .calls ((List.range callers).map (first + ·)))

/-- Release a gate. The answer says whether it was closed until now. -/
def release (s : Session) (gate : String) : Bool × Session :=
  let (fresh, world) := s.trial.world.release gate
  (fresh, { s with trial := { s.trial with world } })

/-- Leave out a step that cannot be taken. It takes no time. -/
def skip (s : Session) : Session := { s with steps := s.steps + 1 }

/-- Let everything go on for a time in milliseconds after a step, and report. `before` is the run
before the step. -/
def proceed (s : Session) (before : Trial) (asked : Option Asked) (millis : Nat) :
    Report × Session :=
  let t := s.trial.run millis
  let waiting := s.waiting ++ (asked.map fun a => (s.steps, a)).toList
  ({ results := asked.bind (·.results? t)
     finished := s.waiting.filterMap fun (step, a) => (a.results? t).map fun r => (step, r)
     observed := t.observedSince before
     trial := t },
    { trial := t
      steps := s.steps + 1
      waiting := waiting.filter fun (_, a) => (a.results? t).isNone })

end Session

namespace Trial

/-- The names of all importers that were given to a run. -/
def importerNames (t : Trial) : List String :=
  (t.state.jobs.flatMap fun job => job.importers.map (·.name)).eraseDups

/-- The last source of each name that was imported. -/
def suppliesByName (t : Trial) : List (String × Supply) :=
  let named := (t.state.jobs.map (·.sourceName)).zip t.world.supplies
  named.foldl (fun found (name, supply) => found.filter (·.1 != name) ++ [(name, supply)]) []

end Trial

end BulkLoad.Rehearsal
