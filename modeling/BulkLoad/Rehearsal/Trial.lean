import BulkLoad.Rehearsal.World

/-!
# Rehearsing a run

A `Trial` is a run together with the world that answers its requests. Everyone who can go on does so
in turn; when nobody can, the clock moves to the next timer. Every move of the run is one of the
steps that `Manager.step` allows.
-/

namespace BulkLoad.Rehearsal

open Manager (Actor State)

/-- A run with its settings and its world. -/
structure Trial where
  settings : Settings
  state : State
  world : World

namespace Trial

/-- A run that has not begun. -/
def of (settings : Settings) (world : World) : Trial :=
  { settings, state := .initial settings, world }

/-- Give an answer to an actor, if it waits for it. -/
def answer (t : Trial) (actor : Actor) (answer : Answer) (world : World) : Option Trial :=
  (Manager.step t.settings t.state (.answer actor answer)).map fun state =>
    { t with state, world := world.setTimer actor (state.request t.settings actor) }

/-- One stretch of an actor: its wait is cancelled if it can be, and otherwise the world answers. A
read on another thread first gives way to everyone else. -/
def turn (t : Trial) (actor : Actor) : Option (Trial × Bool) :=
  match t.answer actor .cancelled t.world with
  | some t => some (t, false)
  | none =>
      let request := t.state.request t.settings actor
      let ask : Option (Trial × Bool) := do
        let (answer, world) ← t.world.respond actor request
        let t ← t.answer actor answer world
        return (t, false)
      match request with
      | .readBatch job =>
          if ((t.world.supplies[job]?).map Supply.defers).getD false &&
              !t.world.deferred.contains job then
            some ({ t with world := { t.world with deferred := job :: t.world.deferred } }, true)
          else ask
      | _ => ask

/-- Everyone in the run. -/
def actors : Actors Trial Actor where
  present t := t.state.actors
  turn := turn

/-- A bound on the turns of a rehearsal. -/
def patience : Nat := 1000000000

/-- Let everything go on until it is blocked, without the passing of time. -/
def settle (t : Trial) : Trial := actors.settle patience [] t

/-- Set the clock. -/
def setNow (t : Trial) (now : Nat) : Trial := { t with world := { t.world with now } }

/-- Let everything go on until a moment in milliseconds, with the clock set forward whenever nobody
can go on, but at most `fuel` times. -/
def runUntilFrom (moment : Nat) : (fuel : Nat) → Trial → Trial
  | 0, t => t
  | fuel + 1, t =>
      let t := t.settle
      match t.world.nextTimer? with
      | some next =>
          if next ≤ moment then runUntilFrom moment fuel (t.setNow next) else t.setNow moment
      | none => t.setNow moment

/-- Let everything go on for a time in milliseconds. -/
def run (t : Trial) (millis : Nat) : Trial := runUntilFrom (t.world.now + millis) patience t

/-- A step that a user of the run takes. -/
def act (t : Trial) (label : Manager.Label) : Trial :=
  { t with state := (Manager.step t.settings t.state label).getD t.state }

/-- Call for something. -/
def call (t : Trial) (wish : Manager.Wish) : Trial := t.act (.call wish)

/-- Import a source with a reader. -/
def importSource (t : Trial) (supply : Supply) (importers : List Importer) : Trial :=
  let t := t.act (.import supply.origin.name importers)
  { t with world := { t.world with supplies := t.world.supplies ++ [supply] } }

/-- The result of a call, once it has returned. -/
def callResult? (t : Trial) (call : Nat) : Option Manager.Result := do
  match (← t.state.calls[call]?).point with
  | .returned result => some result
  | _ => none

/-- The result of an import, once it has been answered. -/
def importResult? (t : Trial) (job : Nat) : Option Manager.Result := do
  (← t.state.jobs[job]?).answer

end Trial

/-- What was observed in a stretch of a run, as far as the order of work that runs concurrently does
not show: the executed statements and the reported lines in the order of their texts, and the hook
statements in the order in which they were sent. -/
structure Observation where
  executed : List String
  hooks : List String
  logs : List String

namespace Trial

/-- Texts in their order. -/
def ordered (texts : List String) : List String := texts.mergeSort (· ≤ ·)

/-- What was observed since an earlier moment of the run. -/
def observedSince (t earlier : Trial) : Observation :=
  let events := t.state.history.take (t.state.history.length - earlier.state.history.length)
  let lines := t.world.logs.take (t.world.logs.length - earlier.world.logs.length)
  { executed := ordered (events.filterMap fun event =>
      match event with
      | .sending _ statement => some statement
      | _ => none)
    hooks := (events.filterMap fun event =>
      match event with
      | .hook _ (.sent statement) => some statement
      | _ => none).reverse
    logs := ordered ((events.filterMap Manager.Event.line? ++ lines).map LogLine.text) }

/-- How often a client was asked for. -/
def clientsAsked (t : Trial) : Nat :=
  t.state.history.countP fun event =>
    match event with
    | .hook _ .clientAsked => true
    | _ => false

/-- How often progress was reported. -/
def progressReports (t : Trial) : Nat :=
  t.state.history.countP fun event =>
    match event with
    | .progress => true
    | _ => false

end Trial

end BulkLoad.Rehearsal
