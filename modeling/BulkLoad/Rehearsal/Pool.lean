import BulkLoad.Gate
import BulkLoad.Rehearsal.Schedule
import BulkLoad.WorkerPool.System

/-!
# Rehearsing a worker pool

Named tasks are handed to a worker pool. A task notes that it has started, waits for its gate if it
has one, and then panics or notes that it has finished.
-/

namespace BulkLoad.Rehearsal

open WorkerPool (System)

/-- A task: its name, its gate, and whether it panics. -/
structure Chore where
  name : String
  gate : Option String := none
  panics : Bool := false
deriving DecidableEq

/-- A pool in rehearsal: its tasks, the released gates, and the tasks that have finished normally.
-/
structure PoolTrial where
  system : System
  chores : List Chore := []
  released : List String := []
  finished : List String := []

namespace PoolTrial

/-- Who acts: the submitter of a task, the task itself, or a waiting call. -/
inductive Actor where
  | submitter (task : Nat)
  | task (task : Nat)
  | waiter (wait : Nat)
deriving DecidableEq

/-- A pool without tasks. -/
def of (name : String) (concurrency : Nat) : PoolTrial :=
  { system := { pool := .of name concurrency } }

/-- Hand over a task that is accepted at once. -/
def spawn (t : PoolTrial) (chore : Chore) : PoolTrial :=
  { t with system := t.system.spawn, chores := t.chores ++ [chore] }

/-- Hand over a task that is accepted once there is a worker for it. -/
def submit (t : PoolTrial) (chore : Chore) : PoolTrial :=
  { t with system := t.system.submit, chores := t.chores ++ [chore] }

/-- Release a gate. The answer says whether it was closed until now. -/
def release (t : PoolTrial) (gate : String) : Bool × PoolTrial :=
  let (fresh, _) := (Gate.mk (t.released.contains gate)).release
  (fresh, if fresh then { t with released := gate :: t.released } else t)

/-- Whether nothing holds up a task that has started. -/
def isFree (t : PoolTrial) (chore : Chore) : Bool :=
  match chore.gate with
  | none => true
  | some gate => t.released.contains gate

/-- A task goes on: it starts, or it ends once its gate has been released. -/
def advance (t : PoolTrial) (task : Nat) (chore : Chore) : Option PoolTrial :=
  match t.system.tasks[task]? with
  | some .spawned | some .queued | some .assigned =>
      (t.system.proceed? task).map fun system => { t with system }
  | some (.running _) =>
      if t.isFree chore then
        (t.system.finish? task).map fun system =>
          { t with
            system
            finished := if chore.panics then t.finished else t.finished ++ [chore.name] }
      else none
  | _ => none

/-- One stretch of an actor. -/
def turn (t : PoolTrial) : Actor → Option (PoolTrial × Bool)
  | .submitter task =>
      if t.system.tasks[task]? == some .submitting then
        (t.system.proceed? task).map fun system => ({ t with system }, false)
      else none
  | .task task =>
      match t.chores[task]? with
      | none => none
      | some chore => (t.advance task chore).map fun t => (t, false)
  | .waiter wait => (t.system.leave? wait).map fun system => ({ t with system }, false)

/-- Everyone who acts on the pool. -/
def actors : Actors PoolTrial Actor where
  present t :=
    (List.range t.chores.length).flatMap (fun i => [.submitter i, .task i]) ++
      (List.range t.system.waits.length).map .waiter
  turn := turn

/-- Let everything go on until it is blocked. No task takes more than a few turns. -/
def settle (t : PoolTrial) : PoolTrial :=
  actors.settle (8 * (t.chores.length + t.system.waits.length) + 8) [] t

/-- The names of the tasks that have started, in the order of their starts. -/
def started (t : PoolTrial) : List String :=
  t.system.started.filterMap fun task => (t.chores[task]?).map Chore.name

/-- The tasks in a phase, by name. -/
def inPhase (t : PoolTrial) (phase : WorkerPool.Phase → Bool) : List String :=
  (t.chores.zip t.system.tasks).filterMap fun (chore, p) =>
    if phase p then some chore.name else none

end PoolTrial

end BulkLoad.Rehearsal
