import BulkLoad.WorkerPool

/-!
# Tasks on a worker pool

A `System` is a worker pool with the tasks that were handed to it and the calls that wait for it.
Its moves are the calls on the pool and the progress of its tasks, in any order in which they are
possible.
-/

namespace BulkLoad.WorkerPool

/-- Where a task is: its submitter waits for a worker, it has been accepted and has not asked for a
worker yet, it has been accepted and waits for a worker, it has been accepted with a worker, it runs
with or without one, it has finished, or it was refused. -/
inductive Phase where
  | submitting
  | spawned
  | queued
  | assigned
  | running (worker : Bool)
  | finished
  | refused
deriving DecidableEq

/-- A call that waits for the pool to be empty: how often it had become empty before, and whether
the call has returned. -/
structure Wait where
  since : Nat
  returned : Bool := false
deriving DecidableEq

/-- A pool, the tasks in the order in which they were handed to it, and the waiting calls. A task
has its position as its ticket. `started` are the tasks that have begun to run, in the order in
which they did. -/
structure System where
  pool : WorkerPool
  tasks : List Phase := []
  waits : List Wait := []
  started : List Nat := []
deriving DecidableEq

namespace System

/-- What can happen: a task is handed over in one of two ways, a task goes on or finishes, the pool
is closed, a call begins to wait or returns. -/
inductive Move where
  | spawn
  | submit
  | proceed (task : Nat)
  | finish (task : Nat)
  | close
  | wait
  | leave (wait : Nat)
deriving DecidableEq

/-- Hand over a task that need not wait for a worker to be accepted. It asks for one when it goes on
for the first time, so a task that is submitted after it may come before it. -/
def spawn (s : System) : System :=
  match s.pool.spawn with
  | .ok pool => { s with pool, tasks := s.tasks ++ [.spawned] }
  | .error _ => { s with tasks := s.tasks ++ [.refused] }

/-- Hand over a task that is accepted once there is a worker for it. -/
def submit (s : System) : System :=
  { s with pool := s.pool.enqueue s.tasks.length, tasks := s.tasks ++ [.submitting] }

/-- Move a task to another phase. -/
def put (s : System) (task : Nat) (phase : Phase) (pool : WorkerPool) : System :=
  { s with pool, tasks := s.tasks.set task phase }

/-- Let a task begin to run. -/
def start (s : System) (task : Nat) (worker : Bool) (pool : WorkerPool) : System :=
  { s.put task (.running worker) pool with started := s.started ++ [task] }

/-- A task, or its submitter, goes on if it can. -/
def proceed? (s : System) (task : Nat) : Option System :=
  match s.tasks[task]? with
  | some .submitting =>
      if s.pool.mayProceed task then
        if s.pool.closed then some (s.put task .refused (s.pool.refuse task))
        else some (s.put task .assigned (s.pool.grant task).accept)
      else none
  | some .spawned => some (s.put task .queued (s.pool.enqueue task))
  | some .queued =>
      if s.pool.mayProceed task then some (s.start task (!s.pool.closed) (s.pool.grant task))
      else none
  | some .assigned => some (s.start task true s.pool)
  | _ => none

/-- A running task finishes, normally or by a panic. -/
def finish? (s : System) (task : Nat) : Option System :=
  match s.tasks[task]? with
  | some (.running worker) => some (s.put task .finished (s.pool.finish worker))
  | _ => none

/-- Close the pool. -/
def close (s : System) : System := { s with pool := s.pool.close }

/-- Begin to wait for the pool to be empty. -/
def wait (s : System) : System :=
  { s with waits := s.waits ++ [{ since := s.pool.drains }], pool := s.pool.watch }

/-- A waiting call returns if it can. -/
def leave? (s : System) (wait : Nat) : Option System :=
  match s.waits[wait]? with
  | some ⟨since, false⟩ =>
      if s.pool.hasDrained since then some { s with waits := s.waits.set wait ⟨since, true⟩ }
      else none
  | _ => none

/-- One move, if it is possible. -/
def step (s : System) : Move → Option System
  | .spawn => some s.spawn
  | .submit => some s.submit
  | .proceed task => s.proceed? task
  | .finish task => s.finish? task
  | .close => some s.close
  | .wait => some s.wait
  | .leave wait => s.leave? wait

/-- Several moves, if they are possible one after the other. -/
def run (s : System) (moves : List Move) : Option System := moves.foldlM step s

end System

end BulkLoad.WorkerPool
