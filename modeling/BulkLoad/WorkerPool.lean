import BulkLoad.Error

/-!
# Worker pools

A worker pool runs a bounded number of tasks at the same time. Whoever needs a worker holds a ticket
in a queue, and as many tickets at its front as there are free workers may go on. A closed pool
accepts nothing more and lets the tasks that it has accepted run without workers. The pool keeps
count of the accepted tasks that have not finished; once it is watched, it is noted each time
that there are none.
-/

namespace BulkLoad

/-- A worker pool. `free` counts the free workers, `queue` holds the tickets in order of arrival,
`tracked` counts the accepted tasks that have not finished, and `drains` counts how often the
watched pool has become empty. -/
structure WorkerPool where
  name : String
  concurrency : Nat
  free : Nat
  queue : List Nat := []
  closed : Bool := false
  tracked : Nat := 0
  isWatched : Bool := false
  drains : Nat := 0
deriving DecidableEq

namespace WorkerPool

/-- A pool with a number of workers, at least one. -/
def of (name : String) (concurrency : Nat) : WorkerPool :=
  { name, concurrency := max concurrency 1, free := max concurrency 1 }

/-- The largest number of workers. -/
def maxConcurrency : Nat := 2305843009213693951

/-- What is wrong with a number of workers, if there cannot be so many. -/
def excess? (concurrency : Nat) : Option String :=
  if concurrency ≤ maxConcurrency then none
  else some ("a semaphore may not have more than MAX_PERMITS permits (" ++
    toString maxConcurrency ++ ")")

/-- Take a task into the count. -/
def accept (p : WorkerPool) : WorkerPool := { p with tracked := p.tracked + 1 }

/-- Accept a task that will ask for a worker by itself. -/
def spawn (p : WorkerPool) : Except PoolClosed WorkerPool :=
  if p.closed then .error ⟨p.name⟩ else .ok p.accept

/-- Ask for a worker. -/
def enqueue (p : WorkerPool) (ticket : Nat) : WorkerPool := { p with queue := p.queue ++ [ticket] }

/-- Whether the holder of a ticket may go on. Nobody waits for a worker of a closed pool. -/
def mayProceed (p : WorkerPool) (ticket : Nat) : Bool :=
  p.queue.contains ticket && (p.closed || p.queue.idxOf ticket < p.free)

/-- Let the holder of a ticket go on. It takes a worker while the pool is open. -/
def grant (p : WorkerPool) (ticket : Nat) : WorkerPool :=
  { p with queue := p.queue.erase ticket, free := if p.closed then p.free else p.free - 1 }

/-- Turn away the holder of a ticket. -/
def refuse (p : WorkerPool) (ticket : Nat) : WorkerPool := { p with queue := p.queue.erase ticket }

/-- Note whether the watched pool is empty. -/
def noteDrained (p : WorkerPool) : WorkerPool :=
  if p.isWatched && p.tracked == 0 then { p with drains := p.drains + 1 } else p

/-- A task has finished and gives back its worker if it has one. -/
def finish (p : WorkerPool) (worker : Bool) : WorkerPool :=
  noteDrained
    { p with tracked := p.tracked - 1, free := if worker then p.free + 1 else p.free }

/-- From now on note when the pool is empty. Tasks are still accepted. -/
def watch (p : WorkerPool) : WorkerPool :=
  if p.isWatched then p else noteDrained { p with isWatched := true }

/-- Accept no more tasks. -/
def close (p : WorkerPool) : WorkerPool := watch { p with closed := true }

/-- Whether a call that waits for the pool to be empty returns. `since` is the number of times that
the pool had become empty when the call was made. -/
def hasDrained (p : WorkerPool) (since : Nat) : Bool :=
  (p.isWatched && p.tracked == 0) || since < p.drains

end WorkerPool

end BulkLoad
