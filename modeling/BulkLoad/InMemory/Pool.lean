import BulkLoad.Client
import BulkLoad.Text.Search

/-!
# A client pool in memory

A pool that executes nothing and remembers every statement. Statements succeed unless they contain
a marker for which failures are left. Hook statements are remembered apart from the others.
-/

namespace BulkLoad.InMemory

/-- A text whose statements fail, and how many failures are left; without a number they always
fail. -/
structure Failure where
  marker : String
  remaining : Option Nat
deriving DecidableEq

/-- The pool: its failures, the statements it was sent with the latest first, and how often it was
opened and closed. -/
structure Pool where
  failures : List Failure := []
  executed : List String := []
  hooks : List String := []
  opened : Nat := 0
  closed : Nat := 0
deriving DecidableEq

/-- Use up the first failure that applies to a statement. -/
def useFailure (statement : String) : List Failure → Option (List Failure)
  | [] => none
  | failure :: rest =>
      if failure.remaining != some 0 && Text.contains statement failure.marker then
        some ({ failure with remaining := failure.remaining.map (· - 1) } :: rest)
      else (useFailure statement rest).map (failure :: ·)

namespace Pool

/-- Let statements with the marker fail, always or a number of times. -/
def fail (p : Pool) (marker : String) (times : Option Nat) : Pool :=
  { p with failures := p.failures ++ [⟨marker, times⟩] }

/-- The answer to a statement. -/
def answer (p : Pool) (statement : String) : Response × Pool :=
  match useFailure statement p.failures with
  | some failures =>
      (.failure ("mock failure for " ++ statement), { p with failures })
  | none => (.success (Duration.ofNanos 100000) (Duration.ofNanos 250000), p)

/-- Open the pool. -/
def «open» (p : Pool) : Pool := { p with opened := p.opened + 1 }

/-- Close the pool. -/
def close (p : Pool) : Pool := { p with closed := p.closed + 1 }

/-- Execute a statement, if the pool has ever been opened. -/
def execute (p : Pool) (statement : String) : Reply × Pool :=
  if p.opened == 0 then (.error .poolNotOpen, p)
  else
    let (response, p) := p.answer statement
    (.ok response, { p with executed := statement :: p.executed })

/-- Execute a hook statement, for which the pool need not be open. -/
def executeHook (p : Pool) (statement : String) : Reply × Pool :=
  let (response, p) := p.answer statement
  (.ok response, { p with hooks := statement :: p.hooks })

/-- How many executed statements contain a text. -/
def matching (p : Pool) (needle : String) : Nat :=
  (p.executed.filter fun s => Text.contains s needle).length

end Pool

end BulkLoad.InMemory
