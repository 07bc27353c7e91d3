import BulkLoad.Hook.Run
import BulkLoad.Importer

/-!
# What happens during a run

The manager of a run keeps a history of what it asks of the outside, of the answers that matter
later, and of what it reports. Jobs and tasks are named by their numbers.
-/

namespace BulkLoad.Manager

/-- A batch on its way to the importers: the units of the source it took and its records. -/
structure Batch where
  units : Nat
  records : Records
deriving DecidableEq

/-- One thing that happens. -/
inductive Event where
  | sourceOpening (job : Nat)
  | sourceOpened (job : Nat)
  | sourceClosing (job : Nat)
  | registered (job : Nat)
  | reading (job : Nat)
  | read (job : Nat) (outcome : BatchOutcome)
  | submitted (job task : Nat) (batch : Batch)
  | rejected (job : Nat) (batch : Batch)
  | sending (task : Nat) (statement : String)
  | imported (task : Nat) (portion : Portion) (outcome : ImportOutcome)
  | settled (task : Nat)
  | hook (phase : HookPhase) (event : HookEvent)
  | poolOpening
  | poolOpened
  | poolClosing
  | cancelled
  | progress
  | logged (line : LogLine)

/-- The line that an event reports, if any. -/
def Event.line? : Event → Option LogLine
  | logged line => some line
  | hook _ (.logged line) => some line
  | _ => none

end BulkLoad.Manager
