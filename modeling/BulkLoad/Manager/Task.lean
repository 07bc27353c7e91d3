import BulkLoad.Answer
import BulkLoad.Manager.State

/-!
# Importing a batch

A task hands its batch to each importer of its job in portions, one after the other. A statement is
sent again as the importer's policy says. When all portions are through, the batch is accounted for
and the units taken for it are given back. A panic, of the builder or while a statement is executed,
and accumulated times that overflow end the task at once: it gives back its units, but its batch is
not accounted for.
-/

namespace BulkLoad.Manager.State

/-- A task is over: it gives back its units and its worker. -/
def endTask (s : State) (number : Nat) (task : Task) : State :=
  { s with
    units := s.units.release task.importers
    importers := s.importers.finish true
    tasks := s.tasks.filter fun (other, _) => other != number }

/-- Account for a batch and end its task. -/
def settleTask (s : State) (number : Nat) (task : Task) : State :=
  { s with stats := settleBatch s.stats task.batch.units task.marks }
    |>.record (.settled number)
    |>.endTask number task

/-- Report a portion that was not imported. -/
def reportPortion (s : State) (graph : String) (portion : Portion) : ImportOutcome → State
  | .failed error => s.log (portion.failureLine graph error)
  | _ => s

/-- A portion is through: account for it and go on with the others. -/
def endPortion (s : State) (graph : String) (number : Nat) (task : Task) (portion : Portion)
    (rest : List Portion) (outcome : ImportOutcome) : State :=
  let s := (s.record (.imported number portion outcome)).reportPortion graph portion outcome
  match outcome, portion.account outcome s.stats task.marks with
  | .panicked _, _ => s.endTask number task
  | _, (.overflowed stats, _) => { s with stats }.endTask number task
  | _, (.complete stats, marks) =>
      { s with stats }.putTask number { task with marks, point := .turning rest }

/-- Send a statement. -/
def send (s : State) (number : Nat) (task : Task) (shipment : Shipment) : State :=
  (s.putTask number { task with point := .sending shipment }).record
    (.sending number shipment.statement)

/-- Go on with the next portion. -/
def nextPortion (s : State) (graph : String) (number : Nat) (task : Task) : List Portion → State
  | [] => s.settleTask number task
  | portion :: rest =>
      match portion.importer.plan portion.records with
      | .settled outcome => s.endPortion graph number task portion rest outcome
      | .send statement count => s.send number task ⟨portion, statement, count, 0, rest⟩

/-- Take the answer to a statement: it ends the portion, or the statement is sent again after a
while. -/
def receiveReply (s : State) (graph : String) (number : Nat) (task : Task) (shipment : Shipment)
    (reply : Reply) : State :=
  let conclude (result : Except (RetryError ClientError) Response) : State :=
    s.endPortion graph number task shipment.portion shipment.rest
      (Importer.conclude shipment.statement shipment.count result)
  match Importer.attempt reply with
  | .ok response => conclude (.ok response)
  | .error error =>
      match shipment.portion.importer.retry.verdict Importer.classify shipment.attempt error with
      | .giveUp failure => conclude (.error failure)
      | .again delay => s.putTask number { task with point := .resting delay shipment }

/-- What an answer to a task leads to. -/
def stepTask (s : State) (settings : Settings) (number : Nat) (answer : Answer) : Option State :=
  let graph := settings.graphName
  match s.tasks.lookup number with
  | none => none
  | some task =>
      match task.point, answer with
      | .turning rest, .go => some (s.nextPortion graph number task rest)
      | .sending shipment, .reply reply => some (s.receiveReply graph number task shipment reply)
      | .sending shipment, .panicked message =>
          some (s.endPortion graph number task shipment.portion shipment.rest (.panicked message))
      | .resting _ shipment, .elapsed =>
          some (s.send number task { shipment with attempt := shipment.attempt + 1 })
      | _, _ => none

end BulkLoad.Manager.State
