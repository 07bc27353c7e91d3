import BulkLoad.Client
import BulkLoad.Log
import BulkLoad.Record
import BulkLoad.Retry
import BulkLoad.Stats

/-!
# Importing records

An importer builds one statement from a group of records and has it executed, again and again if its
policy says so. A batch is handed to every importer in sub-batches of the importer's own size;
`Portion` is one such sub-batch. A record of the batch has failed if some importer failed on a
portion that holds it.
-/

namespace BulkLoad

/-- What a builder makes of a group of records: a statement with the number of records it carries,
an error, or a panic. -/
inductive Built where
  | statement (text : String) (count : Nat)
  | failed (error : BuildError)
  | panicked (message : String)
deriving DecidableEq

/-- Turns a group of records into one statement. A count of zero means that nothing is left to be
sent. -/
abbrev Builder := Records → Built

/-- A sink for records. Importers with the same name share the count of units outstanding for them.
The gate, if there is one, has to be released before batches are read for the importer. -/
structure Importer where
  name : String
  build : Builder
  retry : RetryPolicy := RetryPolicy.forStatements
  gate : Option String := none
  batchSize : Option Nat := none

/-- What was imported: the records that the statement carried, and its times. -/
structure Imported where
  records : Nat := 0
  latency : Duration := Duration.zero
  respTime : Duration := Duration.zero
deriving DecidableEq

/-- How the import of a group of records ended. -/
inductive ImportOutcome where
  | imported (result : Imported)
  | failed (error : ImportError)
  | panicked (message : String)
deriving DecidableEq

/-- The message with which the import panicked, if it did. -/
def ImportOutcome.panic? : ImportOutcome → Option String
  | panicked message => some message
  | imported .. | failed .. => none

/-- How an import begins: its outcome is already clear, or a statement has to be executed. -/
inductive ImportPlan where
  | settled (outcome : ImportOutcome)
  | send (statement : String) (count : Nat)
deriving DecidableEq

namespace Importer

/-- Records in one statement at the user's wish, at least one. -/
def withBatchSize (i : Importer) (size : Nat) : Importer :=
  { i with batchSize := some (max size 1) }

/-- Whether an error of the client may go away when the statement is sent again. -/
def classify : ClientError → Disposition
  | .poolNotOpen => .stop
  | _ => .retry

/-- The result of one attempt: an unsuccessful answer is an error as well. -/
def attempt (reply : Reply) : Except ClientError Response :=
  match reply with
  | .error error => .error error
  | .ok response => if response.succeeded then .ok response else .error (.rejected response.reason)

/-- Build the statement for a group of records. Without records or text there is nothing to send. -/
def plan (i : Importer) (records : Records) : ImportPlan :=
  match i.build records with
  | .panicked message => .settled (.panicked message)
  | .failed error => .settled (.failed (.build records.length error))
  | .statement text count =>
      if count == 0 || text.isEmpty then .settled (.imported {}) else .send text count

/-- The outcome of a statement that carries `count` records, once there is nothing left to try. -/
def conclude (statement : String) (count : Nat) :
    Except (RetryError ClientError) Response → ImportOutcome
  | .ok response => .imported ⟨count, response.latency, response.respTime⟩
  | .error (.fatal error) => .failed (.execute statement 1 error)
  | .error (.attemptsExceeded attempts error) => .failed (.execute statement attempts error)

/-- An import that has run to its end: its outcome, the statement and how often it was sent, the
delays in between, and the server after it. -/
structure Run (σ : Type) where
  outcome : ImportOutcome
  sent : List String
  slept : List Duration
  server : σ

/-- Import a group of records on a server that answers statements. -/
def run {σ : Type} (i : Importer) (execute : σ → String → Reply × σ) (records : Records)
    (server : σ) : Run σ :=
  match i.plan records with
  | .settled outcome => ⟨outcome, [], [], server⟩
  | .send statement count =>
      let operation (server : σ) : Except ClientError Response × σ :=
        let (reply, server) := execute server statement
        (attempt reply, server)
      let run := i.retry.run classify operation server
      ⟨conclude statement count run.result, List.replicate run.calls statement, run.slept,
        run.world⟩

/-- The size of the sub-batches for an importer, at least one: its own, or the default of the run.
-/
def portionSize (i : Importer) (default : Nat) : Nat := max (i.batchSize.getD default) 1

end Importer

/-- A sub-batch for one importer, and the position of its first record in the batch. -/
structure Portion where
  importer : Importer
  offset : Nat
  records : Records

/-- Groups of records with the positions of their first records, from a position on. -/
def placed (importer : Importer) (offset : Nat) : List Records → List Portion
  | [] => []
  | group :: rest => ⟨importer, offset, group⟩ :: placed importer (offset + group.length) rest

/-- The sub-batches of a batch, importer by importer. -/
def portions (default : Nat) (importers : List Importer) (records : Records) : List Portion :=
  importers.flatMap fun i => placed i 0 (subBatches records (i.portionSize default))

/-- Mark `count` records from a position on as failed. -/
def markFailed (marks : List Bool) (offset count : Nat) : List Bool :=
  marks.mapIdx fun position failed => failed || (offset ≤ position && position < offset + count)

/-- Account for the import of a portion that ended without a panic. The marks say which records of
the batch have failed. A statement that carried no records was not sent and does not count. -/
def Portion.account (p : Portion) (outcome : ImportOutcome) (stats : Stats) (marks : List Bool) :
    Stats.Update × List Bool :=
  match outcome with
  | .imported result =>
      if 0 < result.records then
        (stats.requestSucceeded result.records result.latency result.respTime, marks)
      else (.complete stats, marks)
  | .failed _ =>
      (.complete (stats.requestFailed p.records.length),
        markFailed marks p.offset p.records.length)
  | .panicked _ => (.complete stats, marks)

/-- The report of a portion that was not imported. -/
def Portion.failureLine (p : Portion) (graph : String) (error : ImportError) : LogLine :=
  .failure "Failed to import sub-batch"
    [("graph", graph), ("records", toString p.records.length),
      ("statement", error.statement?.getD ""), ("error", error.message)]

/-- Account for a batch whose portions have all been imported. -/
def settleBatch (stats : Stats) (units : Nat) (marks : List Bool) : Stats :=
  let failed := marks.count true
  let counted := if 0 < failed then stats.failed 0 failed else stats
  counted.succeeded units (marks.length - failed)

/-- Import a batch with the outcome of each portion at hand. The result is overflowed if accumulated
times did so; the portions after that are then not imported and the batch is not accounted for. -/
def importBatch (units : Nat) (stats : Stats) (marks : List Bool) :
    List (Portion × ImportOutcome) → Stats.Update
  | [] => .complete (settleBatch stats units marks)
  | (portion, outcome) :: rest =>
      match portion.account outcome stats marks with
      | (.overflowed stats, _) => .overflowed stats
      | (.complete stats, marks) => importBatch units stats marks rest

end BulkLoad
