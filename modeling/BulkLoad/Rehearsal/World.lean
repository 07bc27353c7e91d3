import BulkLoad.InMemory.Files
import BulkLoad.InMemory.Pool
import BulkLoad.InMemory.Table
import BulkLoad.Manager.Step
import BulkLoad.Rehearsal.Clock
import BulkLoad.Rehearsal.Server
import BulkLoad.Rehearsal.Source
import BulkLoad.Rehearsal.Schedule

/-!
# The world of a rehearsal

A run is rehearsed against a world that answers all its requests: sources and their readers, a
client pool, gates that are released by hand, and a clock that moves only when nothing else can
happen. A request that the world does not answer blocks whoever made it.
-/

namespace BulkLoad.Rehearsal

open Manager (Actor Request)

/-- What a scripted reader does next: it waits for a gate, or it answers. -/
inductive Item where
  | gate (name : String)
  | answer (outcome : BatchOutcome)

/-- How the batches of a source are read: from a reader of single records, from pages, or from a
script after which the source is exhausted. -/
inductive Feed where
  | stream (reader : StreamReader)
  | query (reader : QueryReader)
  | script (items : List Item)

/-- What a source is. -/
inductive Origin where
  | scripted (source : Source)
  | file (file : InMemory.LocalFile)
  | table (table : InMemory.Table)

/-- A source with its reader, how often it was asked to open and to close, and the statements it was
sent with the latest first. -/
structure Supply where
  origin : Origin
  feed : Feed
  opened : Nat := 0
  closed : Nat := 0
  statements : List String := []

/-- What answers statements. -/
inductive Backend where
  | scripted (server : Server)
  | memory (pool : InMemory.Pool)

/-- The world: its time in milliseconds, the released gates, the files, the sources by the number of
their job, and the client pool with the calls to open it, to close it, and to close clients.
`timers` are the moments in nanoseconds at which actors go on, `deferred` are the jobs whose reads
have been handed to another thread, and `logs` are the lines of the readers with the latest first.
-/
structure World where
  now : Nat := 0
  released : List String := []
  directory : InMemory.Directory := []
  supplies : List Supply := []
  backend : Backend
  poolOpened : Nat := 0
  poolClosed : Nat := 0
  clientsClosed : Nat := 0
  timers : List (Actor × Nat) := []
  deferred : List Nat := []
  logs : List LogLine := []

namespace Origin

/-- The name of the source. -/
def name : Origin → String
  | scripted source => source.name
  | file f => f.name
  | table _ => InMemory.Table.sourceName

/-- Open the source, unless a gate stands before it. -/
def «open» (released : List String) (directory : InMemory.Directory) :
    Origin → Option (Except SourceError Unit × Origin)
  | scripted source =>
      if (source.openGate.map fun gate => released.contains gate).getD true then
        some (match source.openError with | some e => .error e | none => .ok (), scripted source)
      else none
  | file f =>
      let (result, f) := f.open directory
      some (result, file f)
  | table t => some (.ok (), table t)

/-- The size of the source. -/
def size (directory : InMemory.Directory) : Origin → Except SourceError Nat
  | scripted source => source.size
  | file f => f.size directory
  | table t => .ok t.rows.length

/-- Close the source. -/
def close : Origin → Except SourceError Unit × Origin
  | scripted source =>
      (match source.closeError with | some e => .error e | none => .ok (), scripted source)
  | file f => (.ok (), file f.close)
  | table t => (.ok (), table t)

/-- Answer a statement. Files have no pages. -/
def query (statement : String) : Origin → Page × Origin
  | scripted source =>
      let (page, source) := source.query
      (page, scripted source)
  | table t =>
      let (page, t) := t.query statement
      (page, table t)
  | file f => (.ok [], file f)

end Origin

namespace Supply

/-- Read a batch, with the lines of the reader. Before a closed gate there is none. -/
def read (s : Supply) (released : List String) : Option (BatchOutcome × List LogLine × Supply) :=
  match s.feed with
  | .stream reader =>
      let (outcome, logs, reader) := reader.readBatch
      some (outcome, logs, { s with feed := .stream reader })
  | .query reader =>
      let (page, origin) := s.origin.query reader.statement
      let (outcome, next) := reader.receive page
      some (outcome, [],
        { s with origin, feed := .query next, statements := reader.statement :: s.statements })
  | .script items =>
      match items.dropWhile fun item =>
          match item with
          | .gate name => released.contains name
          | .answer _ => false with
      | [] => some (.error .eof, [], { s with feed := .script [] })
      | .gate _ :: _ => none
      | .answer outcome :: rest => some (outcome, [], { s with feed := .script rest })

/-- Whether reads are handed to another thread. -/
def defers (s : Supply) : Bool :=
  match s.feed with
  | .stream _ => true
  | _ => false

end Supply

namespace Backend

/-- Execute a statement of an import. -/
def execute (statement : String) : Backend → Reply × Backend
  | scripted server =>
      let (reply, server) := server.answer statement
      (reply, scripted server)
  | memory pool =>
      let (reply, pool) := pool.execute statement
      (reply, memory pool)

/-- Execute a statement of a hook. -/
def executeHook (statement : String) : Backend → Reply × Backend
  | scripted server =>
      let (reply, server) := server.answer statement
      (reply, scripted server)
  | memory pool =>
      let (reply, pool) := pool.executeHook statement
      (reply, memory pool)

/-- The result of opening the pool, and the pool after it. -/
def «open» : Backend → Except ClientError Unit × Backend
  | scripted server =>
      (match server.openError with | some e => .error e | none => .ok (), scripted server)
  | memory pool => (.ok (), memory pool.open)

/-- The result of closing the pool, and the pool after it. -/
def close : Backend → Except ClientError Unit × Backend
  | scripted server =>
      (match server.closeError with | some e => .error e | none => .ok (), scripted server)
  | memory pool => (.ok (), memory pool.close)

/-- The result of asking for a client. -/
def openClient : Backend → Except ClientError Unit
  | scripted server => match server.clientError with | some e => .error e | none => .ok ()
  | memory _ => .ok ()

/-- The result of closing a client, and whether it is counted. -/
def closeClient : Backend → Except ClientError Unit × Bool
  | scripted server =>
      if server.countsClientCloses then
        (match server.clientCloseError with | some e => .error e | none => .ok (), true)
      else (.ok (), false)
  | memory _ => (.ok (), false)

end Backend

namespace World

/-- Put another source in place of that of a job. -/
def putSupply (w : World) (job : Nat) (supply : Supply) : World :=
  { w with supplies := w.supplies.set job supply }

/-- Answer a request, if it can be answered now. -/
def respond (w : World) (actor : Actor) : Request → Option (Answer × World)
  | .turn => some (.go, w)
  | .openSource job => do
      let supply ← w.supplies[job]?
      let (result, origin) ← supply.origin.open w.released w.directory
      return (.source result, w.putSupply job { supply with origin, opened := supply.opened + 1 })
  | .sizeSource job => do
      let supply ← w.supplies[job]?
      return (.size (supply.origin.size w.directory), w)
  | .closeSource job => do
      let supply ← w.supplies[job]?
      let (result, origin) := supply.origin.close
      return (.source result, w.putSupply job { supply with origin, closed := supply.closed + 1 })
  | .readBatch job => do
      let supply ← w.supplies[job]?
      let (outcome, logs, supply) ← supply.read w.released
      return (.batch outcome,
        { w.putSupply job supply with
          logs := logs.reverse ++ w.logs, deferred := w.deferred.filter (· != job) })
  | .importer importer =>
      if (importer.gate.map fun gate => w.released.contains gate).getD true then some (.ready, w)
      else none
  | .openPool =>
      let (result, backend) := w.backend.open
      some (.client result, { w with backend, poolOpened := w.poolOpened + 1 })
  | .closePool =>
      let (result, backend) := w.backend.close
      some (.client result, { w with backend, poolClosed := w.poolClosed + 1 })
  | .openClient => some (.client w.backend.openClient, w)
  | .closeClient =>
      let (result, counts) := w.backend.closeClient
      some (.client result,
        { w with clientsClosed := if counts then w.clientsClosed + 1 else w.clientsClosed })
  | .hook statement =>
      let (reply, backend) := w.backend.executeHook statement
      some (.reply reply, { w with backend })
  | .execute statement =>
      let (reply, backend) := w.backend.execute statement
      some (.reply reply, { w with backend })
  | .timer _ =>
      match w.timers.lookup actor with
      | some moment => if millisAfter moment ≤ w.now then some (.elapsed, w) else none
      | none => none

/-- Set the timer of an actor for its next request. Spans between progress reports follow each other
without a gap; all others begin now. -/
def setTimer (w : World) (actor : Actor) (request : Request) : World :=
  let others := w.timers.filter fun (other, _) => other != actor
  match request with
  | .timer duration =>
      let start :=
        match actor, w.timers.lookup actor with
        | .reporter, some moment => moment
        | _, _ => w.now * 1000000
      { w with timers := (actor, start + (sleepTime duration).totalNanos) :: others }
  | _ => { w with timers := others }

/-- The next moment in milliseconds at which a timer goes off. -/
def nextTimer? (w : World) : Option Nat :=
  ((w.timers.map fun (_, moment) => millisAfter moment).filter (w.now < ·)).min?

/-- Release a gate. The answer says whether it was closed until now. -/
def release (w : World) (gate : String) : Bool × World :=
  let (fresh, _) := (Gate.mk (w.released.contains gate)).release
  (fresh, if fresh then { w with released := gate :: w.released } else w)

end World

end BulkLoad.Rehearsal
