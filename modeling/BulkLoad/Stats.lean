import BulkLoad.Duration

/-!
# Counters of an import run

`Stats` counts what has been read, handed on and executed. `total` and `processed` are measured in
units of the sources: bytes of a file, rows of a table. The records are those handed to importers,
the requests are executed statements, and `totalProcessed` counts the records that statements
carried. Counters are words of 64 bits, and what is counted beyond that wraps around, as it does in
a build that does not check additions: a counter is what has been counted in all as long as that is
less than 2^64. Accumulated times can overflow; `requestSucceeded` then stops halfway, and what it
changed before stays changed.
-/

namespace BulkLoad

/-- The counters at one moment. The start is in nanoseconds since the beginning of 1970. -/
structure Stats where
  startTime : Option Nat := none
  total : UInt64 := 0
  processed : UInt64 := 0
  totalRecords : UInt64 := 0
  failedRecords : UInt64 := 0
  totalRequest : UInt64 := 0
  failedRequest : UInt64 := 0
  totalProcessed : UInt64 := 0
  failedProcessed : UInt64 := 0
  totalLatency : Duration := Duration.zero
  totalRespTime : Duration := Duration.zero
deriving DecidableEq

/-- An update that went through, or one that broke off with what it had changed until then. -/
inductive Stats.Update where
  | complete (stats : Stats)
  | overflowed (stats : Stats)
deriving DecidableEq

namespace Stats

instance : Inhabited Stats := ⟨{}⟩

/-- The counters after an update, whether it went through or not. -/
def Update.stats : Update → Stats
  | complete stats => stats
  | overflowed stats => stats

/-- The message of an update that broke off. -/
def overflowMessage : String := "overflow when adding durations"

/-- Record the time of the start. Only the first start counts. -/
def init (s : Stats) (now : Nat) : Stats :=
  if s.startTime.isNone then { s with startTime := some now } else s

/-- Announce units that will be read. -/
def addTotal (s : Stats) (units : Nat) : Stats := { s with total := s.total + .ofNat units }

/-- Count units that were read and records of which some importer failed. -/
def failed (s : Stats) (units records : Nat) : Stats :=
  { s with
    processed := s.processed + .ofNat units
    failedRecords := s.failedRecords + .ofNat records
    totalRecords := s.totalRecords + .ofNat records }

/-- Count units that were read and records on which no importer failed. -/
def succeeded (s : Stats) (units records : Nat) : Stats :=
  { s with
    processed := s.processed + .ofNat units
    totalRecords := s.totalRecords + .ofNat records }

/-- Count a failed statement and the records it carried. -/
def requestFailed (s : Stats) (records : Nat) : Stats :=
  { s with
    failedRequest := s.failedRequest + 1
    totalRequest := s.totalRequest + 1
    failedProcessed := s.failedProcessed + .ofNat records
    totalProcessed := s.totalProcessed + .ofNat records }

/-- Count an executed statement, its times, and then the records it carried. -/
def requestSucceeded (s : Stats) (records : Nat) (latency respTime : Duration) : Update :=
  let counted := { s with totalRequest := s.totalRequest + 1 }
  match counted.totalLatency.add? latency with
  | none => .overflowed counted
  | some totalLatency =>
      let delayed := { counted with totalLatency }
      match delayed.totalRespTime.add? respTime with
      | none => .overflowed delayed
      | some totalRespTime =>
          .complete
            { delayed with
              totalRespTime
              totalProcessed := delayed.totalProcessed + .ofNat records }

/-- Records on which no importer failed. -/
def succeededRecords (s : Stats) : Nat := s.totalRecords.toNat - s.failedRecords.toNat

/-- Whether any record or request failed. -/
def isFailed (s : Stats) : Bool := 0 < s.failedRecords || 0 < s.failedRequest

/-- The share of one succeeded request in an accumulated time. It is empty when no request succeeded
and when their number takes more than 32 bits. -/
def average (s : Stats) (accumulated : Duration) : Duration :=
  let succeeded := s.totalRequest.toNat - s.failedRequest.toNat
  if succeeded < 4294967296 then accumulated.divide succeeded else Duration.zero

/-- The average time that the server took. -/
def avgLatency (s : Stats) : Duration := s.average s.totalLatency

/-- The average time until the answer arrived. -/
def avgRespTime (s : Stats) : Duration := s.average s.totalRespTime

/-- The time since the start, empty before the start. -/
def elapsed (s : Stats) (now : Nat) : Duration :=
  match s.startTime with
  | none => Duration.zero
  | some start => Duration.ofNanos (now - start)

end Stats

end BulkLoad
