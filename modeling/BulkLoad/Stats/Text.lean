import BulkLoad.Decimal.Fixed
import BulkLoad.Duration.Text
import BulkLoad.Json.Printer
import BulkLoad.Stats

/-!
# How the counters are shown

The share, the rates and the remaining time are computed in doubles, in the order of operations that
is written here, and shown with a fixed number of decimal places.
-/

namespace BulkLoad

/-- A span in seconds. -/
def Duration.toFloat (d : Duration) : Float :=
  d.secs.toUInt64.toFloat + d.nanos.toUInt64.toFloat / 1000000000.0

namespace Stats

/-- The share of the announced units that has been read, in percent. -/
def percentage (s : Stats) : Float :=
  if s.total == 0 then 0.0
  else s.processed.toFloat / s.total.toFloat * 100.0

/-- The time left if reading goes on as before, in whole seconds. Unknown while nothing is read. -/
def remaining (s : Stats) (now : Nat) : Option Duration :=
  let share := s.percentage
  if share ≤ 0.0 then none
  else
    let secs := (100.0 - share) / share * (s.elapsed now).toFloat
    some (Duration.ofSecs (if secs > 0.0 then secs.toUInt64.toNat else 0))

/-- Occurrences in a second. -/
def rate (s : Stats) (now : Nat) (count : UInt64) : Float :=
  let secs := (s.elapsed now).toFloat
  if secs > 0.0 then count.toFloat / secs else 0.0

/-- The rate with two decimal places. -/
def rateText (s : Stats) (now : Nat) (count : UInt64) : String :=
  Decimal.fixed 2 (s.rate now count) ++ "/s"

/-- One line that shows the progress of a run. -/
def text (s : Stats) (now : Nat) : String :=
  let remaining :=
    match s.remaining now with
    | none => "..."
    | some left => toString left.secs ++ "s"
  String.join [
    Decimal.fixed 0 (s.elapsed now).toFloat, "s ", remaining, " ",
    Decimal.fixed 2 s.percentage, "%(", toString s.processed, "/", toString s.total, ") ",
    "Records\x7bFinished: ", toString s.totalRecords,
    ", Failed: ", toString s.failedRecords,
    ", Rate: ", s.rateText now s.totalRecords, "\x7d, ",
    "Requests\x7bFinished: ", toString s.totalRequest,
    ", Failed: ", toString s.failedRequest,
    ", Latency: ", s.avgLatency.shown, "/", s.avgRespTime.shown,
    ", Rate: ", s.rateText now s.totalRequest, "\x7d, ",
    "Processed\x7bFinished: ", toString s.totalProcessed,
    ", Failed: ", toString s.failedProcessed,
    ", Rate: ", s.rateText now s.totalProcessed, "\x7d"]

/-- Year, month and day of the day that lies this many days after the beginning of 1970. The days
are counted in years that begin with March, in eras of 400 years. -/
def civilDate (days : Nat) : Nat × Nat × Nat :=
  let shifted := days + 719468
  let era := shifted / 146097
  let dayOfEra := shifted % 146097
  let yearOfEra := (dayOfEra - dayOfEra / 1460 + dayOfEra / 36524 - dayOfEra / 146096) / 365
  let dayOfYear := dayOfEra - (365 * yearOfEra + yearOfEra / 4 - yearOfEra / 100)
  let monthFromMarch := (5 * dayOfYear + 2) / 153
  let day := dayOfYear - (153 * monthFromMarch + 2) / 5 + 1
  let month := if monthFromMarch < 10 then monthFromMarch + 3 else monthFromMarch - 9
  (era * 400 + yearOfEra + (if month ≤ 2 then 1 else 0), month, day)

/-- A number with at least two digits. -/
def twoDigits (n : Nat) : String := Decimal.padLeft 2 (toString n)

/-- A fraction of a second with as many groups of three digits as it needs. -/
def fractionText (nanos : Nat) : String :=
  if nanos == 0 then ""
  else if nanos % 1000000 == 0 then "." ++ Decimal.padLeft 3 (toString (nanos / 1000000))
  else if nanos % 1000 == 0 then "." ++ Decimal.padLeft 6 (toString (nanos / 1000))
  else "." ++ Decimal.padLeft 9 (toString nanos)

/-- A moment given in nanoseconds since the beginning of 1970 as a date and a time of day. -/
def timestamp (nanos : Nat) : String :=
  let secs := nanos / 1000000000
  let (year, month, day) := civilDate (secs / 86400)
  String.join [
    Decimal.padLeft 4 (toString year), "-", twoDigits month, "-", twoDigits day, "T",
    twoDigits (secs / 3600 % 24), ":", twoDigits (secs / 60 % 60), ":", twoDigits (secs % 60),
    fractionText (nanos % 1000000000), "Z"]

/-- The JSON form of the counters. -/
def toJson (s : Stats) : Json :=
  Json.ofMembers [
    ("start_time", Json.ofOption (fun start => Json.ofString (timestamp start)) s.startTime),
    ("total", Json.ofNat s.total.toNat),
    ("processed", Json.ofNat s.processed.toNat),
    ("total_records", Json.ofNat s.totalRecords.toNat),
    ("failed_records", Json.ofNat s.failedRecords.toNat),
    ("total_request", Json.ofNat s.totalRequest.toNat),
    ("failed_request", Json.ofNat s.failedRequest.toNat),
    ("total_processed", Json.ofNat s.totalProcessed.toNat),
    ("failed_processed", Json.ofNat s.failedProcessed.toNat),
    ("total_latency", s.totalLatency.toJson),
    ("total_resp_time", s.totalRespTime.toJson)]

end Stats

end BulkLoad
