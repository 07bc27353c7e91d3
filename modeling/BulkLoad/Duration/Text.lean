import BulkLoad.Decimal.Fixed
import BulkLoad.Duration
import BulkLoad.Json.Basic

/-!
# How time spans are shown

A span is shown in the largest of the units second, millisecond, microsecond and nanosecond of which
it holds at least one, exactly, without trailing zeros. In JSON it is an object of its two parts.
-/

namespace BulkLoad.Duration

/-- A text of digits without its trailing zeros. -/
def trimZeros (digits : String) : String :=
  String.ofList (digits.toList.reverse.dropWhile (· == '0')).reverse

/-- A number of units with a fraction of `places` digits, written exactly. -/
def inUnits (whole fraction places : Nat) (unit : String) : String :=
  let rest := trimZeros (Decimal.padLeft places (toString fraction))
  toString whole ++ (if rest.isEmpty then "" else "." ++ rest) ++ unit

/-- The text of a span. -/
def shown (d : Duration) : String :=
  if 0 < d.secs then inUnits d.secs d.nanos 9 "s"
  else if 1000000 ≤ d.nanos then inUnits (d.nanos / 1000000) (d.nanos % 1000000) 6 "ms"
  else if 1000 ≤ d.nanos then inUnits (d.nanos / 1000) (d.nanos % 1000) 3 "µs"
  else inUnits d.nanos 0 0 "ns"

/-- The JSON form of a span. -/
def toJson (d : Duration) : Json :=
  Json.ofMembers [("secs", Json.ofNat d.secs), ("nanos", Json.ofNat d.nanos)]

end BulkLoad.Duration
