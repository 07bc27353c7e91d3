import BulkLoad.Duration
import BulkLoad.Error

/-!
# Statements and their answers

What a server reports about a statement that was executed.
-/

namespace BulkLoad

/-- The answer to a statement. A statement that was not executed takes no time. -/
structure Response where
  succeeded : Bool := false
  error : Option String := none
  latency : Duration := Duration.zero
  respTime : Duration := Duration.zero
deriving DecidableEq

/-- The answer to a statement that was executed, with the time of the server and the time until the
answer arrived. -/
def Response.success (latency respTime : Duration) : Response :=
  { succeeded := true, latency, respTime }

/-- The answer to a statement that was refused. -/
def Response.failure (error : String) : Response := { error := some error }

/-- The reason of an unsuccessful answer. -/
def Response.reason (r : Response) : String := r.error.getD "unknown error"

/-- What comes back when a statement is sent. -/
abbrev Reply := Except ClientError Response

end BulkLoad
