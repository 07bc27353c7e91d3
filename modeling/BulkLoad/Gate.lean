/-!
# Gates

A gate is closed at first and stays open once it has been released.
-/

namespace BulkLoad

/-- A latch that is released once and for all. -/
structure Gate where
  released : Bool := false
deriving DecidableEq

/-- Release the gate. The answer says whether it was closed until now. -/
def Gate.release (g : Gate) : Bool × Gate := (!g.released, ⟨true⟩)

end BulkLoad
