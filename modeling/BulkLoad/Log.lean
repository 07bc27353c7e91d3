/-!
# Log lines

A warning or an error that the program reports beside its results, with named fields in order.
-/

namespace BulkLoad

/-- How grave a reported event is. -/
inductive Level where
  | warn
  | error
deriving DecidableEq

/-- One reported event: its message, and its fields with their texts. -/
structure LogLine where
  level : Level
  message : String
  fields : List (String × String) := []
deriving DecidableEq

/-- The word for a level. -/
def Level.word : Level → String
  | warn => "WARN"
  | error => "ERROR"

/-- The line as it is written. -/
def LogLine.text (line : LogLine) : String :=
  line.level.word ++ " " ++ line.message ++
    String.join (line.fields.map fun (name, value) => " " ++ name ++ "=" ++ value)

/-- A warning. -/
def LogLine.warning (message : String) (fields : List (String × String)) : LogLine :=
  ⟨.warn, message, fields⟩

/-- An error. -/
def LogLine.failure (message : String) (fields : List (String × String)) : LogLine :=
  ⟨.error, message, fields⟩

end BulkLoad
