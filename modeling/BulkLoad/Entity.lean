import BulkLoad.Importer

/-!
# Statements that insert vertices and edges

The first field of a record is the key of the entity and the others are its values. Records without
a key are left out.
-/

namespace BulkLoad

/-- What an inserted entity is. -/
inductive EntityKind where
  | vertex
  | edge
deriving DecidableEq

/-- The word for the kind of an entity in a statement. -/
def EntityKind.word : EntityKind → String
  | vertex => "VERTEX"
  | edge => "EDGE"

/-- The entity of a record, if it has a key. -/
def entityText? : Record → Option String
  | [] => none
  | key :: values =>
      if key.isEmpty then none else some ("\"" ++ key ++ "\":(" ++ ",".intercalate values ++ ")")

/-- The builder of statements that insert entities with this name. -/
def entityBuilder (kind : EntityKind) (name : String) : Builder := fun records =>
  let values := records.filterMap entityText?
  if values.isEmpty then .statement "" 0
  else
    .statement
      ("INSERT " ++ kind.word ++ " " ++ name ++ " VALUES " ++ ", ".intercalate values ++ ";")
      values.length

end BulkLoad
