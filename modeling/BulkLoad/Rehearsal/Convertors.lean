import BulkLoad.Convertor

/-!
# Convertors for rehearsals

A rehearsal runs an import against scripted parts instead of real ones. These are the convertors
that it knows by name.
-/

namespace BulkLoad.Rehearsal

/-- Split the second field of a record of two fields at its bars, with one record for each part that
is not empty. -/
def tags : Convertor
  | [key, parts] => .records (((parts.splitOn "|").filter (!·.isEmpty)).map fun part => [key, part])
  | raw => .failed (.fieldCount 2 raw.length)

/-- Give each record twice, the second time in capital letters of ASCII. The first field can ask for
nothing, a failure or a panic instead. -/
def double : Convertor := fun raw =>
  match raw.head? with
  | some "skip" => .records []
  | some "bad" => .failed (.other "bad")
  | some "boom" => .panicked "convertor boom"
  | _ => .records [raw, raw.map fun field => field.map Char.toUpper]

/-- Give nothing. -/
def drop : Convertor := fun _ => .records []

/-- The convertors of a rehearsal. -/
def registry : Convertor.Registry :=
  ((Convertor.Registry.initial.register "tags" tags).register "double" double).register "drop" drop

end BulkLoad.Rehearsal
