import BulkLoad.Importer
import BulkLoad.PendingUnits

/-!
# Outstanding units by importer

Importers with the same name share one count of outstanding units.
-/

namespace BulkLoad.Manager

/-- The outstanding units by the name of the importer. A name that is missing has none. -/
abbrev Units := List (String × PendingUnits)

namespace Units

/-- The units of one importer. -/
def get (u : Units) (name : String) : PendingUnits := (u.lookup name).getD {}

/-- The number of outstanding units of one importer. -/
def count (u : Units) (name : String) : Nat := (u.get name).count

/-- Put other units in place of those of one importer. -/
def put (u : Units) (name : String) (units : PendingUnits) : Units :=
  match u with
  | [] => [(name, units)]
  | (other, present) :: rest =>
      if name == other then (name, units) :: rest else (other, present) :: put rest name units

/-- Take a unit for each of the importers. -/
def acquire (u : Units) (importers : List Importer) : Units :=
  importers.foldl (fun u i => u.put i.name (u.get i.name).acquire) u

/-- Give back a unit for each of the importers. -/
def release (u : Units) (importers : List Importer) : Units :=
  importers.foldl (fun u i => u.put i.name (u.get i.name).release) u

end Units

end BulkLoad.Manager
