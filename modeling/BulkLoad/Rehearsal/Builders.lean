import BulkLoad.Importer

/-!
# Builders for rehearsals

Builders of statements that are easy to recognize, and builders that fail.
-/

namespace BulkLoad.Rehearsal

/-- Records as one text: fields are separated by colons and records by commas. -/
def joined (records : Records) : String :=
  ",".intercalate (records.map fun record => ":".intercalate record)

/-- Insert all records. -/
def joining : Builder := fun records => .statement ("INSERT " ++ joined records) records.length

/-- The first record with fewer than `least` fields, with its position and its number of fields. -/
def firstShort? (least : Nat) (records : Records) : Option (Nat × Nat) :=
  (records.zipIdx.find? fun (record, _) => record.length < least).map fun (record, index) =>
    (index, record.length)

/-- Put all records, unless one has fewer than `least` fields. -/
def requiring (least : Nat) : Builder := fun records =>
  match firstShort? least records with
  | some (index, actual) => .failed (.missingField index least actual)
  | none => .statement ("PUT " ++ joined records) records.length

/-- Fail on every group of records. -/
def refusing (error : BuildError) : Builder := fun _ => .failed error

/-- Give the same statement for every group of records. -/
def fixed (statement : String) (count : Nat) : Builder := fun _ => .statement statement count

/-- Panic on every group of records. -/
def panicking : Builder := fun _ => .panicked "builder boom"

end BulkLoad.Rehearsal
