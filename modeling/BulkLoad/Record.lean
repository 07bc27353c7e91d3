/-!
# Records and sub-batches

A record is a row of positional text fields without column names. A batch of records is cut into
sub-batches of at most a given size; `subBatches` keeps the order and loses nothing.
-/

namespace BulkLoad

/-- One logical row: its fields in column order. -/
abbrev Record := List String

/-- Rows in the order in which they were read. -/
abbrev Records := List Record

/-- Consecutive groups of `size` elements; the last group may be shorter. A size of zero counts as
one, and nothing gives no groups. -/
def subBatches {α : Type} (elements : List α) (size : Nat) : List (List α) :=
  match elements with
  | [] => []
  | first :: rest =>
      (first :: rest).take (max size 1) :: subBatches ((first :: rest).drop (max size 1)) size
termination_by elements.length
decreasing_by
  have : 0 < max size 1 := by omega
  simp only [List.length_drop, List.length_cons]
  omega

end BulkLoad
