import BulkLoad.Importer
import BulkLoad.Proofs.SubBatches
import Mathlib.Data.List.Forall2

/-!
# The portions of a batch

A batch reaches each importer in portions of its own size. They are consecutive, none of them is
empty, and together they are the batch (`delivered_portions`); each lies in the batch where its
offset says (`part_of_portions`).
-/

namespace BulkLoad

/-! ## Portions -/

/-- A group of portions makes up a batch for an importer: each holds records of the batch, and one
after the other they are the batch. -/
structure MakesUp (records : Records) (importer : Importer) (group : List Portion) : Prop where
  importer : ∀ p ∈ group, p.importer = importer
  nonempty : ∀ p ∈ group, p.records ≠ []
  complete : (group.map Portion.records).flatten = records

/-- A batch has been handed to importers, one after the other, in portions that make it up for each
of them. -/
def Delivered (importers : List Importer) (records : Records) (handed : List Portion) : Prop :=
  ∃ groups : List (List Portion), handed = groups.flatten ∧
    List.Forall₂ (MakesUp records) importers groups

/-- A portion holds what lies at its offset in a batch. -/
structure Portion.IsPartOf (p : Portion) (records : Records) : Prop where
  nonempty : p.records ≠ []
  placed : p.records <+: records.drop p.offset

/-- Placed groups go to one importer. -/
theorem importer_of_placed {importer : Importer} {offset : Nat} {groups : List Records}
    {p : Portion} (h : p ∈ placed importer offset groups) : p.importer = importer := by
  induction groups generalizing offset with
  | nil => cases h
  | cons group rest ih =>
      rcases List.mem_cons.mp h with rfl | h
      · rfl
      · exact ih h

/-- The portions of a batch go to its importers. -/
theorem importer_of_portions {default : Nat} {importers : List Importer} {records : Records}
    {p : Portion} (h : p ∈ portions default importers records) : p.importer ∈ importers := by
  obtain ⟨i, hi, hp⟩ := List.mem_flatMap.mp h
  rwa [importer_of_placed hp]

/-- Placing groups keeps them. -/
theorem records_placed (importer : Importer) (offset : Nat) (groups : List Records) :
    (placed importer offset groups).map Portion.records = groups := by
  induction groups generalizing offset with
  | nil => rfl
  | cons group rest ih => rw [placed, List.map_cons, ih]

/-- Groups that lie one after the other in a batch are placed at their positions. -/
theorem prefix_of_placed {importer : Importer} {offset : Nat} {groups : List Records}
    {records : Records} (hgroups : records.drop offset = groups.flatten) {p : Portion}
    (h : p ∈ placed importer offset groups) : p.records <+: records.drop p.offset := by
  induction groups generalizing offset with
  | nil => cases h
  | cons group rest ih =>
      rw [List.flatten_cons] at hgroups
      rcases List.mem_cons.mp h with rfl | h
      · exact ⟨rest.flatten, hgroups.symm⟩
      · -- The next offset lies behind the group, so the other groups follow from there.
        refine ih ?_ h
        rw [← List.drop_drop, hgroups, List.drop_left]

variable {default : Nat} {importers : List Importer} {records : Records}

/-- The portions for one importer make up the batch. -/
theorem makes_up_placed (default : Nat) (importer : Importer) (records : Records) :
    MakesUp records importer
      (placed importer 0 (subBatches records (importer.portionSize default))) where
  importer := fun _ hp => importer_of_placed hp
  nonempty := fun p hp => by
    have hrecords := List.mem_map_of_mem (f := Portion.records) hp
    rw [records_placed] at hrecords
    exact ne_nil_of_mem_sub_batches hrecords
  complete := by rw [records_placed, flatten_sub_batches]

/-- The portions of a batch deliver it to the importers. -/
theorem delivered_portions (default : Nat) (importers : List Importer) (records : Records) :
    Delivered importers records (portions default importers records) := by
  refine ⟨importers.map fun i => placed i 0 (subBatches records (i.portionSize default)),
    List.flatMap_def, ?_⟩
  rw [List.forall₂_map_right_iff, List.forall₂_same]
  exact fun importer _ => makes_up_placed default importer records

/-- Every portion of a batch is a part of it. -/
theorem part_of_portions {p : Portion} (h : p ∈ portions default importers records) :
    p.IsPartOf records := by
  obtain ⟨importer, -, hp⟩ := List.mem_flatMap.mp h
  refine ⟨(makes_up_placed default importer records).nonempty p hp, prefix_of_placed ?_ hp⟩
  rw [List.drop_zero, flatten_sub_batches]

end BulkLoad
