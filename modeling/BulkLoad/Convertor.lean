import BulkLoad.Error
import BulkLoad.Record

/-!
# Converting raw records

A convertor expands one raw record into any number of records. It may also refuse the record or
panic. Convertors are kept in a `Registry` under names; an unknown name stands for the identity.
-/

namespace BulkLoad

/-- What becomes of a raw record. -/
inductive Conversion where
  | records (records : Records)
  | failed (error : ConvertError)
  | panicked (message : String)
deriving DecidableEq

/-- An expansion of raw records. -/
abbrev Convertor := Record → Conversion

namespace Convertor

/-- The convertor that passes each record on as it is. -/
def identity : Convertor := fun raw => .records [raw]

/-- The records that a list of raw records becomes, up to the first that is refused. -/
def convertAll (convert : Convertor) : Records → Conversion
  | [] => .records []
  | raw :: rest =>
      match convert raw with
      | .records records =>
          match convert.convertAll rest with
          | .records others => .records (records ++ others)
          | other => other
      | other => other

/-- Raw records that are all converted become what each of them becomes, in order. -/
theorem convert_all_map {α : Type} {convert : Convertor} {raw : α → Record} {images : α → Records}
    {elements : List α} (h : ∀ a ∈ elements, convert (raw a) = .records (images a)) :
    convert.convertAll (elements.map raw) = .records (elements.flatMap images) := by
  induction elements with
  | nil => rfl
  | cons a elements ih =>
      have hrest := ih fun other hother => h other (List.mem_cons_of_mem _ hother)
      rw [List.map_cons, convertAll, h a List.mem_cons_self, hrest]
      rfl

/-- Convertors by name, in the order of their names. -/
structure Registry where
  entries : List (String × Convertor)

namespace Registry

/-- The name of the identity. -/
def identityName : String := "none"

/-- The registry that knows nothing but the identity. -/
def initial : Registry := ⟨[(identityName, identity)]⟩

/-- Put an entry in its place among entries in the order of names, instead of one of its name. -/
def insert (name : String) (convert : Convertor) :
    List (String × Convertor) → List (String × Convertor)
  | [] => [(name, convert)]
  | (other, present) :: rest =>
      if name == other then (name, convert) :: rest
      else if name < other then (name, convert) :: (other, present) :: rest
      else (other, present) :: insert name convert rest

/-- Register a convertor under a name, in place of one that had the name before. -/
def register (r : Registry) (name : String) (convert : Convertor) : Registry :=
  ⟨insert name convert r.entries⟩

/-- Whether the name is registered. -/
def contains (r : Registry) (name : String) : Bool := (r.entries.lookup name).isSome

/-- The convertor with this name, or the identity if there is none. -/
def get (r : Registry) (name : String) : Convertor := (r.entries.lookup name).getD identity

/-- The registry as it is shown to a reader. -/
def shown (r : Registry) : String :=
  "ConvertorRegistry \x7b convertors: [" ++
    ", ".intercalate (r.entries.map fun (name, _) => Text.quoted name) ++ "] \x7d"

end Registry

end Convertor

end BulkLoad
