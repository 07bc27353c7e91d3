import BulkLoad.Decimal.Shortest
import BulkLoad.Json.Numeral
import BulkLoad.Json.Reader
import BulkLoad.Text.Quoted

/-!
# Decoding JSON into typed values

A decoder looks at a value in the order of its text and reports the first thing it cannot accept:
a fault of the text, or a mismatch with what is expected. A record may be given as an object or as
the array of its fields. In an object the members may come in any order, unknown members are
skipped, and a known member may come only once.
-/

namespace BulkLoad.Json

/-- A value as a mismatch shows it. -/
inductive Shown where
  | null
  | boolean (value : Bool)
  | integer (n : Int)
  | real (x : Float)
  | text (s : String)
  | sequence
  | map

/-- How a well-formed value differs from what is expected. -/
inductive Mismatch where
  | invalidType (found : Shown) (expected : String)
  | invalidValue (found : Shown) (expected : String)
  | invalidLength (length : Nat) (expected : String)
  | missingField (name : String)
  | duplicateField (name : String)
  | unknownVariant (name expected : String)

/-- Why a value is not accepted. -/
inductive Refusal where
  | fault (fault : Fault)
  | mismatch (mismatch : Mismatch)

/-- A reading of values as elements of a type. -/
abbrev Decoder (α : Type) := Json → Except Refusal α

/-- How a value is named in a message. -/
def Shown.describe : Shown → String
  | null => "null"
  | boolean value => "boolean `" ++ (if value then "true" else "false") ++ "`"
  | integer n => "integer `" ++ toString n ++ "`"
  | real x => "floating point `" ++ Decimal.shortest x ++ "`"
  | text s => "string " ++ Text.quoted s
  | sequence => "sequence"
  | map => "map"

/-- The message of a mismatch. -/
def Mismatch.message : Mismatch → String
  | invalidType found expected =>
      "invalid type: " ++ found.describe ++ ", expected " ++ expected
  | invalidValue found expected =>
      "invalid value: " ++ found.describe ++ ", expected " ++ expected
  | invalidLength length expected =>
      "invalid length " ++ toString length ++ ", expected " ++ expected
  | missingField name => "missing field `" ++ name ++ "`"
  | duplicateField name => "duplicate field `" ++ name ++ "`"
  | unknownVariant name expected =>
      "unknown variant `" ++ name ++ "`, expected " ++ expected

/-- Report a fault as the reason of a refusal. -/
def orFault {α : Type} : Except Fault α → Except Refusal α
  | .ok x => .ok x
  | .error fault => .error (.fault fault)

/-- Refuse with a mismatch. -/
def refuse {α : Type} (mismatch : Mismatch) : Except Refusal α := .error (.mismatch mismatch)

/-- Refuse at the end of an array or object that its text does not close. -/
def closed (stop : Option Fault) : Except Refusal Unit :=
  match stop with
  | none => .ok ()
  | some fault => .error (.fault fault)

/-- Refuse a value that has the wrong type, after reading it as far as the message shows it. -/
def invalidType {α : Type} (expected : String) (v : Json) : Except Refusal α :=
  match v with
  | null => refuse (.invalidType .null expected)
  | bool value => refuse (.invalidType (.boolean value) expected)
  | number n =>
      match n.value with
      | .error fault => .error (.fault fault)
      | .ok (.natural n) => refuse (.invalidType (.integer n) expected)
      | .ok (.negative n) => refuse (.invalidType (.integer n) expected)
      | .ok (.real x) => refuse (.invalidType (.real x) expected)
  | string l =>
      match l.text with
      | .error fault => .error (.fault fault)
      | .ok s => refuse (.invalidType (.text s) expected)
  | array _ _ => refuse (.invalidType .sequence expected)
  | object _ _ => refuse (.invalidType .map expected)
  | broken wanted _ => .error (.fault wanted)

mutual

/-- The first fault of a value that is skipped. -/
def skip : Json → Except Refusal Unit
  | string l => closed l.stop
  | array items stop =>
      match skipItems items with
      | .ok () => closed stop
      | .error refusal => .error refusal
  | object members stop =>
      match skipMembers members with
      | .ok () => closed stop
      | .error refusal => .error refusal
  | broken _ skipped => .error (.fault skipped)
  | null | bool _ | number _ => .ok ()

/-- The first fault among values that are skipped. -/
def skipItems : List Json → Except Refusal Unit
  | [] => .ok ()
  | item :: rest =>
      match skip item with
      | .ok () => skipItems rest
      | .error refusal => .error refusal

/-- The first fault among members that are skipped. -/
def skipMembers : List (Literal × Json) → Except Refusal Unit
  | [] => .ok ()
  | (name, item) :: rest =>
      match closed name.stop with
      | .error refusal => .error refusal
      | .ok () =>
          match skip item with
          | .ok () => skipMembers rest
          | .error refusal => .error refusal

end

/-- Decode a text. -/
def text : Decoder String
  | string l => orFault l.text
  | v => invalidType "a string" v

/-- Decode null, and nothing else. -/
def unit : Decoder Unit
  | null => .ok ()
  | v => invalidType "unit" v

/-- Decode a truth value. -/
def boolean : Decoder Bool
  | bool value => .ok value
  | v => invalidType "a boolean" v

/-- Decode a single character. -/
def character : Decoder Char
  | string l =>
      match l.text with
      | .error fault => .error (.fault fault)
      | .ok s =>
          match s.toList with
          | [c] => .ok c
          | _ => refuse (.invalidValue (.text s) "a character")
  | v => invalidType "a character" v

/-- Decode a natural number of 64 bits, called by the given name in messages. -/
def natural (expected : String) : Decoder UInt64
  | number n =>
      match n.value with
      | .error fault => .error (.fault fault)
      | .ok (.natural n) => .ok n.toUInt64
      | .ok (.negative n) => refuse (.invalidValue (.integer n) expected)
      | .ok (.real x) => refuse (.invalidType (.real x) expected)
  | v => invalidType expected v

/-- Decode null as nothing, and every other value as something. -/
def optional {α : Type} (decode : Decoder α) : Decoder (Option α)
  | null => .ok none
  | v => (decode v).map some

/-- Decode the values of an array in order. -/
def decodeItems {α : Type} (decode : Decoder α) (stop : Option Fault) :
    List Json → Except Refusal (List α)
  | [] => (closed stop).map fun _ => []
  | item :: rest =>
      match decode item with
      | .error refusal => .error refusal
      | .ok x => (decodeItems decode stop rest).map (x :: ·)

/-- Decode an array. -/
def list {α : Type} (decode : Decoder α) : Decoder (List α)
  | array items stop => decodeItems decode stop items
  | v => invalidType "a sequence" v

/-- One field of a record: its name, whether it must be there, and which values it accepts. -/
structure Field where
  name : String
  required : Bool
  accepts : Json → Except Refusal Unit

/-- The field that a decoder reads. -/
def Field.of {α : Type} (name : String) (required : Bool) (decode : Decoder α) : Field :=
  ⟨name, required, fun v => (decode v).map fun _ => ()⟩

/-- The fields of a record type in their order, and the name of the type in messages. -/
structure Layout where
  title : String
  fields : List Field

/-- Where a value comes from: it is read from a text, or it is at hand as a whole. An array with
elements left over makes the text malformed; in a whole value its length is a mismatch. -/
inductive Origin where
  | document
  | whole
deriving DecidableEq

/-- The field of a name. -/
def Layout.field? (layout : Layout) (name : String) : Option Field :=
  layout.fields.find? (·.name == name)

/-- The known members of an object in the order of its text, each accepted by its field. -/
def Layout.scan (layout : Layout) (stop : Option Fault) :
    (seen : List String) → List (Literal × Json) → Except Refusal (List (String × Json))
  | _, [] => (closed stop).map fun _ => []
  | seen, (name, item) :: rest =>
      match name.text with
      | .error fault => .error (.fault fault)
      | .ok name =>
          match layout.field? name with
          | none =>
              match skip item with
              | .error refusal => .error refusal
              | .ok () => layout.scan stop seen rest
          | some field =>
              if seen.contains name then refuse (.duplicateField name)
              else
                match field.accepts item with
                | .error refusal => .error refusal
                | .ok () => (layout.scan stop (name :: seen) rest).map ((name, item) :: ·)

/-- The elements of an array as members, each accepted by the field in its place. -/
def Layout.align (layout : Layout) (origin : Origin) (stop : Option Fault) (length : Nat) :
    List Field → List Json → Except Refusal (List (String × Json))
  | [], [] => (closed stop).map fun _ => []
  | [], _ :: _ =>
      match origin with
      | .document => .error (.fault .malformed)
      | .whole => refuse (.invalidLength length "fewer elements in array")
  | field :: fields, [] =>
      match closed stop with
      | .error refusal => .error refusal
      | .ok () =>
          if field.required then
            refuse (.invalidLength (layout.fields.length - (field :: fields).length)
              (layout.title ++ " with " ++ toString layout.fields.length ++ " elements"))
          else layout.align origin stop length fields []
  | field :: fields, item :: items =>
      match field.accepts item with
      | .error refusal => .error refusal
      | .ok () =>
          (layout.align origin stop length fields items).map ((field.name, item) :: ·)

/-- The members of a record by their names. -/
def Layout.members (layout : Layout) (origin : Origin) : Decoder (List (String × Json))
  | object members stop =>
      match layout.scan stop [] members with
      | .error refusal => .error refusal
      | .ok known =>
          match layout.fields.find? fun field =>
              field.required && (known.lookup field.name).isNone with
          | some field => refuse (.missingField field.name)
          | none => .ok known
  | array items stop => layout.align origin stop items.length layout.fields items
  | v => invalidType layout.title v

/-- The value of a member, or the default when the record leaves it out. -/
def member {α : Type} (known : List (String × Json)) (name : String) (decode : Decoder α)
    (default : α) : Except Refusal α :=
  match known.lookup name with
  | none => .ok default
  | some v => decode v

/-- Decode the value at the beginning of a text, and give the text after it. -/
def decodeNext {α : Type} (decode : Decoder α) (text : List Char) :
    Except Refusal (α × List Char) :=
  let (v, rest) := read text
  (decode v).map (·, rest.getD [])

/-- The text after a mark that has to come next. -/
def after (mark : Char) (text : List Char) : Except Refusal (List Char) :=
  match skipSpace text with
  | [] => .error (.fault .ended)
  | c :: rest => if c == mark then .ok rest else .error (.fault .malformed)

/-- Refuse a text in which anything but white space is left. -/
def finished (text : List Char) : Except Refusal Unit :=
  if (skipSpace text).isEmpty then .ok () else .error (.fault .malformed)

/-- Decode a whole text: one value, with nothing but white space after it. -/
def decodeText {α : Type} (decode : Decoder α) (raw : String) : Except Refusal α := do
  let (x, rest) ← decodeNext decode raw.toList
  finished rest
  return x

end BulkLoad.Json
