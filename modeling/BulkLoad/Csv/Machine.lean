import BulkLoad.Source.Config

/-!
# Dividing bytes into records and fields

Delimited text is read by a machine that takes one byte at a time. Fields end at the delimiter and
records at a carriage return, a line feed, or both. Between double quotes every byte is content, and
a doubled quote stands for one. Blank lines and lines that begin with the comment byte are skipped.
`Draft.step` is one transition, `feed` runs it until a record is complete, and `finish` says what
the end of the input makes of what has been read.
-/

namespace BulkLoad.Csv

/-- The bytes that separate fields and begin comments. -/
structure Dialect where
  delimiter : UInt8 := 44
  comment : Option UInt8 := none
deriving DecidableEq

/-- The byte of an ASCII character. -/
def asciiByte (c : Char) : Option UInt8 := if c.toNat < 128 then some c.toNat.toUInt8 else none

/-- The dialect of a text format. Characters outside ASCII are ignored, and fields are separated by
commas unless something else is said. -/
def Dialect.of (config : CsvConfig) : Dialect where
  delimiter := (config.delimiter.bind asciiByte).getD 44
  comment := config.comment.bind asciiByte

/-- The fields of one record as bytes. -/
abbrev RawRecord := List (List UInt8)

/-- Where in a record the machine stands. `afterReturn` is the point after a record that a carriage
return has ended, where a line feed is still taken for a part of the line's end. -/
inductive Mode where
  | recordStart
  | afterReturn
  | fieldStart
  | inField
  | inQuotes
  | afterQuote
  | inComment
deriving DecidableEq

/-- A record that is being read: its complete fields and the bytes of the next field, both with the
latest first. -/
structure Draft where
  mode : Mode
  fields : RawRecord := []
  field : List UInt8 := []
deriving DecidableEq

/-- What a byte does: the record goes on, or it is complete and the machine stands before the next
one. -/
inductive Step where
  | go (draft : Draft)
  | done (record : RawRecord) (next : Mode)
deriving DecidableEq

/-- The double quote. -/
def quote : UInt8 := 34

/-- Whether the byte ends a line. -/
def isLineEnd (b : UInt8) : Bool := b == 13 || b == 10

namespace Draft

/-- The record that would be complete if its last field ended here. -/
def record (d : Draft) : RawRecord := (d.field.reverse :: d.fields).reverse

/-- End the field and begin the next one. -/
def nextField (d : Draft) : Draft := ⟨.fieldStart, d.field.reverse :: d.fields, []⟩

/-- Add a byte to the field. -/
def push (d : Draft) (mode : Mode) (b : UInt8) : Draft := ⟨mode, d.fields, b :: d.field⟩

/-- Go on in another mode. -/
def goto (d : Draft) (mode : Mode) : Draft := ⟨mode, d.fields, d.field⟩

/-- The effect of a byte that is not quoted and does not open quotes. -/
def plainByte (dialect : Dialect) (d : Draft) (b : UInt8) : Step :=
  if b == dialect.delimiter then .go d.nextField
  else if isLineEnd b then .done d.record (if b == 13 then .afterReturn else .recordStart)
  else .go (d.push .inField b)

/-- The effect of a byte at the beginning of a field. -/
def openField (dialect : Dialect) (d : Draft) (b : UInt8) : Step :=
  if b == quote then .go (d.goto .inQuotes) else d.plainByte dialect b

/-- The effect of a byte at the beginning of a record. -/
def openRecord (dialect : Dialect) (d : Draft) (b : UInt8) : Step :=
  if isLineEnd b then .go (d.goto .recordStart)
  else if some b == dialect.comment then .go (d.goto .inComment)
  else d.openField dialect b

/-- The effect of one byte. -/
def step (dialect : Dialect) (d : Draft) (b : UInt8) : Step :=
  match d.mode with
  | .recordStart => d.openRecord dialect b
  | .afterReturn =>
      if b == 10 then .go (d.goto .recordStart) else d.openRecord dialect b
  | .fieldStart => d.openField dialect b
  | .inField => d.plainByte dialect b
  | .inQuotes => .go (if b == quote then d.goto .afterQuote else d.push .inQuotes b)
  | .afterQuote =>
      if b == quote then .go (d.push .inQuotes b) else d.plainByte dialect b
  | .inComment => .go (d.goto (if b == 10 then .recordStart else .inComment))

/-- What the end of the input makes of a draft: nothing between two records, and otherwise a last
record, which is so even within a comment. -/
def finish (d : Draft) : Option RawRecord :=
  match d.mode with
  | .recordStart | .afterReturn => none
  | _ => some d.record

end Draft

/-- What bytes do: they are used up by an incomplete record, or a record is complete and some bytes
are left. -/
inductive Fed where
  | partly (draft : Draft)
  | whole (record : RawRecord) (next : Mode) (rest : List UInt8)
deriving DecidableEq

/-- Take bytes until a record is complete. -/
def feed (dialect : Dialect) (d : Draft) : List UInt8 → Fed
  | [] => .partly d
  | b :: rest =>
      match d.step dialect b with
      | .go next => feed dialect next rest
      | .done record next => .whole record next rest

/-- A record that is complete leaves fewer bytes than there were. -/
theorem length_rest_lt {dialect : Dialect} {d : Draft} {bytes : List UInt8} {record : RawRecord}
    {next : Mode} {rest : List UInt8} (h : feed dialect d bytes = .whole record next rest) :
    rest.length < bytes.length := by
  induction bytes generalizing d with
  | nil => simp [feed] at h
  | cons b bytes ih =>
      simp only [feed] at h
      split at h
      · exact Nat.lt_succ_of_lt (ih h)
      · cases h
        exact Nat.lt_succ_self _

/-- All records of a byte string that is at hand as a whole. -/
def recordsFrom (dialect : Dialect) (mode : Mode) (bytes : List UInt8) : List RawRecord :=
  match _h : feed dialect ⟨mode, [], []⟩ bytes with
  | .partly d => d.finish.toList
  | .whole record next rest => record :: recordsFrom dialect next rest
termination_by bytes.length
decreasing_by exact length_rest_lt ‹_›

end BulkLoad.Csv
