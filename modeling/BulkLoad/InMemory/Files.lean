import BulkLoad.Csv.Outcomes
import BulkLoad.Reader.Stream

/-!
# Files in a directory

A directory holds files by name. A path leads through it to a file or to a directory, and the system
says why if it leads nowhere. A `LocalFile` is a source of delimited text at a path; it is read from
its beginning each time it is opened, and it can be expanded from a pattern on names.
-/

namespace BulkLoad.InMemory

/-- The content of each file by name. -/
abbrev Directory := List (String × List UInt8)

/-- Why a path leads nowhere, or why what lies there cannot be read. -/
inductive PathError where
  | missing
  | notDirectory
  | isDirectory
  | nameTooLong
  | nulByte
deriving DecidableEq

/-- The text of the system for an error. -/
def PathError.message : PathError → String
  | missing => "No such file or directory (os error 2)"
  | notDirectory => "Not a directory (os error 20)"
  | isDirectory => "Is a directory (os error 21)"
  | nameTooLong => "File name too long (os error 36)"
  | nulByte => "file name contained an unexpected NUL byte"

/-- Where a path leads: to a file with its content, to the directory that holds the files, or to a
directory beyond it, in which nothing is known to lie. -/
inductive Place where
  | file (content : List UInt8)
  | here
  | beyond
deriving DecidableEq

/-- The most bytes in the name of a file. -/
def longestName : Nat := 255

/-- The most bytes in a path. -/
def longestPath : Nat := 4095

/-- Follow names from a place. A name that is empty or a single point stays in a directory. -/
def Directory.follow (d : Directory) : Place → List String → Except PathError Place
  | place, [] => .ok place
  | .file _, _ :: _ => .error .notDirectory
  | place, name :: rest =>
      if name == "" || name == "." then d.follow place rest
      else if name == ".." then d.follow .beyond rest
      else if longestName < name.utf8ByteSize then .error .nameTooLong
      else
        match place, d.lookup name with
        | .here, some content => d.follow (.file content) rest
        | _, _ => .error .missing

/-- Where a path leads. A path that begins with a slash does not begin in the directory. -/
def Directory.resolve (d : Directory) (path : String) : Except PathError Place :=
  if path.toList.contains '\x00' then .error .nulByte
  else if path.isEmpty then .error .missing
  else if longestPath < path.utf8ByteSize then .error .nameTooLong
  else d.follow (if path.startsWith "/" then .beyond else .here) (path.splitOn "/")

/-- The part of a name behind its last point. A name that has no other point than one at its
beginning has no such part. -/
def extension? (name : String) : Option String :=
  let reversed := name.toList.reverse
  let extension := reversed.takeWhile (· != '.')
  let stem := (reversed.drop extension.length).drop 1
  if stem.isEmpty then none else some (String.ofList extension.reverse)

/-- The descriptions of the files with an extension in the directory at a path, in the order of
their names. -/
def Directory.glob (d : Directory) (path extension : String) :
    Except SourceError (List SourceConfig) :=
  match d.resolve path with
  | .error e => .error (.open path e.message)
  | .ok (.file _) => .error (.open path PathError.notDirectory.message)
  | .ok .beyond => .ok []
  | .ok .here =>
      let names := (d.map Prod.fst).filter fun name => extension? name == some extension
      let separator := if path.toList.getLast? == some '/' then "" else "/"
      .ok ((names.mergeSort (· ≤ ·)).map fun name =>
        { location := path ++ separator ++ name, csv := some {} })

/-- What is open: a file with what is left of it to be read, or a directory. -/
inductive Handle where
  | file (rest : List UInt8)
  | directory
deriving DecidableEq

/-- A file as a source: what is open of it, and how often it was opened and closed. -/
structure LocalFile where
  config : SourceConfig
  handle : Option Handle := none
  opened : Nat := 0
  closed : Nat := 0
deriving DecidableEq

namespace LocalFile

/-- The file at a path. -/
def of (path : String) : LocalFile := { config := { location := path, csv := some {} } }

/-- The name of the file as a source. -/
def name (f : LocalFile) : String := "local " ++ f.config.location

/-- Open the file at its beginning. -/
def «open» (f : LocalFile) (d : Directory) : Except SourceError Unit × LocalFile :=
  match d.resolve f.config.location with
  | .error e => (.error (.open f.name e.message), f)
  | .ok place =>
      let handle : Handle :=
        match place with
        | .file content => .file content
        | .here | .beyond => .directory
      (.ok (), { f with handle := some handle, opened := f.opened + 1 })

/-- The number of bytes that a directory takes up. -/
def directorySize : Nat := 4096

/-- The number of bytes in the file. -/
def size (f : LocalFile) (d : Directory) : Except SourceError Nat :=
  match f.handle, d.resolve f.config.location with
  | none, _ => .error (.notOpen f.name)
  | some _, .ok (.file content) => .ok content.length
  | some _, _ => .ok directorySize

/-- The text for a request for bytes while the file is closed. -/
def notOpenMessage : String := "source is not open"

/-- The next bytes, at most as many as requested. -/
def read (f : LocalFile) (requested : Nat) : Except String (List UInt8) × LocalFile :=
  match f.handle with
  | none => (.error notOpenMessage, f)
  | some .directory => (.error PathError.isDirectory.message, f)
  | some (.file rest) =>
      (.ok (rest.take requested), { f with handle := some (.file (rest.drop requested)) })

/-- Close the file. -/
def close (f : LocalFile) : LocalFile := { f with handle := none, closed := f.closed + 1 }

/-- What the file serves from where it is read next. -/
def servings (f : LocalFile) : List Serving :=
  match f.handle with
  | none => [.fault notOpenMessage]
  | some .directory => [.fault PathError.isDirectory.message]
  | some (.file rest) => { content := rest : ByteScript }.servings

/-- A reader of the records in the file, beginning where it is read next. -/
def records (f : LocalFile) : Csv.RecordReader :=
  .of f.name (f.config.csv.getD {}) f.servings

/-- The bytes of pieces that have not been taken. -/
def remaining (input : List Serving) : List UInt8 :=
  input.flatMap fun serving =>
    match serving with
    | .bytes piece => piece
    | .fault _ => []

/-- Move on to where a reader of the file has left what was to be served. -/
def leave (f : LocalFile) (input : List Serving) : LocalFile :=
  match f.handle with
  | some (.file _) => { f with handle := some (.file (remaining input)) }
  | _ => f

/-- Read this many batches with a new reader. The file is afterwards read from behind the last piece
that the reader has taken. -/
def readBatches (f : LocalFile) (batch reads : Nat) :
    List BatchOutcome × List LogLine × LocalFile :=
  let outcomes := f.records.outcomes
  let (results, logs, reader) :=
    (StreamReader.of f.name Convertor.identity batch outcomes).readMany reads
  let taken := outcomes.length - (reader.upcoming.getD []).length
  let (_, records) := f.records.readMany taken
  (results, logs, f.leave records.input)

end LocalFile

end BulkLoad.InMemory
