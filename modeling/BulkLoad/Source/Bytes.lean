/-!
# Bytes as a source serves them

A source answers each request for bytes with a piece of its content, or with a failure. What it
serves until its content is exhausted is a list of `Serving`s; an empty piece, like the end of the
list, says that there is nothing more. A `ByteScript` describes a source that cuts its content
into pieces of a given length and fails at given positions.
-/

namespace BulkLoad

/-- The answer to one request for bytes. -/
inductive Serving where
  | bytes (piece : List UInt8)
  | fault (message : String)
deriving DecidableEq

/-- A failure of a source: once its position has been reached, one request is answered by it. -/
structure Fault where
  position : Nat
  message : String
deriving DecidableEq

/-- The content of a source, the longest piece it serves (zero for no limit), and its failures in
the order in which they happen. -/
structure ByteScript where
  content : List UInt8 := []
  piece : Nat := 0
  faults : List Fault := []
deriving DecidableEq

/-- The length of the next piece: at most what is requested and what the source serves at once, and
not across the position of the next failure. -/
def pieceLength (requested piece position : Nat) (faults : List Fault) : Nat :=
  let limit := if piece == 0 then requested else min requested piece
  match faults with
  | [] => max limit 1
  | fault :: _ => max (min limit (fault.position - position)) 1

/-- A piece is never empty. -/
theorem pieceLength_pos (requested piece position : Nat) (faults : List Fault) :
    0 < pieceLength requested piece position faults := by
  cases faults <;> exact Nat.lt_of_lt_of_le Nat.zero_lt_one (Nat.le_max_right _ _)

/-- The first failure if its position has been reached, and the failures after it. -/
def dueFault? (position : Nat) : List Fault → Option (Fault × List Fault)
  | [] => none
  | fault :: later => if fault.position ≤ position then some (fault, later) else none

/-- A failure that has happened is not among the later ones. -/
theorem length_of_dueFault? {position : Nat} {faults later : List Fault} {fault : Fault}
    (h : dueFault? position faults = some (fault, later)) : later.length < faults.length := by
  cases faults with
  | nil => simp [dueFault?] at h
  | cons first faults =>
      simp only [dueFault?] at h
      split at h
      · cases h
        exact Nat.lt_succ_self _
      · cases h

/-- The answers to requests for `requested` bytes each, from a position on. -/
def serveFrom (requested piece position : Nat) (faults : List Fault) (content : List UInt8) :
    List Serving :=
  match _h : dueFault? position faults with
  | some (fault, later) => .fault fault.message :: serveFrom requested piece position later content
  | none =>
      match content with
      | [] => []
      | b :: rest =>
          let n := pieceLength requested piece position faults
          let served := (b :: rest).take n
          .bytes served ::
            serveFrom requested piece (position + served.length) faults ((b :: rest).drop n)
termination_by content.length + faults.length
decreasing_by
  · have := length_of_dueFault? ‹_›
    omega
  · have := pieceLength_pos requested piece position faults
    simp only [List.length_drop, List.length_cons]
    omega

/-- The bytes that readers request at once. -/
def requestSize : Nat := 8192

/-- What the source serves from its beginning. -/
def ByteScript.servings (script : ByteScript) : List Serving :=
  serveFrom requestSize script.piece 0 script.faults script.content

end BulkLoad
