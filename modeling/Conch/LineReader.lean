import Conch.Errno
import Conch.Text.Utf8

/-!
# Reading lines

A line reader turns the answers to successive reads of a byte stream into lines.  It keeps
the bytes that were read but not yet returned, and asks for more only when they hold no
complete line.  A line ends with a newline, which is dropped, as is one carriage return
before it; the bytes after the last newline are a line too, once the stream has ended.  A
signal that arrives while the reader waits costs the partial line it has gathered.
-/

namespace Conch

/-- The answer to one read.  Data without any byte means that the stream has ended, and an
interruption that a signal arrived before any byte did. -/
inductive ReadAnswer where
  | data (bytes : List UInt8)
  | interrupted
  | failed (errno : Errno)
  deriving DecidableEq, Repr

namespace ReadAnswer

/-- How many bytes one read asks for. -/
def chunkSize : Nat := 4096

/-- The answers to reads of bytes that are all there: as many at a time as a read asks for.  One
answer holds at least one byte, so `fuel` need not exceed the number of bytes. -/
def chunksAux : (fuel : Nat) → List UInt8 → List ReadAnswer
  | 0, _ => []
  | _, [] => []
  | fuel + 1, bytes => data (bytes.take chunkSize) :: chunksAux fuel (bytes.drop chunkSize)

/-- The answers to reads of bytes that are all there. -/
def chunks (bytes : List UInt8) : List ReadAnswer :=
  chunksAux (bytes.length / chunkSize + 1) bytes

/-- The bytes of an answer. -/
def bytes : ReadAnswer → List UInt8
  | data bytes => bytes
  | interrupted | failed _ => []

end ReadAnswer

/-- What one attempt to read a line comes to: a line without its end, a signal that arrived before a
line was complete, the end of all lines, or a stream that cannot be read. -/
inductive ReadOutcome where
  | line (text : Text)
  | interrupted
  | endOfInput
  | failed (errno : Errno)
  deriving DecidableEq, Repr

/-- A reader of lines holds the bytes that were read but not returned, and knows whether it has seen
the end of the stream. -/
structure LineReader where
  pending : List UInt8 := []
  ended : Bool := false
  deriving DecidableEq, Repr

namespace LineReader

/-- The byte that ends a line. -/
def newline : UInt8 := 0x0A

/-- The byte that is dropped from the end of a line. -/
def carriageReturn : UInt8 := 0x0D

/-- The bytes before the first newline and those after it. -/
def cutLine : List UInt8 → Option (List UInt8 × List UInt8)
  | [] => none
  | b :: rest =>
    if b = newline then some ([], rest)
    else (cutLine rest).map fun parts => (b :: parts.1, parts.2)

/-- The bytes of a line without a carriage return at their end. -/
def dropReturn (line : List UInt8) : List UInt8 :=
  if line.getLast? = some carriageReturn then line.dropLast else line

/-- The text of the bytes of a line. -/
def lineText (line : List UInt8) : Text :=
  Utf8.decodeLossy (dropReturn line)

/-- Take the next line out of the pending bytes, if they hold one. -/
def takeLine (r : LineReader) : Option (Text × LineReader) :=
  match cutLine r.pending with
  | some (line, rest) => some (lineText line, { r with pending := rest })
  | none =>
    if r.ended && !r.pending.isEmpty then some (lineText r.pending, { r with pending := [] })
    else none

/-- What a reader does once it knows that the stream has ended. -/
def readRest (r : LineReader) : ReadOutcome × LineReader :=
  match r.takeLine with
  | some (text, r) => (.line text, r)
  | none => (.endOfInput, r)

/-- Read a line, given the answers that reads of the stream would get from here on; after them the
stream ends.  The result is the outcome, the reader, and the answers not asked for. -/
def readLine (r : LineReader) (answers : List ReadAnswer) :
    ReadOutcome × LineReader × List ReadAnswer :=
  match r.takeLine with
  | some (text, r) => (.line text, r, answers)
  | none =>
    if r.ended then (.endOfInput, r, answers)
    else match answers with
      | [] =>
        let (outcome, r) := readRest { r with ended := true }
        (outcome, r, [])
      | .data [] :: answers =>
        let (outcome, r) := readRest { r with ended := true }
        (outcome, r, answers)
      | .data (b :: bytes) :: answers =>
        readLine { r with pending := r.pending ++ b :: bytes } answers
      | .interrupted :: answers => (.interrupted, { r with pending := [] }, answers)
      | .failed errno :: answers => (.failed errno, r, answers)

/-- The buffer of the reader, for whoever looks into it. -/
def dump (r : LineReader) : String :=
  s!"pending: {r.pending.length} bytes, eof: {r.ended}"

end LineReader

end Conch
