import CommandPool.Files.Fault
import CommandPool.Text.Utf8

/-!
# Lines of bytes

Bytes fall into pieces: one per line feed, which ends it, and one for what
follows the last line feed, if anything does.  A piece that is UTF-8 is a line.
The line feed does not belong to the line, nor does a carriage return right
before it.
-/

namespace CommandPool.Lines

/-- What one read of a line source gives. -/
inductive Reading where
  /-- A line, without its end. -/
  | line (s : String)
  /-- The source has no more lines. -/
  | eof
  /-- The run was cancelled. -/
  | cancelled
  /-- The read failed. -/
  | fault (f : Files.Fault)
  deriving DecidableEq, Repr

/-- The line feed. -/
def lineFeed : UInt8 := 10

/-- The carriage return. -/
def carriageReturn : UInt8 := 13

/-- Bytes between two line feeds. -/
structure Piece where
  /-- The bytes without the line feed. -/
  body : List UInt8
  /-- A line feed ends the piece. -/
  ended : Bool
  deriving DecidableEq, Repr

/-- A byte in front of pieces.  It belongs to the first one. -/
def consByte (b : UInt8) : List Piece → List Piece
  | [] => [⟨[b], false⟩]
  | p :: ps => ⟨b :: p.body, p.ended⟩ :: ps

/-- The pieces of bytes. -/
def pieces : List UInt8 → List Piece
  | [] => []
  | b :: bs => if b = lineFeed then ⟨[], true⟩ :: pieces bs else consByte b (pieces bs)

/-- Without a carriage return at the end. -/
def dropReturn (body : List UInt8) : List UInt8 :=
  if body.getLast? = some carriageReturn then body.dropLast else body

/-- The bytes of the line of a piece. -/
def Piece.content (p : Piece) : List UInt8 := if p.ended then dropReturn p.body else p.body

/-- What reading a piece gives. -/
def Piece.reading (p : Piece) : Reading :=
  match Text.Utf8.decode p.content with
  | .ok s => .line s
  | .error f => .fault (.worded .invalidData f.message)

end CommandPool.Lines
