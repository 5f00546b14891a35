import CommandPool.Lines.Piece

/-!
# Reading lines as bytes arrive

A reader is given bytes in portions of any size and gives lines as soon as they
are complete.  A source is a reader with the portions that are still to come.
Once the run is cancelled every read says so, whatever has arrived.
-/

namespace CommandPool.Lines

/-! ## Readers -/

/-- A reader of lines. -/
structure Reader where
  /-- The bytes of the next line that were looked at. -/
  front : List UInt8
  /-- The bytes that were not looked at yet. -/
  unread : List UInt8
  /-- No more bytes come. -/
  ended : Bool
  deriving DecidableEq, Repr

namespace Reader

/-- A reader that was given nothing. -/
def empty : Reader := ⟨[], [], false⟩

/-- Gives bytes to a reader. -/
def deliver (r : Reader) (bytes : List UInt8) : Reader := { r with unread := r.unread ++ bytes }

/-- Tells a reader that no more bytes come. -/
def finish (r : Reader) : Reader := { r with ended := true }

/-- Tells a reader that more bytes may come after all. -/
def reopen (r : Reader) : Reader := { r with ended := false }

/-- The next reading, unless it hangs on bytes that are still to come. -/
def poll (r : Reader) : Option Reading × Reader :=
  match r.unread.span (· != lineFeed) with
  | (before, _ :: rest) =>
    (some (Piece.reading ⟨r.front ++ before, true⟩), { r with front := [], unread := rest })
  | (before, []) =>
    let front := r.front ++ before
    if !r.ended then (none, { r with front := front, unread := [] })
    else if front.isEmpty then (some .eof, { r with front := [], unread := [] })
    else (some (Piece.reading ⟨front, false⟩), { r with front := [], unread := [] })

/-- Polls with one portion of bytes after the other until there is a reading.  After the last
one it hangs, unless no more bytes come. -/
def read (atEnd : Bool) (r : Reader) :
    List (List UInt8) → Option Reading × Reader × List (List UInt8)
  | [] =>
    let (reading, r) := if atEnd then r.finish.poll else r.poll
    (reading, r, [])
  | portion :: rest =>
    match r.poll with
    | (some reading, r) => (some reading, r, portion :: rest)
    | (none, r) => read atEnd (r.deliver portion) rest

end Reader

/-! ## Sources -/

/-- Where lines come from. -/
inductive Source where
  /-- A reader, and the portions that are still to come. -/
  | bytes (reader : Reader) (portions : List (List UInt8))
  /-- Something that every read of fails, such as a directory. -/
  | broken (fault : Files.Fault)
  deriving DecidableEq, Repr

/-- Bytes in portions of at most `size + 1`.  `budget` bounds the number of portions. -/
def portionsOf (size : Nat) : (budget : Nat) → List UInt8 → List (List UInt8)
  | _, [] => []
  | 0, bytes => [bytes]
  | budget + 1, bytes => bytes.take (size + 1) :: portionsOf size budget (bytes.drop (size + 1))

namespace Source

/-- A source of the given bytes, which come `size` at a time.  A portion without
bytes means the end, so with no size no byte ever comes. -/
def ofBytes (size : Nat) (bytes : List UInt8) : Source :=
  .bytes .empty (if size = 0 then [] else portionsOf (size - 1) bytes.length bytes)

/-- The next reading of a source. -/
def next (cancelled : Bool) (s : Source) : Reading × Source :=
  if cancelled then (.cancelled, s)
  else match s with
    | .broken f => (.fault f, s)
    | .bytes r portions =>
      let (reading, r, portions) := r.read true portions
      (reading.getD .eof, .bytes r portions)

end Source

end CommandPool.Lines
