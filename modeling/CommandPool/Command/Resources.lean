import CommandPool.Command.Run

/-!
# What a worker keeps

The uploads of a worker read their chunks into one buffer.  It is brought to the length of a chunk
by each upload, and filled from the front, again and again until it is full or the file ends.  What
is sent is the part that was filled.

The buffer stays with the worker, so an upload finds there what the uploads before it have left,
those that failed among them.
-/

namespace CommandPool.Command

open Store (Operand Request Site Workspace)

variable {α : Type}

/-- What a worker works with. -/
structure Resources where
  /-- What all requests work on. -/
  workspace : Workspace
  /-- The buffer for chunks. -/
  buffer : List UInt8
  deriving Repr

/-- What a worker does: its answer or why there is none, and the resources afterwards. -/
abbrev Work := ExceptT Store.Failure (StateM Resources)

/-- A request that needs no buffer. -/
def request (ask : Request α) : Work α := do
  let r ← get
  let (answer, w) := ask.run r.workspace
  set { r with workspace := w }
  match answer with
  | .ok a => pure a
  | .error f => throw f

/-! ## The buffer -/

/-- A buffer cut off at a length, or filled up to it with zeros. -/
def resized (buffer : List UInt8) (length : Nat) : List UInt8 :=
  buffer.take length ++ List.replicate (length - buffer.length) 0

/-- A buffer with bytes written over it from a position on. -/
def overwritten (buffer : List UInt8) (position : Nat) (bytes : List UInt8) : List UInt8 :=
  buffer.take position ++ bytes ++ buffer.drop (position + bytes.length)

/-- Brings the buffer to a length, if a buffer can have it. -/
def resizeBuffer (length : Nat) : Work Unit := do
  request (Store.askBuffer length)
  modify fun r => { r with buffer := resized r.buffer length }

/-- Reads a file from `offset` on into the buffer, until that is full or the file ends.  The first
`filled` bytes are there already.  Answers how many there are then.  `room` bounds the number of
reads. -/
def fillBuffer (pace : Nat → Nat) (context : String) (place : Files.Place) (offset : Nat) :
    (room filled : Nat) → Work Nat
  | 0, filled => pure filled
  | room + 1, filled => do
    let r ← get
    if filled < r.buffer.length then do
      let want := min (r.buffer.length - filled) (pace (offset + filled) + 1)
      let got ← request
        (Store.onFiles context (Files.FileSystem.readAt place (offset + filled) want))
      if got = [] then pure filled
      else do
        modify fun r => { r with buffer := overwritten r.buffer filled got }
        fillBuffer pace context place offset room (filled + got.length)
    else pure filled

/-! ## Uploads -/

/-- Sends the file at `source` from `offset` on, through the buffer, to the end of the object at
`target`.  Answers the number of bytes.  `budget` bounds the number of chunks. -/
def sendBuffered (pace : Nat → Nat) (context key : String) (source target : Files.Place) :
    (budget offset : Nat) → Work Nat
  | 0, _ => pure 0
  | budget + 1, offset => do
    let r ← get
    let n ← fillBuffer pace context source offset r.buffer.length 0
    if n = 0 then pure 0
    else do
      let r ← get
      request (Store.onFiles key (Files.FileSystem.append target (r.buffer.take n)))
      let rest ← sendBuffered pace context key source target budget (offset + n)
      pure (n + rest)

/-- Uploads a local file as an object, through the buffer.  Answers the number of bytes. -/
def uploadBuffered (pace : Nat → Nat) (root : String) (chunkSize : Nat) (path key : String) :
    Work Nat := do
  request (Store.count .fileOp)
  let source ← request (Store.onFiles path (Files.FileSystem.openRead path))
  let target ← request (Store.openForWriting root key)
  resizeBuffer chunkSize
  let r ← get
  sendBuffered pace path key source target (Store.sizeAt r.workspace source + 1) 0

/-- Copies a file with the resources of a worker.  Answers its number of bytes. -/
def copyBuffered (pace : Nat → Nat) (site : Site) (source target : Operand) : Work Nat := do
  let r ← get
  match source, target.resolveTarget r.workspace.files source with
  | .file path, .object key => uploadBuffered pace site.root site.chunkSize path key
  | source, target => request (transfer pace site source target)

end CommandPool.Command
