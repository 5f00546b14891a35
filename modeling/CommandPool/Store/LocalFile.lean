import CommandPool.Store.Request

/-!
# Uploads and downloads

An upload opens a local file, makes the object, asks for a buffer of the length
of a chunk, and then reads the file in chunks and adds each one to the object.
A chunk is as long as the chunk size, unless the file ends, however few bytes a
single read gives: `pace` says how many the read at an offset gives at most,
beyond one.  A download opens the object before it touches a local file.
-/

namespace CommandPool.Store

/-- Reads until `want` bytes are there or the file ends. -/
def fillChunk (pace : Nat → Nat) (place : Files.Place) (offset : Nat) :
    (want : Nat) → (room : Nat) → Files.Act (List UInt8)
  | _, 0 => pure []
  | 0, _ + 1 => pure []
  | want + 1, room + 1 => do
    let got ← Files.FileSystem.readAt place offset (min (want + 1) (pace offset + 1))
    if got = [] then pure []
    else do
      let rest ← fillChunk pace place (offset + got.length) (want + 1 - got.length) room
      pure (got ++ rest)

/-- Sends the file at `source` from `offset` on, chunk by chunk, to the end of
the object at `target`.  Answers the number of bytes.  `budget` bounds the number
of chunks. -/
def sendChunks (pace : Nat → Nat) (context key : String) (chunkSize : Nat)
    (source target : Files.Place) : (budget offset : Nat) → Request Nat
  | 0, _ => pure 0
  | budget + 1, offset => do
    let chunk ← onFiles context (fillChunk pace source offset chunkSize chunkSize)
    if chunk = [] then pure 0
    else do
      onFiles key (Files.FileSystem.append target chunk)
      let rest ← sendChunks pace context key chunkSize source target budget (offset + chunk.length)
      pure (chunk.length + rest)

/-- The number of bytes at a place.  A directory has none. -/
def sizeAt (w : Workspace) (place : Files.Place) : Nat :=
  match w.files.tree.find? place with
  | some (.file bytes) => bytes.length
  | _ => 0

/-- The length of the longest buffer that can be asked for. -/
def greatestBuffer : Nat := Nat.pow 2 63 - 1

/-- Asks for a buffer. -/
def askBuffer (length : Nat) : Request Unit :=
  if length ≤ greatestBuffer then pure () else throw .noBuffer

/-- Uploads a local file as an object.  Answers the number of bytes. -/
def upload (pace : Nat → Nat) (root : String) (chunkSize : Nat) (path key : String) :
    Request Nat := do
  count .fileOp
  let source ← onFiles path (Files.FileSystem.openRead path)
  let target ← openForWriting root key
  askBuffer chunkSize
  let w ← get
  sendChunks pace path key chunkSize source target (sizeAt w source + 1) 0

/-- Makes the directories above a local path.  A path that is a name alone needs
none. -/
def makeLocalParents (path : String) : Files.Act Unit :=
  match Files.Path.parent? path with
  | none => pure ()
  | some above => if above = "" then pure () else Files.FileSystem.createDirAll above

/-- Downloads an object into a local file.  Answers the number of bytes. -/
def download (root key path : String) : Request Nat := do
  let source ← openForReading root key
  count .fileOp
  onFiles path (makeLocalParents path)
  let target ← onFiles path (Files.FileSystem.create path)
  let bytes ← onFiles path (Files.FileSystem.readAll source)
  onFiles path (Files.FileSystem.append target bytes)
  pure bytes.length

/-- Removes a local file. -/
def removeFile (path : String) : Request Unit := do
  count .fileOp
  onFiles path (Files.FileSystem.removeFile path)

end CommandPool.Store
