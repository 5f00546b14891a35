import CommandPool.Files.Fault
import CommandPool.Files.Path
import CommandPool.Files.Tree

/-!
# A file system

A file system is a tree and the directory where paths without a root start.
A path is followed segment by segment: `.` stays, `..` goes up, and each segment
but the last must lead to a directory.  A slash at the end asks for a directory.

One file may be held open for reading while the others are worked on.  It goes on
to exist when it is removed, with the bytes that it had then.

An operation that fails may have changed something before: `createDirAll` keeps
the directories it made.  So an operation answers with the file system in either
case.
-/

namespace CommandPool.Files

/-- What is held open for reading. -/
inductive Held where
  /-- What is at a place. -/
  | present (place : Place)
  /-- A file that was removed with these bytes. -/
  | removed (bytes : List UInt8)
  deriving DecidableEq, Repr

/-- A tree, seen from a working directory. -/
structure FileSystem where
  /-- All files and directories. -/
  tree : Tree
  /-- Where paths without a root start. -/
  home : Place
  /-- What is held open, if anything is. -/
  held : Option Held
  deriving DecidableEq, Repr

/-- An operation on a file system: its answer or a fault, and the file system
afterwards. -/
abbrev Act := ExceptT Fault (StateM FileSystem)

namespace FileSystem

/-! ## Following a path -/

/-- The most bytes of a name. -/
def longestName : Nat := 255

/-- The most bytes of a path. -/
def longestPath : Nat := 4095

/-- How a path ends. -/
inductive Ending where
  /-- With the root, `.` or `..`: the directory reached. -/
  | dots
  /-- With a name. -/
  | name (s : String)
  deriving DecidableEq, Repr

/-- A path followed up to its last segment. -/
structure Reached where
  /-- The directory reached: that of the name, or the one that `.` and `..` mean. -/
  dir : Place
  /-- What the path ends with. -/
  ending : Ending
  /-- A slash follows the name. -/
  slash : Bool
  deriving Repr

/-- The place that a name in a directory leads to, if a node is there. -/
def lookup (t : Tree) (dir : Place) (name : String) : Except Fault (Option Node) :=
  if name.utf8ByteSize > longestName then .error .nameTooLong
  else .ok (t.find? (dir ++ [name]))

/-- The directory that a segment before the last one leads to. -/
def enter (t : Tree) (dir : Place) (segment : String) : Except Fault Place :=
  if segment = "." then .ok dir
  else if segment = ".." then .ok dir.dropLast
  else do
    match ← lookup t dir segment with
    | some .dir => .ok (dir ++ [segment])
    | some (.file _) => .error .notDirectory
    | none => .error .notFound

/-- Follows segments, the last of which is only looked at. -/
def follow (t : Tree) (dir : Place) (slash : Bool) : List String → Except Fault Reached
  | [] => .ok ⟨dir, .dots, slash⟩
  | [last] =>
    if last = "." then .ok ⟨dir, .dots, slash⟩
    else if last = ".." then .ok ⟨dir.dropLast, .dots, slash⟩
    else .ok ⟨dir, .name last, slash⟩
  | segment :: next :: rest => do
    let dir ← enter t dir segment
    follow t dir slash (next :: rest)

/-- Follows a path. -/
def reach (fs : FileSystem) (p : String) : Except Fault Reached :=
  if p.toList.contains '\x00' then .error .nul
  else if p = "" then .error .notFound
  else if p.utf8ByteSize > longestPath then .error .nameTooLong
  else
    let start := if Path.isAbsolute p then [] else fs.home
    follow fs.tree start (Path.endsWithSlash p) ((Path.segments p).filter (· ≠ ""))

/-- The place and the node that a path leads to. -/
def resolve (fs : FileSystem) (p : String) : Except Fault (Place × Node) := do
  let r ← fs.reach p
  match r.ending with
  | .dots => .ok (r.dir, .dir)
  | .name s =>
    match ← lookup fs.tree r.dir s with
    | none => .error .notFound
    | some .dir => .ok (r.dir ++ [s], .dir)
    | some (.file bytes) =>
      if r.slash then .error .notDirectory else .ok (r.dir ++ [s], .file bytes)

/-- A path leads to a directory. -/
def isDir (fs : FileSystem) (p : String) : Bool :=
  match fs.resolve p with
  | .ok (_, n) => n.isDir
  | .error _ => false

/-! ## Operations -/

/-- The fault, or what was found, of a question that changes nothing. -/
def ask {α : Type} (question : FileSystem → Except Fault α) : Act α := do
  let fs ← get
  match question fs with
  | .ok a => pure a
  | .error f => throw f

/-- The node that a path leads to. -/
def metadata (p : String) : Act Node := do
  let r ← ask (·.resolve p)
  pure r.2

/-- Opens what a path leads to, for reading. -/
def openRead (p : String) : Act Place := do
  let r ← ask (·.resolve p)
  pure r.1

/-- At most `count` of the bytes at an open place, from `offset` on.  Of a
directory nothing can be read. -/
def readAt (place : Place) (offset count : Nat) : Act (List UInt8) := do
  let fs ← get
  match fs.tree.find? place with
  | some (.file bytes) => pure ((bytes.drop offset).take count)
  | _ => throw .isDirectory

/-- All bytes at an open place. -/
def readAll (place : Place) : Act (List UInt8) := do
  let fs ← get
  match fs.tree.find? place with
  | some (.file bytes) => pure bytes
  | _ => throw .isDirectory

/-- Makes the node at a place. -/
def putNode (place : Place) (n : Node) : Act Unit :=
  modify fun fs => { fs with tree := fs.tree.put place n }

/-- Opens a path for writing, as an empty file: a new one, or the one there,
which loses its bytes. -/
def create (p : String) : Act Place := do
  let r ← ask (·.reach p)
  match r.ending with
  | .dots => throw .isDirectory
  | .name s =>
    if r.slash then throw .isDirectory
    else do
      let node ← ask fun fs => lookup fs.tree r.dir s
      match node with
      | some .dir => throw .isDirectory
      | _ => do
        putNode (r.dir ++ [s]) (.file [])
        pure (r.dir ++ [s])

/-- Adds bytes to the end of an open file. -/
def append (place : Place) (bytes : List UInt8) : Act Unit := do
  let fs ← get
  match fs.tree.find? place with
  | some (.file old) => putNode place (.file (old ++ bytes))
  | _ => throw .isDirectory

/-- Makes a directory where there is nothing. -/
def createDir (p : String) : Act Unit := do
  let r ← ask (·.reach p)
  match r.ending with
  | .dots => throw .alreadyExists
  | .name s => do
    let node ← ask fun fs => lookup fs.tree r.dir s
    match node with
    | some _ => throw .alreadyExists
    | none => putNode (r.dir ++ [s]) .dir

/-- Makes a directory, and takes one that is there already for made. -/
def ensureDir (p : String) : Act Unit :=
  tryCatch (createDir p) fun f => do
    let fs ← get
    if f.kind ≠ .notFound && fs.isDir p then pure () else throw f

/-- Makes a directory and those above it that are missing.  `depth` bounds the
number of directories above. -/
def createDirs : (depth : Nat) → String → Act Unit
  | 0, p => if p = "" then pure () else ensureDir p
  | depth + 1, p =>
    if p = "" then pure ()
    else tryCatch (ensureDir p) fun f =>
      if f.kind ≠ .notFound then throw f
      else match Path.parent? p with
        | none => throw f
        | some above => do
          createDirs depth above
          ensureDir p

/-- Makes a directory and those above it that are missing. -/
def createDirAll (p : String) : Act Unit := createDirs p.length p

/-- Holds what a path leads to open for reading. -/
def hold (p : String) : Act Unit := do
  let place ← openRead p
  modify fun fs => { fs with held := some (.present place) }

/-- At most `count` bytes of what is held open, from `offset` on. -/
def readHeld (offset count : Nat) : Act (List UInt8) := do
  let fs ← get
  match fs.held with
  | some (.present place) => readAt place offset count
  | some (.removed bytes) => pure ((bytes.drop offset).take count)
  | none => pure []

/-- The file system with nothing held open. -/
def release (fs : FileSystem) : FileSystem := { fs with held := none }

/-- What is held open after the file at a place is removed with its bytes. -/
def Held.afterRemoval (place : Place) (bytes : List UInt8) : Held → Held
  | .present p => if p = place then .removed bytes else .present p
  | .removed old => .removed old

/-- Removes the file at a place, which has these bytes. -/
def unlink (place : Place) (bytes : List UInt8) : Act Unit :=
  modify fun fs =>
    { fs with tree := fs.tree.erase place, held := fs.held.map (Held.afterRemoval place bytes) }

/-- The length of the longest file. -/
def longestFile (fs : FileSystem) : Nat :=
  fs.tree.nodes.foldl (fun n e =>
    match e.2 with
    | .file bytes => max n bytes.length
    | .dir => n) 0

/-- Removes a file. -/
def removeFile (p : String) : Act Unit := do
  let r ← ask (·.reach p)
  match r.ending with
  | .dots => throw .isDirectory
  | .name s => do
    let node ← ask fun fs => lookup fs.tree r.dir s
    match node with
    | none => throw .notFound
    | some .dir => throw .isDirectory
    | some (.file bytes) =>
      if r.slash then throw .notDirectory else unlink (r.dir ++ [s]) bytes

/-- The names in the directory that a path leads to, with their nodes. -/
def readDir (p : String) : Act (List (String × Node)) := do
  let (place, node) ← ask (·.resolve p)
  match node with
  | .dir => do
    let fs ← get
    pure (fs.tree.children place)
  | .file _ => throw .notDirectory

/-- Copies a file: it is opened, the other is made empty, then the bytes are read
and written.  Answers how many they are. -/
def copy (source target : String) : Act Nat := do
  let (src, node) ← ask (·.resolve source)
  match node with
  | .dir => throw .notRegular
  | .file _ => do
    let dst ← create target
    let bytes ← readAll src
    append dst bytes
    pure bytes.length

end FileSystem

end CommandPool.Files
