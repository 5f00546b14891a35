import CommandPool.Counters
import CommandPool.Store.Error
import CommandPool.Store.Key
import CommandPool.Files.FileSystem
import CommandPool.Text.Front

/-!
# Requests to the store

The store is a directory, its root, and an object is a file below it.  A request
checks its keys first.  Then it counts as a storage operation, whatever comes of
it, and only then it looks at a file.
-/

namespace CommandPool.Store

/-- What requests work on: the files, the counters and the log. -/
structure Workspace where
  /-- All files, those of the store among them. -/
  files : Files.FileSystem
  /-- What was counted. -/
  counters : Counters
  /-- What was logged, in order. -/
  log : List Log.Entry
  deriving Repr

/-- A request: its answer or why there is none, and the workspace afterwards. -/
abbrev Request := ExceptT Failure (StateM Workspace)

/-- A request that ends with an error. -/
def fail {α : Type} (e : StoreError) : Request α := throw (.error e)

/-- Counts one more operation. -/
def count (c : Counter) : Request Unit :=
  modify fun w => { w with counters := w.counters.bump c }

/-- Adds an entry to the log. -/
def say (e : Log.Entry) : Request Unit := modify fun w => { w with log := w.log ++ [e] }

/-- An operation on the files, whose fault is one at the given key or path. -/
def onFiles {α : Type} (context : String) (act : Files.Act α) : Request α := do
  let w ← get
  let (answer, files) := act.run w.files
  set { w with files := files }
  match answer with
  | .ok a => pure a
  | .error f => fail (.ofFault context f)

/-- The path of the object with the given key. -/
def pathOfKey (root key : String) : Except StoreError String :=
  match Key.path? root key with
  | some p => .ok p
  | none => .error (.invalidKey key)

/-- The path of an object, as the first step of a request. -/
def askPath (root key : String) : Request String :=
  match pathOfKey root key with
  | .ok p => pure p
  | .error e => fail e

/-- Makes the directories above a path. -/
def makeParents (path : String) : Files.Act Unit :=
  match Files.Path.parent? path with
  | some above => Files.FileSystem.createDirAll above
  | none => pure ()

/-! ## Single objects -/

/-- The number of bytes of an object. -/
def objectSize (root key : String) : Request Nat := do
  let path ← askPath root key
  count .storageOp
  match ← onFiles key (Files.FileSystem.metadata path) with
  | .file bytes => pure bytes.length
  | .dir => fail (.notFound key)

/-- Opens an object for reading. -/
def openForReading (root key : String) : Request Files.Place := do
  let path ← askPath root key
  count .storageOp
  onFiles key (Files.FileSystem.openRead path)

/-- Opens an object for writing, empty, and makes the directories above it. -/
def openForWriting (root key : String) : Request Files.Place := do
  let path ← askPath root key
  count .storageOp
  onFiles key (makeParents path)
  onFiles key (Files.FileSystem.create path)

/-- Copies an object within the store.  Answers its number of bytes. -/
def copyObject (root source target : String) : Request Nat := do
  let src ← askPath root source
  let dst ← askPath root target
  count .storageOp
  onFiles target (makeParents dst)
  onFiles source (Files.FileSystem.copy src dst)

/-- Removes an object. -/
def removeObject (root key : String) : Request Unit := do
  let path ← askPath root key
  count .storageOp
  onFiles key (Files.FileSystem.removeFile path)

/-! ## Listing -/

/-- The order in which a directory yields what is in it, by its path. -/
abbrev Order := String → List (String × Files.Node) → List (String × Files.Node)

/-- The paths of the directories in a directory. -/
def foldersAmong (folder : String) (entries : List (String × Files.Node)) : List String :=
  (entries.filter (·.2.isDir)).map fun e => Files.Path.join folder e.1

/-- The keys of the files in a directory. -/
def keysAmong (root folder : String) (entries : List (String × Files.Node)) : List String :=
  (entries.filter (!·.2.isDir)).filterMap fun e => Key.ofPath? root (Files.Path.join folder e.1)

/-- Reads directories until none is left, and collects the keys of the files.  What was found
last is read first.  The `budget` bounds the number of directories. -/
def collectKeys (order : Order) (root : String) :
    (budget : Nat) → (pending : List String) → Request (List String)
  | _, [] => pure []
  | 0, _ :: _ => pure []
  | budget + 1, folder :: pending => do
    let entries ← onFiles folder (Files.FileSystem.readDir folder)
    let found := order folder entries
    let rest ← collectKeys order root budget ((foldersAmong folder found).reverse ++ pending)
    pure (keysAmong root folder found ++ rest)

/-- Texts in the order of their characters. -/
def sortKeys (keys : List String) : List String := keys.mergeSort fun a b => decide (a ≤ b)

/-- The keys that begin with `stem`, sorted, whatever the order in which directories yield what
is in them. -/
def listKeysIn (order : Order) (root stem : String) : Request (List String) := do
  count .storageOp
  let w ← get
  let keys ← collectKeys order root (w.files.tree.nodes.length + 1) [root]
  pure (sortKeys (keys.filter (Text.startsWith stem)))

/-- The keys that begin with `stem`, sorted. -/
def listKeys (root stem : String) : Request (List String) :=
  listKeysIn (fun _ entries => entries) root stem

end CommandPool.Store
