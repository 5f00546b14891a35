import CommandPool.Files.FileSystem
import CommandPool.Settings

/-!
# Where commands work

A site is the root of a store, which has to be a directory, with the size of the
chunks in which files are sent there.  Every worker of a pool has the site built
for itself, from the same settings.
-/

namespace CommandPool.Store

/-- Where the commands of a worker work. -/
structure Site where
  /-- The path of the root of the store. -/
  root : String
  /-- The bytes of one chunk of an upload. -/
  chunkSize : Nat
  deriving Repr

namespace Site

/-- The site of a root, whatever is there.  A chunk has one byte at least. -/
def of (root : String) (settings : Settings) : Site := ⟨root, max settings.chunkSize 1⟩

/-- The site of a root, which has to be a directory.  Otherwise the causes, from
the outermost one on. -/
def build (fs : Files.FileSystem) (root : String) (settings : Settings) :
    Except (List String) Site :=
  match fs.resolve root with
  | .error f => .error ["store root " ++ root ++ " is not accessible", f.message]
  | .ok (_, .file _) => .error ["store root " ++ root ++ " is not a directory"]
  | .ok (_, .dir) => .ok (.of root settings)

/-- The site of the worker with the given number. -/
def forWorker (fs : Files.FileSystem) (root : String) (settings : Settings) (worker : Nat) :
    Except (List String) Site :=
  (build fs root settings).mapError fun causes => ("worker " ++ toString worker) :: causes

end Site

end CommandPool.Store
