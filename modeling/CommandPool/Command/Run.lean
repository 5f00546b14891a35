import CommandPool.Command.Basic
import CommandPool.Store.LocalFile
import CommandPool.Store.Site

/-!
# Running a command

A copy finds out where it goes, then uploads, downloads or copies within the
store, as its operands say.  A move removes its source after the copy.  A listing
logs every key and then how many there are.
-/

namespace CommandPool.Command

open Store (Operand Request Site Workspace)

/-- Every read gives all that is asked for. -/
def fullPace : Nat → Nat := fun _ => Nat.pow 2 64

/-- Copies a file to a target that is resolved.  Answers its number of bytes. -/
def transfer (pace : Nat → Nat) (site : Site) : (source target : Operand) → Request Nat
  | .file path, .object key => Store.upload pace site.root site.chunkSize path key
  | .object key, .file path => Store.download site.root key path
  | .object source, .object target => Store.copyObject site.root source target
  | .file path, .file _ =>
    Store.fail (.invalidKey (path ++ ": local to local copies are not supported"))

/-- Copies a file.  Answers its number of bytes. -/
def runCopy (pace : Nat → Nat) (site : Site) (source target : Operand) : Request Nat := do
  let w ← get
  transfer pace site source (target.resolveTarget w.files source)

/-- Removes a file. -/
def runRemove (site : Site) : Operand → Request Unit
  | .object key => Store.removeObject site.root key
  | .file path => Store.removeFile path

/-- The entries of a listing. -/
def listingEntries (stem : String) (keys : List String) : List Log.Entry :=
  keys.map (fun key => ⟨.info, .command, Store.scheme ++ key, [("key", .text key)], []⟩)
    ++ [⟨.info, .command, "listing complete",
      [("prefix", .text stem), ("count", .number keys.length)], []⟩]

/-- Runs a command, with short reads as `pace` says. -/
def runAt (pace : Nat → Nat) (site : Site) : Command → Request Unit
  | .copy source target => do
    let _ ← runCopy pace site source target
  | .move source target => do
    let _ ← runCopy pace site source target
    runRemove site source
  | .remove target => runRemove site target
  | .list stem => do
    let keys ← Store.listKeys site.root stem
    (listingEntries stem keys).forM Store.say

/-- Runs a command. -/
def run (site : Site) (c : Command) : Request Unit := runAt fullPace site c

/-- The answer of a command and the workspace afterwards. -/
def execute (site : Site) (c : Command) (w : Workspace) :
    Except Store.Failure Unit × Workspace :=
  (run site c).run w

end CommandPool.Command
