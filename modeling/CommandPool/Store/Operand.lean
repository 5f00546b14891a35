import CommandPool.Files.FileSystem
import CommandPool.Text.Front

/-!
# Operands of commands

An operand names an object of the store, by its key after `store://`, or a local
file by its path.  A target that is a directory takes the name of the source: a
key that is empty or ends with a slash, a path that ends with a slash, and a
path that leads to a directory.
-/

namespace CommandPool.Store

/-- What marks an operand as an object of the store. -/
def scheme : String := "store://"

/-- An operand, by what it names. -/
inductive Operand where
  /-- The object with this key. -/
  | object (key : String)
  /-- The local file with this path. -/
  | file (path : String)
  deriving DecidableEq, Repr

namespace Operand

/-- Reads an operand. -/
def ofText (s : String) : Operand :=
  match Text.dropFront? scheme.toList s.toList with
  | some key => .object (String.ofList key)
  | none => .file s

/-- An operand as it is written. -/
def text : Operand → String
  | .object key => scheme ++ key
  | .file path => path

/-- The operand names an object of the store. -/
def isObject : Operand → Bool
  | .object _ => true
  | .file _ => false

/-- A key that names no object but the place for objects below it. -/
def isFolderKey (key : String) : Bool := key = "" || Files.Path.endsWithSlash key

/-- The name at the end of an operand.  A key that ends with a slash has none. -/
def leafName? : Operand → Option String
  | .object key => (Files.Path.segments key).getLast?.filter (· ≠ "")
  | .file path => Files.Path.leafName? path

/-- The path of a target is meant as a directory: it ends with a slash, or a
directory is there. -/
def isDirTarget (fs : Files.FileSystem) (path : String) : Bool :=
  Files.Path.endsWithSlash path || fs.isDir path

/-- Where a copy of `source` to `target` goes. -/
def resolveTarget (fs : Files.FileSystem) (target source : Operand) : Operand :=
  match source.leafName? with
  | none => target
  | some name =>
    match target with
    | .object key => if isFolderKey key then .object (key ++ name) else target
    | .file path => if isDirTarget fs path then .file (Files.Path.join path name) else target

theorem text_ofText (s : String) : (ofText s).text = s := by
  unfold ofText
  split
  · rename_i key h
    have := Text.dropFront?_eq_some_iff.mp h
    simp only [text]
    rw [← String.toList_inj]
    simp [this]
  · rfl

end Operand

end CommandPool.Store
