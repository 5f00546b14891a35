/-!
# File trees

A tree gives each place either a file with its bytes, or a directory, or
nothing.  A place is the list of names from the root down to it, and the root is
a directory always.  `find?` is the view through which all else is stated; `put`
and `erase` change it at one place only.
-/

namespace CommandPool.Files

/-- A place: the names from the root down. -/
abbrev Place := List String

/-- What is at a place. -/
inductive Node where
  /-- A regular file with its bytes. -/
  | file (bytes : List UInt8)
  /-- A directory. -/
  | dir
  deriving DecidableEq, Repr

/-- The node is a directory. -/
def Node.isDir : Node → Bool
  | .dir => true
  | .file _ => false

/-- A tree of files and directories. -/
structure Tree where
  /-- The places below the root that hold something, each once. -/
  nodes : List (Place × Node)
  deriving DecidableEq, Repr

namespace Tree

/-- The tree that is a root alone. -/
def empty : Tree := ⟨[]⟩

/-- What is at a place. -/
def find? (t : Tree) (p : Place) : Option Node :=
  if p = [] then some .dir else t.nodes.lookup p

/-- The tree with a node put at a place, instead of what was there. -/
def put (t : Tree) (p : Place) (n : Node) : Tree :=
  ⟨if (t.nodes.lookup p).isSome then t.nodes.map fun e => if e.1 = p then (p, n) else e
    else t.nodes ++ [(p, n)]⟩

/-- The tree with nothing at a place. -/
def erase (t : Tree) (p : Place) : Tree := ⟨t.nodes.filter fun e => e.1 ≠ p⟩

/-- The tree with nothing at a place and below it. -/
def eraseBelow (t : Tree) (p : Place) : Tree := ⟨t.nodes.filter fun e => !p.isPrefixOf e.1⟩

/-- The names in a directory, with their nodes. -/
def children (t : Tree) (p : Place) : List (String × Node) :=
  t.nodes.filterMap fun e =>
    match e.1.getLast? with
    | some name => if e.1 = p ++ [name] then some (name, e.2) else none
    | none => none

/-- A place, with the directories it needs above it, made into directories where
there is nothing. -/
def putDirs (t : Tree) (above : Place) : List String → Tree
  | [] => t
  | name :: rest =>
    let p := above ++ [name]
    putDirs (if (t.find? p).isSome then t else t.put p .dir) p rest

/-! ## The view -/

theorem find?_nil (t : Tree) : t.find? [] = some .dir := rfl

end Tree

end CommandPool.Files
