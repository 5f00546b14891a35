/-!
# Path texts

A path is a text of segments with slashes between them.  Read as *parts*, a
slash in front is the root, an empty segment stands for nothing, and so does `.`
unless it is the first segment of a path without a root.  `leafName?`, `parent?`
and `join` work on the text alone and do not look at any file.
-/

namespace CommandPool.Files.Path

/-! ## Segments -/

/-- The pieces between the slashes of a text.  There is one more than slashes. -/
def splitSlash : List Char → List (List Char)
  | [] => [[]]
  | c :: cs =>
    if c = '/' then [] :: splitSlash cs
    else match splitSlash cs with
      | [] => [[c]]
      | w :: ws => (c :: w) :: ws

/-- The segments of a path. -/
def segments (p : String) : List String := (splitSlash p.toList).map String.ofList

/-- Segments with a slash between two of them. -/
def joinSegments (ss : List String) : String := "/".intercalate ss

/-- A path starts at the root. -/
def isAbsolute (p : String) : Bool := p.toList.head? == some '/'

/-- A path ends with a slash. -/
def endsWithSlash (p : String) : Bool := p.toList.getLast? == some '/'

/-! ## Parts -/

/-- A part of a path. -/
inductive Part where
  /-- The root of all files. -/
  | root
  /-- The directory itself. -/
  | here
  /-- The directory above. -/
  | up
  /-- A name in the directory. -/
  | name (s : String)
  deriving DecidableEq, Repr

/-- How a part is written. -/
def Part.text : Part → String
  | .root => "/"
  | .here => "."
  | .up => ".."
  | .name s => s

/-- The part that a segment after the first one stands for, if any. -/
def innerPart? (s : String) : Option Part :=
  if s = "" || s = "." then none else if s = ".." then some .up else some (.name s)

/-- The parts of a path. -/
def parts (p : String) : List Part :=
  match segments p with
  | [] => []
  | first :: rest =>
    let inner := rest.filterMap innerPart?
    if isAbsolute p then .root :: inner
    else if first = "." then .here :: inner
    else (innerPart? first).toList ++ inner

/-- The name a path ends with, if its last part is a name. -/
def leafName? (p : String) : Option String :=
  match (parts p).getLast? with
  | some (.name s) => some s
  | _ => none

/-! ## Parents -/

/-- Without the segments at the end that stand for nothing.  The first segment of
a path without a root stands for nothing only if it is empty. -/
def dropIdle (absolute : Bool) (reversed : List String) : List String :=
  match reversed with
  | [] => []
  | [s] => if s = "" || absolute then [] else [s]
  | s :: t :: rest =>
    if s = "" || s = "." then dropIdle absolute (t :: rest) else s :: t :: rest

/-- The path above a path: without its last part and the slashes before it.  The
root and the empty path have none. -/
def parent? (p : String) : Option String :=
  let absolute := isAbsolute p
  match dropIdle absolute (segments p).reverse with
  | [] => none
  | _ :: rest =>
    match dropIdle absolute rest with
    | [] => some (if absolute then "/" else "")
    | kept => some (joinSegments kept.reverse)

/-! ## Joining -/

/-- A path below another one, with one slash between them if there is none.  A
path that starts at the root stands for itself. -/
def join (base p : String) : String :=
  if isAbsolute p then p
  else if base = "" || endsWithSlash base then base ++ p
  else base ++ "/" ++ p

end CommandPool.Files.Path
