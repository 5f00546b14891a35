import CommandPool.Files.Path

/-!
# Object keys

The key of an object is the path of its file below the root of the store.  It is
a key only if it cannot lead elsewhere: it is not empty and all its parts are
names.  The path of an object is the text of its key after the text of the root.
-/

namespace CommandPool.Store.Key

/-- The part is a name. -/
def isName : Files.Path.Part → Bool
  | .name _ => true
  | _ => false

/-- The text is a key. -/
def isValid (key : String) : Bool := key ≠ "" && (Files.Path.parts key).all isName

/-- The path of the object with the given key. -/
def path? (root key : String) : Option String :=
  if isValid key then some (Files.Path.join root key) else none

/-- The key of what lies at a path: the parts behind those of the root, if these are in front. -/
def ofPath? (root path : String) : Option String :=
  ((Files.Path.parts root).isPrefixOf? (Files.Path.parts path)).map fun parts =>
    Files.Path.joinSegments (parts.map Files.Path.Part.text)

end CommandPool.Store.Key
