import CommandPool.Files.FileSystem
import CommandPool.Lines.Reader

/-!
# Lines of a file

A file is opened once, and its lines are read from then on.  A directory can be
opened too; then every read fails.
-/

namespace CommandPool.Lines.Source

/-- The bytes that are read from a file at a time. -/
def readSize : Nat := 8 * 1024

/-- The lines of what a path leads to. -/
def ofFile (fs : Files.FileSystem) (path : String) : Except Files.Fault Source :=
  match (Files.FileSystem.openRead path).run fs with
  | (.error fault, _) => .error fault
  | (.ok place, _) =>
    match (Files.FileSystem.readAll place).run fs with
    | (.ok content, _) => .ok (.ofBytes readSize content)
    | (.error fault, _) => .ok (.broken fault)

end CommandPool.Lines.Source
