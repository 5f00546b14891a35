import CommandPool.Command.Line
import CommandPool.Command.Run
import CommandPool.Lines.File
import CommandPool.Pool.Timeline

/-!
# Command lines on a pool

A batch is a number of command lines that are run on a pool of workers, against
one store.  A command takes no time of its own.  It finds the files as the
commands before it left them, and what it logs and counts belongs to the run.
An upload whose chunks are longer than any buffer takes its worker down.

Lines may come from a file.  It stays open, and is read portion by portion as the
run goes on.  So a command that writes to it can change the lines to come.
-/

namespace CommandPool.Batch

open Files (FileSystem)
open Pool (Intake Traces Timeline.Ending Timeline.State)

/-- Opens a pool whose workers run commands against the store at `root`. -/
def openPool (settings : Settings) (root : String) (fs : FileSystem) :
    Except PoolError (Pool Command) :=
  Pool.openWith settings (Store.Site.forWorker fs root settings) false

/-- How a command that has left these traces ends. -/
def endingOf (traces : Traces) : Except Store.Failure Unit → Timeline.Ending
  | .ok _ => .report ⟨.ok (), traces⟩
  | .error (.error e) => .report ⟨.error e.toJobError, traces⟩
  | .error .noBuffer => .panic traces

/-- How an attempt at a command goes. -/
def behave (site : Store.Site) : Pool.Timeline.Behaviour Command FileSystem := fun c _ fs =>
  let (answer, w) := c.execute site ⟨fs, .zero, []⟩
  (⟨0, false, 0, endingOf ⟨w.log, w.counters.storageOp, w.counters.fileOp⟩ answer⟩, w.files)

/-- The lines of a source, all of which is there already. -/
def intakeOf : Lines.Source → Intake
  | .broken fault => .broken fault
  | .bytes reader portions => .stream (reader.deliver portions.flatten).finish

/-- The lines of the file that a path leads to, which is held open from now on. -/
def openFile (fs : FileSystem) (path : String) : Except Files.Fault (Intake × FileSystem) :=
  match (FileSystem.hold path).run fs with
  | (.ok (), fs) => .ok (.drawn .empty 0, fs)
  | (.error fault, _) => .error fault

/-- The file that is held open, in portions of the usual size.  Commands make no
file longer than the longest one. -/
def heldFile : Pool.Timeline.Supply FileSystem where
  draw fs count := ((FileSystem.readHeld count Lines.Source.readSize).run fs).1
  limit := FileSystem.longestFile

/-- Feeds lines to an open pool and waits until all is done. -/
def run (settings : Settings) (root : String) (p : Pool Command) (fs : FileSystem)
    (intake : Intake) : Timeline.State Command FileSystem :=
  Pool.Timeline.run (behave (.of root settings)) heldFile CommandLine.parse p fs
    (.feeding (.new intake)) []

end CommandPool.Batch
