import CommandPool.Batch
import CommandPool.Cli.Args
import CommandPool.Log.Filter

/-!
# The program

The program opens its input, then a pool, feeds it the lines of the input, and
closes with an entry of all counters.  Its exit code is 0 when nothing has
failed, 1 when a command or a line has failed or the run could not be started,
and 2 when its arguments are wrong.
-/

namespace CommandPool.Cli

open Files (FileSystem)
open Pool (Intake)

/-! ## Running -/

/-- What a run leaves. -/
structure Outcome where
  /-- Its exit code. -/
  exitCode : Nat
  /-- What it has logged. -/
  log : List Log.Entry
  /-- The files afterwards. -/
  files : FileSystem
  deriving Repr

/-- Opens the input, which is `bytes` when it is the standard input.  A file is
held open. -/
def openInput (fs : FileSystem) (bytes : List UInt8) :
    Input → Except String (Intake × FileSystem)
  | .standard => .ok (Batch.intakeOf (.ofBytes Lines.Source.readSize bytes), fs)
  | .file path =>
    match Batch.openFile fs path with
    | .ok opened => .ok opened
    | .error fault => .error ("failed to open " ++ path ++ ": " ++ fault.message)
  | .line text => .ok (.single text, fs)

/-- The outcome of a run that could not be started. -/
def Outcome.unstarted (fs : FileSystem) (message : String) : Outcome :=
  ⟨1, [⟨.error, .program, message, [], []⟩], fs⟩

/-- Runs the program with its options. -/
def run (o : Options) (bytes : List UInt8) (fs : FileSystem) : Outcome :=
  match openInput fs bytes o.input with
  | .error message => .unstarted fs message
  | .ok (intake, fs) =>
    match Batch.openPool o.settings o.storeRoot fs with
    | .error e =>
      .unstarted fs ("failed to start worker pool: " ++ ": ".intercalate e.chain)
    | .ok pool =>
      let final := Batch.run o.settings o.storeRoot pool fs intake
      let counters := final.pool.counters
      ⟨if counters.fail > 0 then 1 else 0, final.log.map (·.2) ++ [counters.summary],
        final.world.release⟩

/-! ## From arguments to an exit code -/

/-- What the whole program leaves. -/
inductive Ending where
  /-- It did not run. -/
  | stopped (why : Stop)
  /-- It ran. -/
  | ran (options : Options) (outcome : Outcome)
  deriving Repr

/-- The exit code of the program. -/
def Ending.exitCode : Ending → Nat
  | .stopped why => why.exitCode
  | .ran _ outcome => outcome.exitCode

/-- The variable of the environment with the filter setting. -/
def filterVariable : String := "RUST_LOG"

/-- The log filter that an environment asks for. -/
def filterOf (env : String → Option String) : Log.Filter :=
  ((env filterVariable).map Log.Filter.ofSetting).getD .standard

/-- The program: what it leaves, given its environment, its arguments, its
standard input and the files.  Of the log only what the filter shows is kept. -/
def program (env : String → Option String) (args : List String) (bytes : List UInt8)
    (fs : FileSystem) : Ending :=
  match Options.parse env args with
  | .error why => .stopped why
  | .ok options =>
    let outcome := run options bytes fs
    .ran options { outcome with log := outcome.log.filter (filterOf env).shows }

end CommandPool.Cli
