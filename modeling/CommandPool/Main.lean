import CommandPool.Cli.Run
import CommandPool.Log.Json

/-!
# The command line

A rehearsal of a run.  It takes the arguments, the environment and the standard
input of the program, but its files are held in memory.  They begin as the root
of the store alone, an empty directory.  The log goes to the standard error.
-/

namespace CommandPool.Cli

open Files (FileSystem)

/-! ## What is shown -/

/-- The lines of a log. -/
def logLines (json : Bool) (log : List Log.Entry) : List String :=
  log.map fun e => if json then e.json else e.line

/-- How the program is used. -/
def usage : String :=
  "usage: [-n WORKERS] [-c MEBIBYTES] [-r RETRIES] --store-root DIR [--json-logs] "
    ++ "(-f PATH | COMMAND...)"

/-- The version of the program. -/
def versionText : String := "0.1.0"

/-- What the program says when it does not run. -/
def Stop.text : Stop → String
  | .help => usage
  | .version => versionText
  | .noValue => "an option has no value\n" ++ usage
  | .badValue => "the value of an option is invalid\n" ++ usage
  | .strayValue => "an option takes no value\n" ++ usage
  | .conflict => "two arguments exclude each other\n" ++ usage
  | .missing => "an argument is missing\n" ++ usage

/-- The lines that the program shows. -/
def Ending.lines : Ending → List String
  | .stopped why => [why.text]
  | .ran options outcome => logLines options.jsonLogs outcome.log

/-! ## What is given -/

/-- The files of a rehearsal. -/
def rehearsalFiles (env : String → Option String) (args : List String) : FileSystem :=
  let empty : FileSystem := ⟨.empty, [], none⟩
  match Options.parse env args with
  | .ok options => ((FileSystem.createDirAll options.storeRoot).run empty).2
  | .error _ => empty

/-- The variables of the environment that the program reads. -/
def envNames : List String := filterVariable :: Opt.all.filterMap (·.envName?)

/-- The values of these variables. -/
def readEnvironment : IO (String → Option String) := do
  let values ← envNames.mapM fun name => do return (name, ← IO.getEnv name)
  return fun name => (values.lookup name).bind id

/-- The bytes of the standard input from here on. -/
partial def readBytes (input : IO.FS.Stream) (front : ByteArray) : IO ByteArray := do
  let bytes ← input.read 65536
  if bytes.isEmpty then return front else readBytes input (front ++ bytes)

/-- The standard input, if the arguments ask for it. -/
def readInput (env : String → Option String) (args : List String) : IO (List UInt8) :=
  match Options.parse env args with
  | .ok { input := .standard, .. } => do
    return (← readBytes (← IO.getStdin) .empty).toList
  | _ => return []

end CommandPool.Cli

/-- Runs the program. -/
def main (args : List String) : IO UInt32 := do
  let env ← CommandPool.Cli.readEnvironment
  let bytes ← CommandPool.Cli.readInput env args
  let files := CommandPool.Cli.rehearsalFiles env args
  let ending := CommandPool.Cli.program env args bytes files
  for line in ending.lines do
    IO.eprintln line
  return UInt32.ofNat ending.exitCode
