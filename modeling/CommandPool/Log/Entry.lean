import CommandPool.Text.Inert

/-!
# Log entries

An entry is written by a part of the program, and has a level, a message and
named fields.  Its line is the level, the message and each field as
`name=value`, and a threshold keeps the entries of its level and of the graver
ones.

The message goes to the line in a form that steers no terminal.  The fields do
not.
-/

namespace CommandPool.Log

/-- How grave an entry is. -/
inductive Level where
  | info
  | warn
  | error
  deriving DecidableEq, Repr

/-- The name of a level. -/
def Level.name : Level → String
  | .info => "INFO"
  | .warn => "WARN"
  | .error => "ERROR"

/-- A part of the program that writes entries. -/
inductive Part where
  /-- The program itself, when it cannot start. -/
  | program
  /-- The counters, at the end of a run. -/
  | counters
  /-- The pool, about its workers. -/
  | pool
  /-- The feeder, about lines. -/
  | feeder
  /-- A worker, about the nodes of its jobs. -/
  | worker
  /-- A command. -/
  | command
  deriving DecidableEq, Repr

/-- The name by which the settings of a log filter speak of a part. -/
def Part.name : Part → String
  | .program => "fanout"
  | .counters => "fanout_core::stats"
  | .pool => "fanout_executor::pool"
  | .feeder => "fanout_executor::feeder"
  | .worker => "fanout_executor::worker"
  | .command => "fanout_storage::command"

/-- The value of a field. -/
inductive Value where
  /-- A whole number. -/
  | number (n : Nat)
  /-- A text, shown as it is. -/
  | text (s : String)
  deriving DecidableEq, Repr

/-- A value as text. -/
def Value.show : Value → String
  | .number n => toString n
  | .text s => s

/-- A log entry. -/
structure Entry where
  /-- How grave it is. -/
  level : Level
  /-- Who writes it. -/
  part : Part
  /-- What it says. -/
  message : String
  /-- Its fields, in the order of its line. -/
  fields : List (String × Value)
  /-- The names of its further fields.  Their values differ from run to run, so
  they are not kept. -/
  marks : List String
  deriving DecidableEq, Repr

/-- An entry has a field of this name.  Its message is a field too. -/
def Entry.hasField (e : Entry) (name : String) : Bool :=
  name == "message" || e.fields.any (·.1 == name) || e.marks.contains name

/-- The line of an entry. -/
def Entry.line (e : Entry) : String :=
  " ".intercalate
    (e.level.name :: Text.inert e.message :: e.fields.map fun f => f.1 ++ "=" ++ f.2.show)

/-! ## Thresholds -/

/-- The least level that is shown. -/
inductive Threshold where
  | nothing
  | error
  | warn
  | info
  deriving DecidableEq, Repr

/-- The threshold lets a level through. -/
def Threshold.shows : Threshold → Level → Bool
  | .nothing, _ => false
  | .error, l => l == .error
  | .warn, l => l != .info
  | .info, _ => true

end CommandPool.Log
