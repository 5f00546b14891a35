import CommandPool.Command.ParseError
import CommandPool.Counters
import CommandPool.Duration
import CommandPool.Files.Fault
import CommandPool.Job.Error

/-!
# What happens in a pool

The history of a pool is a list of events.  The log of a run and its counters
are views of the history: an event gives at most one log entry, and it is
counted at most once.
-/

namespace CommandPool.Pool

/-- Which node of which job, at which worker. -/
structure Spot where
  /-- The number of the worker. -/
  worker : Nat
  /-- The ticket under which the job was submitted. -/
  ticket : Nat
  /-- How many nodes of the job came before. -/
  node : Nat
  /-- The label of the node. -/
  label : String
  deriving DecidableEq, Repr

/-- What happens in a pool. -/
inductive Event where
  /-- The pool has started. -/
  | opened (workers maxRetries chunkSize : Nat)
  /-- An attempt has started, the `number`-th of its node. -/
  | attempted (spot : Spot) (number : Nat)
  /-- An action has logged something. -/
  | noted (entry : Log.Entry)
  /-- An action has panicked, and with it its worker. -/
  | panicked (spot : Spot)
  /-- A throttled node waits for its `retry`-th retry. -/
  | throttled (spot : Spot) (retry : Nat) (delay : Duration)
  /-- The wait of a throttled node is over. -/
  | waited (spot : Spot)
  /-- A node has succeeded. -/
  | succeeded (spot : Spot)
  /-- A node has failed, after so many retries. -/
  | failed (spot : Spot) (retries : Nat) (error : JobError)
  /-- A line is no command. -/
  | rejected (line : String) (error : ParseError)
  /-- A command finds no worker left. -/
  | dropped (line : String)
  /-- The input cannot be read further. -/
  | unreadable (fault : Files.Fault)
  /-- A worker is found to have panicked. -/
  | mourned (worker : Nat)
  deriving Repr

namespace Event

/-- A text in plain double quotes. -/
def enquote (s : String) : String := "\"" ++ s ++ "\""

/-- The marks of an entry about a node. -/
def nodeMarks : List String := ["worker", "job_id"]

/-- The log entry of an event. -/
def entry? : Event → Option Log.Entry
  | .opened workers maxRetries chunkSize =>
    some ⟨.info, .pool, "worker pool started",
      [("workers", .number workers), ("max_retries", .number maxRetries),
        ("chunk_size_bytes", .number chunkSize)], []⟩
  | .noted entry => some entry
  | .throttled spot retry delay =>
    some ⟨.warn, .worker, "ratelimit " ++ enquote spot.label ++ ", sleep for " ++ delay.text,
      [("attempt", .number retry), ("delay", .text delay.text)], nodeMarks⟩
  | .succeeded spot => some ⟨.info, .worker, enquote spot.label ++ " OK", [], nodeMarks⟩
  | .failed spot retries error =>
    some ⟨.error, .worker, enquote spot.label ++ ": " ++ error.tidied,
      [("retries", .number retries)], nodeMarks⟩
  | .rejected line error =>
    some ⟨.error, .feeder, enquote line ++ ": " ++ error.message, [], []⟩
  | .dropped line =>
    some ⟨.warn, .feeder, "job queue closed, dropping " ++ enquote line, [], []⟩
  | .unreadable fault =>
    some ⟨.error, .feeder, "error reading input", [("error", .text fault.message)], []⟩
  | .mourned _ => some ⟨.error, .pool, "worker task failed", [], ["worker", "error"]⟩
  | .attempted .. => none
  | .panicked _ => none
  | .waited _ => none

/-- The counter that counts an event. -/
def counter? : Event → Option Counter
  | .succeeded _ => some .success
  | .failed .. => some .fail
  | .rejected .. => some .fail
  | .waited _ => some .retryOp
  | _ => none

end Event

end CommandPool.Pool
