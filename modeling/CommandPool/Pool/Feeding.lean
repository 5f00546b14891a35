import CommandPool.Lines.Reader
import CommandPool.Pool.Basic
import CommandPool.Text.Front

/-!
# Feeding a pool with lines

A feeder reads lines, and makes a job of each line that holds a command.  It
waits until a worker has the job before it reads on.  Blank lines and comments
hold no command, and a line that cannot be read as one is noted and counted.

A feeder is finished when its input has ended or cannot be read, when the run is
cancelled, and when no worker is left.  It never looks at what becomes of a job.
-/

namespace CommandPool.Pool

variable {α : Type}

/-! ## Input -/

/-- Where a feeder reads. -/
inductive Intake where
  /-- Bytes that arrive one by one. -/
  | stream (reader : Lines.Reader)
  /-- Bytes that are drawn from the world when they are needed, and how many were.
  The world may have changed when more of them are drawn, so their end is not for
  good. -/
  | drawn (reader : Lines.Reader) (count : Nat)
  /-- Something that every read of fails, such as a directory. -/
  | broken (fault : Files.Fault)
  /-- One line, which is at hand.  It is read even after the cancellation. -/
  | single (line : String)
  /-- No line any more. -/
  | spent
  deriving Repr

namespace Intake

/-- The next reading, unless it hangs on bytes that are still to come. -/
def poll (cancelled : Bool) : Intake → Option (Lines.Reading × Intake)
  | .single line => some (.line line, .spent)
  | .spent => some (.eof, .spent)
  | .broken fault => some (if cancelled then .cancelled else .fault fault, .broken fault)
  | .stream r =>
    if cancelled then some (.cancelled, .stream r)
    else match r.poll with
      | (some reading, r) => some (reading, .stream r)
      | (none, _) => none
  | .drawn r count =>
    if cancelled then some (.cancelled, .drawn r count)
    else match r.poll with
      | (some reading, r) => some (reading, .drawn r.reopen count)
      | (none, _) => none

/-- Bytes arrive. -/
def deliver (bytes : List UInt8) : Intake → Intake
  | .stream r => .stream (r.deliver bytes)
  | i => i

/-- No more bytes arrive. -/
def finish : Intake → Intake
  | .stream r => .stream r.finish
  | i => i

/-- Bytes were drawn, or there were none, or a fault. -/
def receive (got : Except Files.Fault (List UInt8)) : Intake → Intake
  | .drawn r count =>
    match got with
    | .ok bytes =>
      if bytes.isEmpty then .drawn r.finish count
      else .drawn (r.deliver bytes) (count + bytes.length)
    | .error fault => .broken fault
  | i => i

end Intake

/-! ## Lines -/

/-- What marks a line as a comment. -/
def commentMark : String := "#"

/-- The command that a line holds, unless it is blank or a comment. -/
def commandOf? (line : String) : Option String :=
  let text := Text.trim line
  if text = "" || Text.startsWith commentMark text then none else some text

/-- How lines are read as jobs. -/
abbrev Parse (α : Type) := String → Except ParseError (Job α)

/-! ## Feeders -/

/-- What a feeder is doing. -/
inductive Feeding where
  /-- It reads the next line. -/
  | reading
  /-- It waits until a worker has the job of a line. -/
  | offering (ticket : Nat) (line : String)
  /-- It reads no further. -/
  | finished
  deriving DecidableEq, Repr

/-- A feeder. -/
structure Feeder where
  /-- Where it reads. -/
  intake : Intake
  /-- What it is doing. -/
  feeding : Feeding
  deriving Repr

namespace Feeder

/-- A feeder that has not read anything. -/
def new (intake : Intake) : Feeder := ⟨intake, .reading⟩

/-- Takes a line: its job is offered to the workers, or it is rejected. -/
def takeLine (parse : Parse α) (p : Pool α) (line : String) : Option (Pool α × Feeding) :=
  match commandOf? line with
  | none => some (p, .reading)
  | some text =>
    match parse text with
    | .error e => (p.step (.reject text e)).map fun p => (p, .reading)
    | .ok job => (p.step (.submit job)).map fun q => (q, .offering p.queue.nextTicket text)

/-- Takes what a read gives. -/
def take (parse : Parse α) (p : Pool α) : Lines.Reading → Option (Pool α × Feeding)
  | .line s => takeLine parse p s
  | .eof => some (p, .finished)
  | .cancelled => some (p, .finished)
  | .fault f => (p.step (.unreadable f)).map fun p => (p, .finished)

/-- Looks at a job that is offered. -/
def lookAtOffer (p : Pool α) (ticket : Nat) (line : String) : Option (Pool α × Feeding) :=
  match p.queue.sendEnd? ticket with
  | none => (p.step (.pollSubmit ticket)).map fun p => (p, .offering ticket line)
  | some .accepted => some (p, .reading)
  | some (.refused .cancelled) => some (p, .finished)
  | some (.refused .closed) => (p.step (.drop line)).map fun p => (p, .finished)

/-- One step of a feeder, if it can take one. -/
def step (parse : Parse α) (p : Pool α) (f : Feeder) : Option (Pool α × Feeder) :=
  match f.feeding with
  | .reading =>
    (f.intake.poll p.cancelled).bind fun (reading, intake) =>
      (take parse p reading).map fun (p, feeding) => (p, ⟨intake, feeding⟩)
  | .offering ticket line =>
    (lookAtOffer p ticket line).map fun (p, feeding) => (p, ⟨f.intake, feeding⟩)
  | .finished => none

end Feeder

end CommandPool.Pool
