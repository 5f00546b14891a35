import CommandPool.Lines.Reader

/-!
# Lines of bytes that arrive

Bytes arrive in their own time and wait until they are read.  Lines are read through a buffer:
whenever the reader has used up what it was given, it is given as many bytes as wait, up to the
size of the buffer.  A call for the next line that finds none hangs, and is polled again later.

A poll looks first whether the run was cancelled, and reads nothing then.
-/

namespace CommandPool.Lines

/-- Lines that are read while their bytes arrive. -/
structure Inflow where
  /-- Reads the lines. -/
  reader : Reader
  /-- The bytes that have arrived and were not given to the reader. -/
  waiting : List UInt8
  /-- No more bytes arrive. -/
  closed : Bool
  /-- The run was cancelled. -/
  cancelled : Bool
  /-- What the calls gave that are over, in order. -/
  given : List Reading
  deriving DecidableEq, Repr

namespace Inflow

/-- Nothing has arrived. -/
def new : Inflow := ⟨.empty, [], false, false, []⟩

/-- Polls a call, with a buffer of `size` bytes. -/
def poll (size : Nat) (s : Inflow) : Option Reading × Inflow :=
  if s.cancelled then (some .cancelled, s)
  else
    let portions := portionsOf (size - 1) s.waiting.length s.waiting
    let (reading, r, left) := s.reader.read s.closed portions
    (reading, { s with reader := r, waiting := left.flatten })

/-- What can happen. -/
inductive Label where
  /-- Bytes arrive. -/
  | arrive (bytes : List UInt8)
  /-- No more bytes arrive. -/
  | close
  /-- The run is cancelled. -/
  | cancel
  /-- The next line is called for, or the call that hangs is polled. -/
  | poll
  deriving Repr

/-- One step, if it is possible. -/
def step (size : Nat) (s : Inflow) : Label → Option Inflow
  | .arrive bytes => if s.closed then none else some { s with waiting := s.waiting ++ bytes }
  | .close => some { s with closed := true }
  | .cancel => some { s with cancelled := true }
  | .poll =>
    let (reading, s) := s.poll size
    some { s with given := s.given ++ reading.toList }

/-- Several steps, if each is possible. -/
def steps (size : Nat) (s : Inflow) : List Label → Option Inflow
  | [] => some s
  | l :: ls => (s.step size l).bind fun s => s.steps size ls

end Inflow

end CommandPool.Lines
