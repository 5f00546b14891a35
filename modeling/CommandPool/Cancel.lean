/-!
# Cancelling

A cancel context is a handle on a signal.  A clone of a handle is a handle on
the same signal, a new context has a signal of its own.  A signal that was
given stays given.
-/

namespace CommandPool

/-- Handles on signals, numbered in the order in which they were made. -/
structure CancelContexts where
  /-- The signal of each handle. -/
  signals : List Nat
  /-- The signals that were given. -/
  given : List Nat
  deriving Repr

namespace CancelContexts

/-- One handle on one signal. -/
def first : CancelContexts := ⟨[0], []⟩

/-- One more handle, on a signal of its own. -/
def new (c : CancelContexts) : CancelContexts :=
  { c with signals := c.signals ++ [c.signals.length] }

/-- One more handle, on the signal of the given handle. -/
def clone (c : CancelContexts) (handle : Nat) : CancelContexts :=
  match c.signals[handle]? with
  | some s => { c with signals := c.signals ++ [s] }
  | none => c

/-- Gives the signal of a handle. -/
def cancel (c : CancelContexts) (handle : Nat) : CancelContexts :=
  match c.signals[handle]? with
  | some s => { c with given := s :: c.given }
  | none => c

/-- The signal of a handle was given. -/
def isCancelled (c : CancelContexts) (handle : Nat) : Bool :=
  match c.signals[handle]? with
  | some s => c.given.contains s
  | none => false

/-- Whether the signal was given, for every handle. -/
def states (c : CancelContexts) : List Bool := c.signals.map c.given.contains

end CancelContexts

end CommandPool
