import CommandPool.Handoff.Basic

/-!
# Polls at the same time

Polls on different threads overlap: while one is between two of its parts, others
may move.  A receiver may accept a delivery after its send has seen the signal and
before it has withdrawn it, or a send may withdraw it while a receiver holds it.

A *piece* is a whole step or the part of a poll before such a gap.  The next poll
of the same send or receive is then the rest of the one that was begun.
-/

namespace CommandPool.Handoff

variable {α : Type}

/-- What can happen while polls overlap. -/
inductive Piece (α : Type) where
  /-- A whole step, or the rest of a poll. -/
  | whole (l : Label α)
  /-- A send enters the line. -/
  | offer (job : α) (signal : Nat)
  /-- A send that has not seen its signal finds no receiver left. -/
  | shutOut (ticket : Nat)
  /-- A send that has not seen its signal posts its delivery. -/
  | post (ticket : Nat)
  /-- A send sees its signal. -/
  | sight (ticket : Nat)
  /-- A receive enters the line. -/
  | ask
  /-- A receive takes a delivery. -/
  | take (turn : Nat)
  deriving Repr

/-- One piece, if it is possible. -/
def stepPiece (h : Handoff α) : Piece α → Option (Handoff α)
  | .whole l => h.step l
  | .offer job signal => if h.senderOpen then some (h.offer job signal) else none
  | .shutOut ticket => h.shutOut ticket
  | .post ticket => h.post ticket
  | .sight ticket => h.sight ticket
  | .ask => if h.receivers = 0 then none else some h.ask
  | .take turn => h.take turn

/-- The handoff after several pieces, if each is possible. -/
def pieces (h : Handoff α) : List (Piece α) → Option (Handoff α)
  | [] => some h
  | l :: ls => (h.stepPiece l).bind fun h => h.pieces ls

end CommandPool.Handoff
