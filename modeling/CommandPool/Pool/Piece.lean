import CommandPool.Pool.Basic

/-!
# Workers and clients at the same time

Workers and clients run on different threads, and their polls of the queue overlap.
As in `CommandPool.Handoff.Piece`, a *piece* is a whole step or the part of a poll
before a gap in which others may move.  A worker that asks or takes has looked at the
cancellation before, so the run may be cancelled by then; the same holds for a client
whose send finds no receiver left or posts its delivery.
-/

namespace CommandPool.Pool

variable {α : Type}

/-- What can happen in a pool while polls overlap. -/
inductive Piece (α : Type) where
  /-- A whole step, or the rest of a poll. -/
  | whole (l : Label α)
  /-- A client starts to submit a job. -/
  | offer (job : Job α)
  /-- A client that has not seen the cancellation finds no worker left. -/
  | shutOut (ticket : Nat)
  /-- A client that has not seen the cancellation posts its job. -/
  | post (ticket : Nat)
  /-- A client sees the cancellation while its job waits in the slot. -/
  | sight (ticket : Nat)
  /-- A worker that has not seen the cancellation asks for a job. -/
  | ask (w : Nat)
  /-- A worker that has not seen the cancellation takes a delivery. -/
  | take (w : Nat)
  deriving Repr

/-- The pool with a part of a poll of the queue done, if it is possible. -/
def onQueue (p : Pool α) (q : Option (Handoff (Job α))) : Option (Pool α) :=
  q.map fun q => { p with queue := q }

/-- One piece, if it is possible. -/
def stepPiece (p : Pool α) : Piece α → Option (Pool α)
  | .whole l => p.step l
  | .offer job =>
    if p.joined.isNone then some { p with queue := p.queue.offer job signal } else none
  | .shutOut ticket => p.onQueue (p.queue.shutOut ticket)
  | .post ticket => p.onQueue (p.queue.post ticket)
  | .sight ticket => p.onQueue (p.queue.sight ticket)
  | .ask w =>
    match p.phase? w with
    | some .idle => some ({ p with queue := p.queue.ask }.setPhase w (.asking p.queue.nextTurn))
    | _ => none
  | .take w =>
    match p.phase? w with
    | some (.asking turn) => p.onQueue (p.queue.take turn)
    | _ => none

/-- The pool after several pieces, if each is possible. -/
def pieces (p : Pool α) : List (Piece α) → Option (Pool α)
  | [] => some p
  | l :: ls => (p.stepPiece l).bind fun p => p.pieces ls

end CommandPool.Pool
