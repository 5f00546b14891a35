import CommandPool.Pool.Piece

/-!
# A pool and its client

A client has a list of jobs.  It submits them in that order, and may begin with the next
one before the submission of the last one has ended.  When it has begun with all of them
and all submissions have ended it joins.  Beyond that nothing is said about the order of
steps: a run is one of all interleavings of the workers, the clock, the submissions, the
client that waits and a cancellation.
-/

namespace CommandPool.Pool

variable {α : Type}

/-- The piece begins something that is up to a client. -/
def Piece.begins : Piece α → Bool
  | .whole (.submit _) => true
  | .whole (.reject ..) => true
  | .whole (.drop _) => true
  | .whole (.unreadable _) => true
  | .whole .close => true
  | .whole .beginJoin => true
  | .offer _ => true
  | _ => false

/-- A pool with a client. -/
structure Served (α : Type) where
  /-- The pool. -/
  pool : Pool α
  /-- The jobs that the client has still to submit. -/
  rest : List (Job α)
  deriving Repr

namespace Served

/-- What can happen while a client is served. -/
inductive Label (α : Type) where
  /-- A worker, the clock, a submission or the client that waits moves, or the run is
  cancelled. -/
  | piece (l : Piece α)
  /-- The client begins to submit its next job and looks at it at once. -/
  | submit
  /-- The client begins to submit its next job. -/
  | offer
  /-- The client joins. -/
  | beginJoin
  deriving Repr

/-- The run is cancelled. -/
def Label.isCancel : Label α → Bool
  | .piece (.whole .cancel) => true
  | _ => false

/-- The client begins to submit its next job by this piece. -/
def submitBy (c : Served α) (piece : Job α → Piece α) : Option (Served α) :=
  match c.rest with
  | [] => none
  | job :: rest => (c.pool.stepPiece (piece job)).map fun p => ⟨p, rest⟩

/-- One step, if it is possible. -/
def step (c : Served α) : Label α → Option (Served α)
  | .piece l => if l.begins then none else (c.pool.stepPiece l).map fun p => { c with pool := p }
  | .submit => c.submitBy fun job => .whole (.submit job)
  | .offer => c.submitBy .offer
  | .beginJoin =>
    if c.rest.isEmpty then c.pool.beginJoin.map fun p => { c with pool := p } else none

/-- The pool and its client after several steps, if each is possible. -/
def steps (c : Served α) : List (Label α) → Option (Served α)
  | [] => some c
  | l :: ls => (c.step l).bind fun c => c.steps ls

/-- Every submission has ended, every worker is gone and the client has joined. -/
structure IsDone (c : Served α) : Prop where
  begun : c.rest = []
  ended : c.pool.queue.sending = false
  gone : ∀ w phase, c.pool.phase? w = some phase → phase = .stopped ∨ phase = .panicked
  joined : c.pool.isJoined = true

end Served

end CommandPool.Pool
