import CommandPool.Pool.Feeding
import CommandPool.Pool.Served

/-!
# A pool that is fed from any source

What a feeder does depends neither on where its lines come from nor on who reads them as jobs.
Here both are left open.  A source may give any reading at any time, and a parser may remember
what it was asked before and answer by that.  The feeder is the only client, and joins when it
is finished.  The workers of the pool move meanwhile, so a run is one of all interleavings, as
for `CommandPool.Pool.Piece`.
-/

namespace CommandPool.Pool

variable {α σ : Type}

/-- Who reads lines as jobs, and may remember what it was asked. -/
abbrev Parser (α σ : Type) := String → StateM σ (Except ParseError (Job α))

/-- A pool with a feeder that reads from a source and asks a parser. -/
structure Sourced (α σ : Type) where
  /-- The pool. -/
  pool : Pool α
  /-- What the feeder is doing. -/
  feeding : Feeding
  /-- What the parser remembers. -/
  memory : σ

namespace Sourced

/-- What can happen while a pool is fed. -/
inductive Label (α : Type) where
  /-- A worker, the clock, a submission or the client that waits moves, or the run is
  cancelled. -/
  | piece (l : Piece α)
  /-- The source gives this reading to the feeder. -/
  | read (reading : Lines.Reading)
  /-- The feeder looks at the job it offers. -/
  | look
  /-- The feeder is finished, and the pool is joined. -/
  | join
  deriving Repr

/-- Takes a line: its job is offered to the workers, or it is rejected. -/
def takeLine (ask : Parser α σ) (p : Pool α) (line : String) :
    StateM σ (Option (Pool α × Feeding)) :=
  match commandOf? line with
  | none => return some (p, .reading)
  | some text => do
    match ← ask text with
    | .error e => return (p.step (.reject text e)).map fun p => (p, .reading)
    | .ok job =>
      return (p.step (.submit job)).map fun q => (q, .offering p.queue.nextTicket text)

/-- Takes what a read gives. -/
def take (ask : Parser α σ) (p : Pool α) :
    Lines.Reading → StateM σ (Option (Pool α × Feeding))
  | .line s => takeLine ask p s
  | .eof => return some (p, .finished)
  | .cancelled => return some (p, .finished)
  | .fault f => return (p.step (.unreadable f)).map fun p => (p, .finished)

/-- One step, if it is possible. -/
def step (ask : Parser α σ) (f : Sourced α σ) : Label α → Option (Sourced α σ)
  | .piece l => if l.begins then none else (f.pool.stepPiece l).map fun p => { f with pool := p }
  | .read reading =>
    if f.feeding = .reading then
      let (taken, memory) := (take ask f.pool reading).run f.memory
      taken.map fun (p, feeding) => ⟨p, feeding, memory⟩
    else none
  | .look =>
    match f.feeding with
    | .offering ticket line =>
      (Feeder.lookAtOffer f.pool ticket line).map fun (p, feeding) => ⟨p, feeding, f.memory⟩
    | _ => none
  | .join =>
    if f.feeding = .finished then f.pool.beginJoin.map fun p => { f with pool := p } else none

/-- The pool, its feeder and the parser after several steps, if each is possible. -/
def steps (ask : Parser α σ) (f : Sourced α σ) : List (Label α) → Option (Sourced α σ)
  | [] => some f
  | l :: ls => (f.step ask l).bind fun f => f.steps ask ls

end Sourced

end CommandPool.Pool
