import CommandPool.Pool.Feeding
import CommandPool.Pool.Piece

/-!
# A pool and its feeder

A feeder runs beside the workers of its pool.  Which of them moves next is left open, and
so is when bytes arrive and what the world has when more are drawn.  So a run here is one
of all interleavings, as for `CommandPool.Pool.Piece`; the pieces of the pool are those of
its workers, of the clock and of any other client.

What has come in is a list of *portions*.  A portion without bytes stands for the end of
what there was; after it a line is given as it stands, even if more is drawn later.
-/

namespace CommandPool.Pool

variable {α : Type}

/-- A pool with its feeder. -/
structure Fed (α : Type) where
  /-- The pool. -/
  pool : Pool α
  /-- Its feeder. -/
  feeder : Feeder
  deriving Repr

namespace Fed

/-- What can happen while a pool is fed. -/
inductive Label (α : Type) where
  /-- A piece of the pool. -/
  | pool (l : Piece α)
  /-- The feeder goes on. -/
  | feed
  /-- Bytes arrive at the feeder. -/
  | arrive (bytes : List UInt8)
  /-- No more bytes arrive. -/
  | inputEnds
  /-- The feeder draws bytes and gets these, or none, or a fault. -/
  | draw (got : Except Files.Fault (List UInt8))
  deriving Repr

/-- Bytes may still arrive. -/
def awaitsBytes (f : Fed α) : Bool :=
  match f.feeder.intake with
  | .stream r => !r.ended
  | _ => false

/-- The feeder reads, and can go on only with more bytes. -/
def hungers (f : Fed α) : Bool :=
  f.feeder.feeding == .reading && (f.feeder.intake.poll f.pool.cancelled).isNone

/-- The input of the feeder changes. -/
def onIntake (f : Fed α) (change : Intake → Intake) : Fed α :=
  { f with feeder := { f.feeder with intake := change f.feeder.intake } }

/-- One step, if it is possible. -/
def step (parse : Parse α) (f : Fed α) : Label α → Option (Fed α)
  | .pool l => (f.pool.stepPiece l).map fun p => { f with pool := p }
  | .feed => (f.feeder.step parse f.pool).map fun (p, feeder) => ⟨p, feeder⟩
  | .arrive bytes => if f.awaitsBytes then some (f.onIntake (·.deliver bytes)) else none
  | .inputEnds => if f.awaitsBytes then some (f.onIntake (·.finish)) else none
  | .draw got => if f.hungers then some (f.onIntake (·.receive got)) else none

/-- The pool and its feeder after several steps, if each is possible. -/
def steps (parse : Parse α) (f : Fed α) : List (Label α) → Option (Fed α)
  | [] => some f
  | l :: ls => (f.step parse l).bind fun f => f.steps parse ls

end Fed

end CommandPool.Pool
