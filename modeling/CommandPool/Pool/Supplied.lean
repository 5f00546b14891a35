import CommandPool.Pool.Fed
import CommandPool.Pool.Timeline

/-!
# A fed pool in a world

Here the feeder draws its lines from a world, and the world changes while the pool goes on,
as attempts act on it.  When it changes is left open, as for `CommandPool.Pool.Fed`.  But what
the feeder draws is what the supply has in the world of that moment, behind all that was drawn
before.
-/

namespace CommandPool.Pool

open Timeline (Supply)

variable {α ε : Type}

/-- A pool with its feeder, and the world that the feeder draws from. -/
structure Supplied (α ε : Type) where
  /-- The pool and its feeder. -/
  fed : Fed α
  /-- The world. -/
  world : ε

namespace Supplied

/-- What can happen while a pool is supplied. -/
inductive Label (α ε : Type) where
  /-- The pool or its feeder goes on, and nothing is drawn. -/
  | fed (l : Fed.Label α)
  /-- The feeder draws. -/
  | draw
  /-- The world becomes this one. -/
  | change (world : ε)

/-- What the feeder gets if it draws now. -/
def draw? (supply : Supply ε) (s : Supplied α ε) : Option (Except Files.Fault (List UInt8)) :=
  match s.fed.feeder.intake with
  | .drawn _ count => some (supply.draw s.world count)
  | _ => none

/-- One step, if it is possible. -/
def step (parse : Parse α) (supply : Supply ε) (s : Supplied α ε) :
    Label α ε → Option (Supplied α ε)
  | .fed (.draw _) => none
  | .fed l => (s.fed.step parse l).map fun f => { s with fed := f }
  | .draw =>
    (s.draw? supply).bind fun got =>
      (s.fed.step parse (.draw got)).map fun f => { s with fed := f }
  | .change world => some { s with world := world }

/-- The state after several steps, if each is possible. -/
def steps (parse : Parse α) (supply : Supply ε) (s : Supplied α ε) :
    List (Label α ε) → Option (Supplied α ε)
  | [] => some s
  | l :: ls => (s.step parse supply l).bind fun s => s.steps parse supply ls

/-- What is drawn in a run, in this order. -/
def drawn (parse : Parse α) (supply : Supply ε) (s : Supplied α ε) :
    List (Label α ε) → List (Except Files.Fault (List UInt8))
  | [] => []
  | l :: ls =>
    match s.step parse supply l with
    | none => []
    | some next =>
      match l with
      | .draw => (s.draw? supply).toList ++ next.drawn parse supply ls
      | _ => next.drawn parse supply ls

end Supplied

end CommandPool.Pool
