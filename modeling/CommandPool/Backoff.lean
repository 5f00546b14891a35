import CommandPool.Binary64.Text
import CommandPool.Duration

/-!
# Exponential backoff

A policy says how long to wait before a retry: the initial interval before the
first one, `multiplier` times as long before each further one, and never longer
than the greatest interval.  Both intervals count in whole milliseconds, and
the product is taken in binary64, so a delay is a whole number of milliseconds
too.  A policy holds no count of retries; the worker counts, from zero for every
node.

`Policy.wholeDelay` is the same rule for a whole multiplier, in unbounded
arithmetic.
-/

namespace CommandPool.Backoff

/-- How long to wait between the attempts of a throttled node. -/
structure Policy where
  /-- The delay before the first retry. -/
  initial : Duration
  /-- The upper bound of a delay. -/
  max : Duration
  /-- The growth per retry. -/
  multiplier : Binary64
  deriving DecidableEq, Repr

namespace Policy

/-- One second, doubled each time, at most a minute. -/
def standard : Policy := ⟨.ofSecs 1, .ofSecs 60, .two⟩

/-- The greatest whole number that a 64-bit word holds. -/
def longest : Nat := Nat.pow 2 64 - 1

/-- The greatest power of the multiplier that is taken. -/
def steepest : Nat := Nat.pow 2 31 - 1

/-- The milliseconds of the delay before retry number `attempt`, counted from one. -/
def delayMillis (p : Policy) (attempt : Nat) : Nat :=
  if attempt = 0 then 0
  else
    let growth := p.multiplier.pow (min (attempt - 1) steepest)
    let wanted := Binary64.mul (.ofNat p.initial.millis) growth
    (Binary64.min wanted (.ofNat p.max.millis)).floorBelow longest

/-- The delay before retry number `attempt`, counted from one.  Before any retry
there is none. -/
def delay (p : Policy) (attempt : Nat) : Duration := .ofMillis (p.delayMillis attempt)

/-- The milliseconds before retry number `attempt` when the multiplier is the
whole number `k` and the intervals are `initial` and `max` milliseconds. -/
def wholeDelay (initial max k attempt : Nat) : Nat :=
  if attempt = 0 then 0 else min (initial * Nat.pow k (attempt - 1)) max

/-! ## Checking a policy -/

/-- Why a policy is rejected. -/
inductive Fault where
  /-- The initial interval is zero. -/
  | zeroInitial
  /-- The greatest interval is shorter than the initial one. -/
  | maxBelowInitial
  /-- The multiplier is below one or not finite. -/
  | multiplier (m : Binary64)
  deriving DecidableEq, Repr

/-- The wording of a fault. -/
def Fault.message : Fault → String
  | .zeroInitial => "initial interval must be non-zero"
  | .maxBelowInitial => "maximum interval is shorter than the initial interval"
  | .multiplier m => "multiplier must be a finite number >= 1, got " ++ m.text

/-- The first fault of a policy, if it has one. -/
def validate (p : Policy) : Except Fault Unit :=
  if p.initial.nanos = 0 then .error .zeroInitial
  else if p.max.nanos < p.initial.nanos then .error .maxBelowInitial
  else if !p.multiplier.isFinite || p.multiplier.lt .one then .error (.multiplier p.multiplier)
  else .ok ()

end Policy

end CommandPool.Backoff
