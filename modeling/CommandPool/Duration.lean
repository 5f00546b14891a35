/-!
# Durations

A length of time in whole nanoseconds.  Its text takes the largest of the units
s, ms, µs and ns that makes it at least one, with the fraction's trailing zeros
left out.
-/

namespace CommandPool

/-- A length of time. -/
structure Duration where
  /-- Its nanoseconds. -/
  nanos : Nat
  deriving DecidableEq, Repr

namespace Duration

/-- No time at all. -/
def zero : Duration := ⟨0⟩

/-- So many seconds and nanoseconds. -/
def ofParts (secs nanos : Nat) : Duration := ⟨secs * 1000000000 + nanos⟩

/-- So many seconds. -/
def ofSecs (secs : Nat) : Duration := ofParts secs 0

/-- So many milliseconds. -/
def ofMillis (ms : Nat) : Duration := ⟨ms * 1000000⟩

/-- The whole seconds of a duration. -/
def secs (d : Duration) : Nat := d.nanos / 1000000000

/-- The nanoseconds of a duration beyond its whole seconds. -/
def subsecNanos (d : Duration) : Nat := d.nanos % 1000000000

/-- The whole milliseconds of a duration. -/
def millis (d : Duration) : Nat := d.nanos / 1000000

/-- The digits of a fraction with `places` places, without its trailing zeros. -/
def fractionDigits (places fraction : Nat) : List Char :=
  let digits := (Nat.toDigits 10 fraction)
  let padded := List.replicate (places - digits.length) '0' ++ digits
  (padded.reverse.dropWhile (· == '0')).reverse

/-- A number of units with a fraction of `places` places. -/
def decimal (whole places fraction : Nat) : String :=
  match fractionDigits places fraction with
  | [] => toString whole
  | digits => toString whole ++ "." ++ String.ofList digits

/-- A duration in its largest fitting unit. -/
def text (d : Duration) : String :=
  if d.nanos ≥ 1000000000 then decimal d.secs 9 d.subsecNanos ++ "s"
  else if d.nanos ≥ 1000000 then decimal (d.nanos / 1000000) 6 (d.nanos % 1000000) ++ "ms"
  else if d.nanos ≥ 1000 then decimal (d.nanos / 1000) 3 (d.nanos % 1000) ++ "µs"
  else toString d.nanos ++ "ns"

end Duration

end CommandPool
