import CommandPool.Binary64.Basic

/-!
# The shortest decimal of a number

A finite number other than zero is the nearest number to every real in some
interval around it.  Its shortest decimal is a point of the coarsest grid
`10 ^ k` that has a point in that interval, and of two such points the nearer.
Which of two equally near points is taken is a matter of the notation, so it is
a parameter.  The ends of the interval belong to it when the mantissa is even,
since a tie goes to the even mantissa.
-/

namespace CommandPool.Binary64

/-! ## The interval -/

/-- A finite number with the mantissa of 53 digits, or the exponent `-1074`. -/
def normalize (m : Nat) (e : Int) : Nat × Int :=
  let up := Nat.min (53 - bitLength m) (e + 1074).toNat
  (m * Nat.pow 2 up, e - up)

/-- The reals that round to a number, in units of `2 ^ exponent`. -/
structure Interval where
  /-- The lower end. -/
  low : Nat
  /-- The number itself. -/
  mid : Nat
  /-- The upper end. -/
  high : Nat
  /-- The power of two that is the unit. -/
  exponent : Int
  /-- The ends belong to the interval. -/
  closed : Bool
  deriving Repr

/-- The interval of the number `m * 2 ^ e`.  Below a power of two the numbers are
twice as dense. -/
def intervalOf (m : Nat) (e : Int) : Interval :=
  let below := if m = Nat.pow 2 52 && e > -1074 then 1 else 2
  ⟨4 * m - below, 4 * m, 4 * m + 2, e - 2, m % 2 = 0⟩

/-! ## Decimal grids -/

/-- How `a * 2 ^ e` compares with `d * 10 ^ k`. -/
def compareDecimal (a : Nat) (e : Int) (d : Nat) (k : Int) : Ordering :=
  compare (a * Nat.pow 2 e.toNat * Nat.pow 10 (-k).toNat)
    (d * Nat.pow 10 k.toNat * Nat.pow 2 (-e).toNat)

/-- `d * 10 ^ k` is in the interval. -/
def Interval.mem (i : Interval) (d : Nat) (k : Int) : Bool :=
  let above := compareDecimal i.low i.exponent d k
  let under := compareDecimal i.high i.exponent d k
  (above == .lt || (i.closed && above == .eq)) && (under == .gt || (i.closed && under == .eq))

/-- The greatest `d` with `d * 10 ^ k` not above `a * 2 ^ e`. -/
def gridFloor (a : Nat) (e k : Int) : Nat :=
  a * Nat.pow 2 e.toNat * Nat.pow 10 (-k).toNat / (Nat.pow 10 k.toNat * Nat.pow 2 (-e).toNat)

/-- Which of two neighbouring points of a grid is taken when both are equally near. -/
inductive Tie where
  /-- The greater one. -/
  | up
  /-- The even one. -/
  | even
  deriving DecidableEq, Repr

/-- Of the points `d` and `d + 1` the one that is taken. -/
def Tie.pick : Tie → Nat → Nat
  | .up, d => d + 1
  | .even, d => if d % 2 = 0 then d else d + 1

/-- The point of the grid `10 ^ k` that is in the interval and nearest to the
number, if there is one.  Only the number's two neighbours can be it. -/
def Interval.point? (tie : Tie) (i : Interval) (k : Int) : Option Nat :=
  let d := gridFloor i.mid i.exponent k
  match i.mem d k, i.mem (d + 1) k with
  | true, true =>
    -- twice the number against the sum of the two points
    match compareDecimal (2 * i.mid) i.exponent (2 * d + 1) k with
    | .gt => some (d + 1)
    | .lt => some d
    | .eq => some (tie.pick d)
  | true, false => some d
  | false, true => some (d + 1)
  | false, false => none

/-- The exponents of the decimal grids, the coarsest first. -/
def gridExponents : List Int := (List.range 640).map fun (i : Nat) => 310 - (i : Int)

/-- The digits and the exponent of the shortest decimal of `m * 2 ^ e`. -/
def shortest (tie : Tie) (m : Nat) (e : Int) : Nat × Int :=
  let (m, e) := normalize m e
  let i := intervalOf m e
  (gridExponents.findSome? fun k => (i.point? tie k).map fun d => (d, k)).getD (0, 0)

end CommandPool.Binary64
