/-!
# Binary64 numbers

The numbers of IEEE 754 binary64, as a sign, a whole mantissa and a power of
two, so that every operation is arithmetic on whole numbers.  A product is the
exact product rounded once, to the nearest number and on a tie to the one with
an even mantissa.  Every other operation here is exact.

A number may be held with different mantissas: `2 * 2^0` is `1 * 2^1`.  The
operations depend on the value alone.
-/

namespace CommandPool

/-- A binary64 number. -/
inductive Binary64 where
  /-- Not a number, with its sign and payload bits. -/
  | nan (negative : Bool) (payload : Nat)
  /-- An infinity. -/
  | infinite (negative : Bool)
  /-- `mantissa * 2 ^ exponent`, or its negative.  Zero keeps its sign. -/
  | finite (negative : Bool) (mantissa : Nat) (exponent : Int)
  deriving DecidableEq, Repr

namespace Binary64

/-! ## Rounding -/

/-- The number of binary digits.  Zero has none. -/
def bitLength (n : Nat) : Nat := if n = 0 then 0 else n.log2 + 1

/-- `n / 2 ^ k` rounded to the nearest whole number, a tie to the even one. -/
def roundShift (n k : Nat) : Nat :=
  let q := n / Nat.pow 2 k
  let r := n % Nat.pow 2 k
  if 2 * r > Nat.pow 2 k || (2 * r == Nat.pow 2 k && q % 2 == 1) then q + 1 else q

/-- How many binary digits of `mantissa * 2 ^ exponent` do not fit: the mantissa
keeps 53 digits, and none below `2 ^ -1074`. -/
def excess (mantissa : Nat) (exponent : Int) : Nat :=
  max (bitLength mantissa - 53) (-1074 - exponent).toNat

/-- The number nearest to `mantissa * 2 ^ exponent`.  From `2 ^ 1024` on, after
rounding, it is infinite. -/
def round (negative : Bool) (mantissa : Nat) (exponent : Int) : Binary64 :=
  let k := excess mantissa exponent
  let m := roundShift mantissa k
  let e := exponent + k
  if (bitLength m : Int) + e > 1024 then .infinite negative else .finite negative m e

/-! ## From and to words -/

/-- The number with the given bits. -/
def ofBits (w : UInt64) : Binary64 :=
  let n := w.toNat
  let negative := n / Nat.pow 2 63 == 1
  let field : Nat := n / Nat.pow 2 52 % Nat.pow 2 11
  let fraction : Nat := n % Nat.pow 2 52
  if field = 2047 then
    if fraction = 0 then .infinite negative else .nan negative fraction
  else if field = 0 then .finite negative fraction (-1074)
  else .finite negative (Nat.pow 2 52 + fraction) ((field : Int) - 1075)

/-- The bits of a number.  A finite number is first brought to the mantissa with
53 digits, or to the exponent `-1074`. -/
def toBits (x : Binary64) : UInt64 :=
  let sign (negative : Bool) : Nat := if negative then Nat.pow 2 63 else 0
  let word : Nat :=
    match x with
    | .nan negative payload => sign negative + 2047 * Nat.pow 2 52 + payload
    | .infinite negative => sign negative + 2047 * Nat.pow 2 52
    | .finite negative mantissa exponent =>
      let up := min (53 - bitLength mantissa) (exponent + 1074).toNat
      let m := mantissa * Nat.pow 2 up
      let e := exponent - up
      let hidden := Nat.pow 2 52
      sign negative + (if m < hidden then m else (e + 1075).toNat * hidden + (m - hidden))
  UInt64.ofNat word

/-- The number nearest to a whole number. -/
def ofNat (n : Nat) : Binary64 := round false n 0

/-- The number one. -/
def one : Binary64 := .finite false 1 0

/-- The number two. -/
def two : Binary64 := .finite false 1 1

/-! ## Multiplication -/

/-- The product, rounded once.  An infinity times zero is not a number. -/
def mul : Binary64 → Binary64 → Binary64
  | .nan s p, _ => .nan s p
  | _, .nan s p => .nan s p
  | .infinite s, .infinite t => .infinite (s != t)
  | .infinite s, .finite t m _ => if m = 0 then .nan false 0 else .infinite (s != t)
  | .finite s m _, .infinite t => if m = 0 then .nan false 0 else .infinite (s != t)
  | .finite s m e, .finite t n f => round (s != t) (m * n) (e + f)

/-- `r * a ^ n` by repeated squaring: `r` takes the factor `a` where the last
binary digit of `n` is one, and `a` is squared while digits remain.  The digits
of `n` are its `fuel` last ones. -/
def powLoop : (fuel : Nat) → (r a : Binary64) → (n : Nat) → Binary64
  | 0, r, _, _ => r
  | fuel + 1, r, a, n =>
    let r := if n % 2 = 1 then mul r a else r
    if n / 2 = 0 then r else powLoop fuel r (mul a a) (n / 2)

/-- A power by repeated squaring, each product rounded. -/
def pow (a : Binary64) (n : Nat) : Binary64 := powLoop (bitLength n + 1) one a n

/-! ## Order -/

/-- `m * 2 ^ e < n * 2 ^ f`, by clearing the smaller exponent. -/
def scaledLt (m : Nat) (e : Int) (n : Nat) (f : Int) : Bool :=
  m * Nat.pow 2 (e - min e f).toNat < n * Nat.pow 2 (f - min e f).toNat

/-- The order of numbers.  What is not a number is below nothing and above
nothing, and the two zeros are equal. -/
def lt : Binary64 → Binary64 → Bool
  | .nan .., _ => false
  | _, .nan .. => false
  | .infinite s, .infinite t => s && !t
  | .infinite s, .finite .. => s
  | .finite .., .infinite t => !t
  | .finite false m e, .finite false n f => scaledLt m e n f
  | .finite true m e, .finite true n f => scaledLt n f m e
  | .finite true m _, .finite false n _ => m != 0 || n != 0
  | .finite false .., .finite true .. => false

/-- The lesser of two numbers.  What is not a number gives way to the other. -/
def min : Binary64 → Binary64 → Binary64
  | .nan .., y => y
  | x, .nan .. => x
  | x, y => if lt y x then y else x

/-- Neither infinite nor not a number. -/
def isFinite : Binary64 → Bool
  | .finite .. => true
  | _ => false

/-- The whole part of a number, kept between zero and `top`.  What is not a
number counts as zero. -/
def floorBelow (top : Nat) : Binary64 → Nat
  | .nan .. => 0
  | .infinite negative => if negative then 0 else top
  | .finite true .. => 0
  | .finite false m e =>
    Nat.min top (if 0 ≤ e then m * Nat.pow 2 e.toNat else m / Nat.pow 2 (-e).toNat)

end Binary64

end CommandPool
