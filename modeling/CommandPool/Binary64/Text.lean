import CommandPool.Binary64.Shortest

/-!
# Numbers as text

Two notations of a number, both with the fewest digits that read back as it.
`text` is positional whatever the size, and writes a whole number without a
point.  `compactText` has a point or an exponent always: it is positional as
long as the number is less than `10 ^ 16` and has its first digit among the
first five decimal places, and otherwise has one digit in front of the point and
a signed exponent.
-/

namespace CommandPool.Binary64

/-! ## Decimals -/

/-- `d * 10 ^ k` in positional notation. -/
def positional (d : Nat) (k : Int) : String :=
  let digits := Nat.toDigits 10 d
  match k with
  | .ofNat k => String.ofList (digits ++ List.replicate k '0')
  | .negSucc k =>
    let padded := List.replicate (k + 2 - digits.length) '0' ++ digits
    let cut := padded.length - (k + 1)
    String.ofList (padded.take cut ++ '.' :: padded.drop cut)

/-- An exponent with its sign. -/
def signedExponent (e : Int) : String :=
  (if e < 0 then "e-" else "e+") ++ toString e.natAbs

/-- `d * 10 ^ k` with one digit in front of the point. -/
def scientific (d : Nat) (k : Int) : String :=
  let places := (Nat.toDigits 10 d).length - 1
  positional d (-places) ++ signedExponent (k + places)

/-- `d * 10 ^ k` with a point or an exponent. -/
def compact (d : Nat) (k : Int) : String :=
  let lead : Int := k + ((Nat.toDigits 10 d).length - 1 : Nat)
  if lead < -5 || 15 < lead then scientific d k
  else if 0 ≤ k then positional d k ++ ".0"
  else positional d k

/-! ## Numbers -/

/-- The text of a number, given the text of zero and that of every other
magnitude. -/
def textWith (zero : String) (other : Nat → Int → String) : Binary64 → String
  | .nan .. => "NaN"
  | .infinite negative => if negative then "-inf" else "inf"
  | .finite negative m e =>
    let magnitude := if m = 0 then zero else other m e
    if negative then "-" ++ magnitude else magnitude

/-- The shortest positional text of a number.  Of two equally near decimals it
is the greater one. -/
def text : Binary64 → String :=
  textWith "0" fun m e =>
    let (d, k) := shortest .up m e
    positional d k

/-- The shortest text of a number that has a point or an exponent.  Of two
equally near decimals it is the even one. -/
def compactText : Binary64 → String :=
  textWith "0.0" fun m e =>
    let (d, k) := shortest .even m e
    compact d k

end CommandPool.Binary64
