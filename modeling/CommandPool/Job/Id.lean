import CommandPool.Text.Hexadecimal

/-!
# Identifiers

The identifier of a node is a number of 128 bits.  It is written as 32
hexadecimal digits in groups of 8, 4, 4, 4 and 12, and read in four forms: so
grouped, ungrouped, and grouped with braces around it or `urn:uuid:` in front,
in letters of either case.
A fresh identifier has version 7: the time in milliseconds in front, so later
ones are greater, then a counter that makes it differ from all others.
-/

namespace CommandPool

/-- The identifier of a node. -/
structure JobId where
  /-- Its number. -/
  bits : BitVec 128
  deriving DecidableEq, Repr

namespace JobId

/-! ## Text -/

/-- The 32 digits of an identifier. -/
def digits (id : JobId) : List Char :=
  let ds := Nat.toDigits 16 id.bits.toNat
  List.replicate (32 - ds.length) '0' ++ ds

/-- Digits in groups of the given lengths, with a hyphen between two groups. -/
def hyphenate : List Nat → List Char → List Char
  | [], cs => cs
  | n :: ns, cs => cs.take n ++ '-' :: hyphenate ns (cs.drop n)

/-- The grouped text of an identifier. -/
def text (id : JobId) : String := String.ofList (hyphenate [8, 4, 4, 4] id.digits)

/-! ## Reading -/

/-- The identifier with the given 32 digits. -/
def ofDigits? (cs : List Char) : Option JobId :=
  if cs.length = 32 then
    (cs.foldlM (fun n c => (Text.hexDigit? c).map (n * 16 + ·)) 0).map fun n => ⟨BitVec.ofNat 128 n⟩
  else none

/-- Groups of the given lengths without the hyphen after each but the last. -/
def unhyphenate? : List Nat → List Char → Option (List Char)
  | [], cs => some cs
  | n :: ns, cs =>
    match cs.drop n with
    | '-' :: rest => (unhyphenate? ns rest).map (cs.take n ++ ·)
    | _ => none

/-- The identifier written in groups. -/
def ofGrouped? (cs : List Char) : Option JobId :=
  if cs.length = 36 then (unhyphenate? [8, 4, 4, 4] cs).bind ofDigits? else none

/-- Without the braces around. -/
def dropBraces? (cs : List Char) : Option (List Char) :=
  match cs with
  | '\x7b' :: rest => if rest.getLast? = some '\x7d' then some rest.dropLast else none
  | _ => none

/-- Without `urn:uuid:` in front, in letters of either case. -/
def dropUrn? (cs : List Char) : Option (List Char) :=
  let urn := "urn:uuid:".toList
  if (cs.take urn.length).map Char.toLower = urn then some (cs.drop urn.length) else none

/-- The identifier that a text writes in one of the four forms. -/
def read? (s : String) : Option JobId :=
  let cs := s.toList
  (ofDigits? cs).or <| (ofGrouped? cs).or <| ((dropBraces? cs).bind ofGrouped?).or <|
    (dropUrn? cs).bind ofGrouped?

/-! ## Fresh identifiers -/

/-- The identifier of version 7 with the given time and counter. -/
def ofTime (millis counter : Nat) : JobId :=
  let time := millis % Nat.pow 2 48
  let high := counter / Nat.pow 2 62 % Nat.pow 2 12
  let low := counter % Nat.pow 2 62
  ⟨BitVec.ofNat 128
    (time * Nat.pow 2 80 + 7 * Nat.pow 2 76 + high * Nat.pow 2 64 + 2 * Nat.pow 2 62 + low)⟩

/-- So many fresh identifiers of one moment. -/
def series (millis count : Nat) : List JobId := (List.range count).map (ofTime millis)

/-- The version of an identifier. -/
def version (id : JobId) : Nat := id.bits.toNat / Nat.pow 2 76 % 16

end JobId

end CommandPool
