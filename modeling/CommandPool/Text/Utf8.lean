/-!
# Decoding UTF-8

`decode` reads bytes as UTF-8.  Where they are not, it says where the first
faulty sequence starts and how many of its bytes are a start of some character,
or that the bytes end inside a character.  Overlong forms, surrogates and
numbers above U+10FFFF are faulty from their second byte on.
-/

namespace CommandPool.Text.Utf8

/-- Why bytes are not UTF-8. -/
inductive Fault where
  /-- `length` bytes from `index` on cannot start a character. -/
  | invalid (length index : Nat)
  /-- The bytes end inside the character that starts at `index`. -/
  | incomplete (index : Nat)
  deriving DecidableEq, Repr

/-- The wording of a fault. -/
def Fault.message : Fault → String
  | .invalid length index =>
    "invalid utf-8 sequence of " ++ toString length ++ " bytes from index " ++ toString index
  | .incomplete index => "incomplete utf-8 byte sequence from index " ++ toString index

/-- A character whose first bytes are read. -/
structure Pending where
  /-- Where it starts. -/
  start : Nat
  /-- How many bytes are read. -/
  seen : Nat
  /-- How many bytes after the next one are still to come. -/
  more : Nat
  /-- The least next byte. -/
  low : Nat
  /-- The greatest next byte. -/
  high : Nat
  /-- The bits read so far. -/
  bits : Nat
  deriving Repr

/-- The character that a first byte from `0x80` up starts, if it starts one. -/
def lead (index : Nat) (b : Nat) : Option Pending :=
  if 0xC2 ≤ b && b ≤ 0xDF then some ⟨index, 1, 0, 0x80, 0xBF, b - 0xC0⟩
  else if b == 0xE0 then some ⟨index, 1, 1, 0xA0, 0xBF, 0⟩
  else if b == 0xED then some ⟨index, 1, 1, 0x80, 0x9F, 0xD⟩
  else if 0xE1 ≤ b && b ≤ 0xEF then some ⟨index, 1, 1, 0x80, 0xBF, b - 0xE0⟩
  else if b == 0xF0 then some ⟨index, 1, 2, 0x90, 0xBF, 0⟩
  else if 0xF1 ≤ b && b ≤ 0xF3 then some ⟨index, 1, 2, 0x80, 0xBF, b - 0xF0⟩
  else if b == 0xF4 then some ⟨index, 1, 2, 0x80, 0x8F, 4⟩
  else none

/-- The characters of the bytes from `index` on, inside a character or between
two. -/
def scan (index : Nat) : Option Pending → List UInt8 → Except Fault (List Char)
  | none, [] => .ok []
  | some p, [] => .error (.incomplete p.start)
  | none, b :: bs =>
    if b < 0x80 then (Char.ofNat b.toNat :: ·) <$> scan (index + 1) none bs
    else match lead index b.toNat with
      | some p => scan (index + 1) (some p) bs
      | none => .error (.invalid 1 index)
  | some p, b :: bs =>
    if p.low ≤ b.toNat && b.toNat ≤ p.high then
      let bits := p.bits * 64 + b.toNat % 64
      match p.more with
      | 0 => (Char.ofNat bits :: ·) <$> scan (index + 1) none bs
      | more + 1 => scan (index + 1) (some ⟨p.start, p.seen + 1, more, 0x80, 0xBF, bits⟩) bs
    else .error (.invalid p.seen p.start)

/-- The text that bytes encode. -/
def decode (bytes : List UInt8) : Except Fault String :=
  String.ofList <$> scan 0 none bytes

/-- The bytes that encode a text. -/
def encode (s : String) : List UInt8 := s.toUTF8.toList

end CommandPool.Text.Utf8
