import CommandPool.Text.Blank
import CommandPool.Text.Hexadecimal

/-!
# The signs of patterns

The value that a directive of a log filter asks for is a pattern.  Nothing is
ever compared with it here, so a pattern is only read, to see whether it is one.
A *reading* of a pattern goes from character to character and fails where the
pattern has a fault.

A *sign* is the least part of a pattern: a character, a class such as `\d`, or a
place between characters such as `\b`.  Which signs may stand somewhere hangs on
the *switches* that are on there.

* A *wide* pattern is one of whole characters.  The tables of the classes, of the
  ends of words and of the two cases of letters are not at hand for all
  characters.  So it has no classes and no ends of words, and when it is
  *caseless* it names no character.
* Any other pattern is one of bytes.  It must not be able to take a part of a
  character.
* In a *spaced* pattern blanks and comments between the signs mean nothing.
-/

namespace CommandPool.Log.Pattern

/-! ## Switches -/

/-- The switches of a pattern that decide what may stand in it. -/
structure Switches where
  /-- The pattern is one of characters, and not one of bytes. -/
  wide : Bool
  /-- The case of letters does not count. -/
  caseless : Bool
  /-- Blanks and comments mean nothing. -/
  spaced : Bool
  deriving DecidableEq, Repr

/-- The switches at the beginning of a pattern. -/
def Switches.initial : Switches := ⟨true, false, false⟩

/-! ## Readings -/

/-- How far a pattern is read. -/
structure Cursor where
  /-- The characters that are not read yet. -/
  rest : List Char
  /-- The switches that are on. -/
  switches : Switches
  /-- The names of the groups so far. -/
  names : List (List Char)
  deriving Repr

/-- A reading of a part of a pattern. -/
abbrev Reading := StateT Cursor Option

/-- The next character, which stays.  At the end there is none. -/
def peek : Reading (Option Char) := do return (← get).rest.head?

/-- Leaves the next characters out. -/
def skip (count : Nat) : Reading Unit := modify fun c => { c with rest := c.rest.drop count }

/-- Reads the next character. -/
def next : Reading Char := do
  match ← peek with
  | some c => do
    skip 1
    pure c
  | none => failure

/-- What follows blanks and comments.  A comment ends with its line. -/
def dropBlanks : (inComment : Bool) → List Char → List Char
  | _, [] => []
  | true, c :: cs => dropBlanks (c != '\n') cs
  | false, c :: cs =>
    if Text.isBlank c then dropBlanks false cs
    else if c = '#' then dropBlanks true cs
    else c :: cs

/-- Leaves blanks and comments out in a spaced pattern. -/
def skipBlanks : Reading Unit :=
  modify fun c => if c.switches.spaced then { c with rest := dropBlanks false c.rest } else c

/-! ## Signs -/

/-- The least part of a pattern. -/
inductive Sign where
  /-- A character.  It may be given by the two digits of its number. -/
  | char (c : Char) (byDigits : Bool)
  /-- Any character but the line feed. -/
  | any
  /-- A class of characters, or all others. -/
  | ofKind (others : Bool)
  /-- A place between characters, which may be the end of a word. -/
  | place (ofWord : Bool)
  deriving DecidableEq, Repr

/-- A sign may stand where these switches are on. -/
def Sign.fits (s : Switches) : Sign → Bool
  | .char c byDigits => if s.wide then !s.caseless else !byDigits || c.toNat < 0x80
  | .any => s.wide
  | .ofKind others => !s.wide && !others
  | .place ofWord => !s.wide || !ofWord

/-- A sign may stand in a set where these switches are on.  There a byte must be
all of a character. -/
def Sign.fitsSet (s : Switches) : Sign → Bool
  | .char c _ => if s.wide then !s.caseless else c.toNat < 0x80
  | .ofKind others => !s.wide && !others
  | _ => false

/-- The characters that letters behind a backslash mean. -/
def letterMeanings : List (Char × Char) :=
  [('a', '\x07'), ('f', '\x0c'), ('n', '\n'), ('r', '\r'), ('t', '\t'), ('v', '\x0b')]

/-- The sign of a single character behind a backslash.  A character of ASCII that
is no letter or digit means itself. -/
def Sign.escaped? (c : Char) : Option Sign :=
  if "dsw".toList.contains c then some (.ofKind false)
  else if "DSW".toList.contains c then some (.ofKind true)
  else if c = 'A' || c = 'z' then some (.place false)
  else if "bB<>".toList.contains c then some (.place true)
  else if c.toNat < 0x80 && !c.isAlphanum then some (.char c false)
  else (letterMeanings.lookup c).map (.char · false)

/-- Reads a number of so many hexadecimal digits, behind the digits of `front`. -/
def readNumber : (count : Nat) → (front : Nat) → Reading Nat
  | 0, front => pure front
  | count + 1, front => do
    skipBlanks
    match Text.hexDigit? (← next) with
    | some d => readNumber count (16 * front + d)
    | none => failure

/-- Reads a character that is given by so many digits. -/
def readDigits (count : Nat) : Reading Sign := do
  let n ← readNumber count 0
  if n.isValidChar then pure (.char (Char.ofNat n) (count = 2)) else failure

/-- Reads a sign behind its backslash. -/
def readEscaped : Reading Sign := do
  match ← next with
  | 'x' => readDigits 2
  | 'u' => readDigits 4
  | 'U' => readDigits 8
  | c =>
    match Sign.escaped? c with
    | some sign => pure sign
    | none => failure

/-! ## Nesting -/

/-- Parts of a pattern that follow each other. -/
structure Series where
  /-- How many they are. -/
  count : Nat
  /-- How deep the deepest of them nests. -/
  depth : Nat
  /-- How deep the last one nests, if it can be repeated. -/
  last : Option Nat
  deriving DecidableEq, Repr

namespace Series

/-- No part. -/
def empty : Series := ⟨0, 0, none⟩

/-- One part more. -/
def add (s : Series) (depth : Nat) : Series := ⟨s.count + 1, max s.depth depth, some depth⟩

/-- A change of switches more, which cannot be repeated. -/
def addSwitch (s : Series) : Series := ⟨s.count + 1, s.depth, none⟩

/-- The last part is repeated, which nests it deeper. -/
def repeatLast? (s : Series) : Option Series :=
  s.last.map fun d => ⟨s.count, max s.depth (d + 1), some (d + 1)⟩

/-- How deep the parts nest together.  One alone is no deeper for it. -/
def nesting (s : Series) : Nat := if s.count ≤ 1 then s.depth else s.depth + 1

end Series

/-- How deep a part nests that is joined to earlier ones, if there are any. -/
def joined (earlier : Option Nat) (depth : Nat) : Nat := earlier.elim depth fun e => max e depth + 1

end CommandPool.Log.Pattern
