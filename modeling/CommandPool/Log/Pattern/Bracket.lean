import CommandPool.Log.Pattern.Sign

/-!
# Sets of characters

A set stands in brackets: characters, ranges, classes, named sets such as
`[:alpha:]` and further sets in brackets.  A caret in front makes it the set of
all others.  `&&`, `--` and `~~` join what stands on both sides of them.

A bracket or hyphens right at the beginning are characters of the set.  A hyphen
makes a range unless it is followed by the end or by another hyphen.

A set of bytes must not be one of all others, which has parts of characters.
-/

namespace CommandPool.Log.Pattern

/-- The names of the named sets. -/
def setNames : List String :=
  ["alnum", "alpha", "ascii", "blank", "cntrl", "digit", "graph", "lower", "print", "punct",
    "space", "upper", "word", "xdigit"]

/-- The named set that stands in front, whether it means all others, and what
follows it. -/
def namedSet? : List Char → Option (Bool × List Char)
  | '[' :: ':' :: cs =>
    let others := cs.head? = some '^'
    let cs := if others then cs.drop 1 else cs
    match cs.dropWhile (· != ':') with
    | ':' :: ']' :: rest =>
      if setNames.contains (String.ofList (cs.takeWhile (· != ':'))) then some (others, rest)
      else none
    | _ => none
  | _ => none

/-- The set of all others may stand where these switches are on. -/
def othersFit (s : Switches) : Bool := s.wide

/-- A named set may stand where these switches are on. -/
def namedFits (s : Switches) (others : Bool) : Bool := if s.wide then !s.caseless else !others

/-- Reads a character or a class. -/
def readMember : Reading Sign := do
  match ← next with
  | '\\' => readEscaped
  | c => pure (.char c false)

/-- The character that decides whether a hyphen with this behind it makes a range.
In a spaced pattern it is the first one behind blanks, or the first one of a
comment, if there is any. -/
def decider? (spaced : Bool) (rest : List Char) : Option Char :=
  if !spaced then rest.head?
  else
    let beyond := match rest.dropWhile Text.isBlank with
      | '#' :: cs => cs.dropWhile Text.isBlank
      | cs => cs
    beyond.head?.or rest.head?

/-- A range follows its first character. -/
def rangeFollows (c : Cursor) : Bool :=
  match c.rest with
  | '-' :: rest => !([some ']', some '-'].contains (decider? c.switches.spaced rest))
  | _ => false

/-- The range between two signs is one of characters, the first not above the
second. -/
def isRange : Sign → Sign → Bool
  | .char a _, .char b _ => a ≤ b
  | _, _ => false

/-- Reads a character, a class or a range. -/
def readRange : Reading Unit := do
  let first ← readMember
  skipBlanks
  let c ← get
  guard (first.fitsSet c.switches)
  if rangeFollows c then do
    skip 1
    skipBlanks
    let last ← readMember
    guard (last.fitsSet c.switches && isRange first last)

/-- Reads the hyphens that a set begins with. -/
def readHyphens : (fuel : Nat) → Series → Reading Series
  | 0, _ => failure
  | fuel + 1, parts => do
    match ← peek with
    | some '-' => do
      skip 1
      skipBlanks
      readHyphens fuel (parts.add 0)
    | _ => pure parts

/-- Reads the beginning of a set, behind its bracket. -/
def readOpening (fuel : Nat) : Reading Series := do
  skipBlanks
  if (← peek) = some '^' then do
    guard (othersFit (← get).switches)
    skip 1
    skipBlanks
  let hyphens ← readHyphens fuel .empty
  let parts ← if hyphens.count = 0 && (← peek) = some ']' then do
      skip 1
      skipBlanks
      pure (hyphens.add 0)
    else pure hyphens
  guard (parts.count = 0 || (Sign.char '-' false).fitsSet (← get).switches)
  pure parts

/-- The signs that join sets. -/
def joiners : List (Char × Char) := [('&', '&'), ('-', '-'), ('~', '~')]

/-- A joining sign follows. -/
def joinerFollows (c : Cursor) : Bool :=
  match c.rest with
  | a :: b :: _ => joiners.contains (a, b)
  | _ => false

/-- Reads a set up to its end, behind the parts since the last joining sign and
behind the `earlier` ones.  Answers how deep it nests. -/
def readSet : (fuel : Nat) → (earlier : Option Nat) → (parts : Series) → Reading Nat
  | 0, _, _ => failure
  | fuel + 1, earlier, parts => do
    skipBlanks
    let c ← get
    match c.rest with
    | [] => failure
    | ']' :: _ => do
      skip 1
      pure (joined earlier parts.nesting + 1)
    | '[' :: _ =>
      match namedSet? c.rest with
      | some (others, rest) => do
        guard (namedFits c.switches others)
        set { c with rest := rest }
        readSet fuel earlier (parts.add 0)
      | none => do
        skip 1
        let inner ← readOpening fuel
        let depth ← readSet fuel none inner
        readSet fuel earlier (parts.add depth)
    | _ =>
      if joinerFollows c then do
        skip 2
        readSet fuel (some (joined earlier parts.nesting)) .empty
      else do
        readRange
        readSet fuel earlier (parts.add 0)

end CommandPool.Log.Pattern
