import CommandPool.Log.Pattern.Bracket
import CommandPool.Text.Alphanumeric

/-!
# Values that directives ask for

A directive asks for a value by a number or by a pattern.  A pattern is a list of
alternatives with `|` between them.  An alternative is a series of signs, sets
and groups in parentheses, each of which may be repeated.  A group may begin with
a question mark, and then has a name or changes switches.  A change of switches
without a group holds up to the end of the group it stands in.

A brace cannot be closed within a value, so a pattern has no braces outside of
sets.  It nests only so deep.
-/

namespace CommandPool.Log.Pattern

/-! ## Groups -/

/-- What an opening parenthesis begins. -/
inductive Opening where
  /-- A group, in which these switches are on. -/
  | group (inside : Switches)
  /-- A change of switches, up to the end of the group it stands in. -/
  | change (after : Switches)
  deriving DecidableEq, Repr

/-- The characters that change switches, and the one that turns them off. -/
def switchLetters : List Char := "imsUuRx-".toList

/-- The letters are a change of switches: none comes twice, and one follows the
hyphen if it is there. -/
def isChange (letters : List Char) : Bool :=
  letters.all switchLetters.contains && letters.eraseDups.length = letters.length
    && letters.getLast? ≠ some '-'

/-- A switch after a change. -/
def switched (letters : List Char) (letter : Char) (before : Bool) : Bool :=
  if (letters.takeWhile (· != '-')).contains letter then true
  else if letters.contains letter then false
  else before

/-- The switches after a change. -/
def Switches.change (s : Switches) (letters : List Char) : Switches :=
  ⟨switched letters 'u' s.wide, switched letters 'i' s.caseless, switched letters 'x' s.spaced⟩

/-- The characters are the name of a group. -/
def isGroupName : List Char → Bool
  | [] => false
  | c :: cs =>
    (c = '_' || Text.isLetter c)
      && cs.all fun c => "_.[]".toList.contains c || Text.isAlphanumeric c

/-- Reads the name of a group and the bracket behind it. -/
def readName : Reading Unit := do
  let c ← get
  let name := c.rest.takeWhile (· != '>')
  guard (name.length < c.rest.length && isGroupName name && !c.names.contains name)
  set { c with rest := c.rest.drop (name.length + 1), names := name :: c.names }

/-- Reads the beginning of a group, behind its parenthesis. -/
def readParenthesis : Reading Opening := do
  skipBlanks
  let c ← get
  match c.rest with
  | '?' :: 'P' :: '<' :: _ => do
    skip 3
    readName
    pure (.group c.switches)
  | '?' :: '<' :: _ => do
    skip 2
    readName
    pure (.group c.switches)
  | '?' :: rest =>
    let letters := rest.takeWhile fun c => c != ':' && c != ')'
    skip (letters.length + 1)
    guard (isChange letters)
    match ← next with
    | ':' => pure (.group (c.switches.change letters))
    | _ => if letters.isEmpty then failure else pure (.change (c.switches.change letters))
  | _ => pure (.group c.switches)

/-! ## Patterns -/

/-- Reads a sign outside of sets. -/
def readSign : Reading Unit := do
  let sign ← match ← next with
    | '\\' => readEscaped
    | '.' => pure .any
    | '^' => pure (.place false)
    | '$' => pure (.place false)
    | '\x7b' => failure
    | c => pure (.char c false)
  guard (sign.fits (← get).switches)

/-- Reads a sign of repetition, and the question mark that may follow it. -/
def readRepetition (parts : Series) : Reading Series := do
  skip 1
  if (← peek) = some '?' then skip 1
  match parts.repeatLast? with
  | some parts => pure parts
  | none => failure

/-- Turns switches on and off. -/
def switchTo (s : Switches) : Reading Unit := modify fun c => { c with switches := s }

/-- Reads alternatives up to the end of their group, behind the parts of one and
behind the `earlier` ones, of which the deepest counts.  Answers how deep they
nest. -/
def readAlternatives : (fuel : Nat) → (earlier : Option Nat) → (parts : Series) → Reading Nat
  | 0, _, _ => failure
  | fuel + 1, earlier, parts => do
    skipBlanks
    match ← peek with
    | none => pure (joined earlier parts.nesting)
    | some ')' => pure (joined earlier parts.nesting)
    | some '|' => do
      skip 1
      readAlternatives fuel (some (max (earlier.getD 0) parts.nesting)) .empty
    | some '(' => do
      skip 1
      match ← readParenthesis with
      | .change after => do
        switchTo after
        readAlternatives fuel earlier parts.addSwitch
      | .group inside => do
        let outside := (← get).switches
        switchTo inside
        let depth ← readAlternatives fuel none .empty
        guard ((← next) = ')')
        switchTo outside
        readAlternatives fuel earlier (parts.add (depth + 1))
    | some '[' => do
      skip 1
      let inner ← readOpening fuel
      let depth ← readSet fuel none inner
      readAlternatives fuel earlier (parts.add depth)
    | some c =>
      if c = '*' || c = '+' || c = '?' then do
        let parts ← readRepetition parts
        readAlternatives fuel earlier parts
      else do
        readSign
        readAlternatives fuel earlier (parts.add 0)

/-- How deep a pattern may nest. -/
def greatestDepth : Nat := 250

/-- The characters are a pattern. -/
def isPattern (cs : List Char) : Bool :=
  match (readAlternatives (cs.length + 1) none .empty).run ⟨cs, .initial, []⟩ with
  | some (depth, c) => c.rest.isEmpty && depth ≤ greatestDepth
  | none => false

/-! ## Numbers -/

/-- The characters are an exponent, or nothing. -/
def isExponent : List Char → Bool
  | [] => true
  | e :: cs =>
    let digits := match cs with
      | '+' :: cs => cs
      | '-' :: cs => cs
      | cs => cs
    (e = 'e' || e = 'E') && !digits.isEmpty && digits.all Char.isDigit

/-- The characters are a number without a sign in front. -/
def isUnsigned (cs : List Char) : Bool :=
  let whole := cs.takeWhile Char.isDigit
  match cs.dropWhile Char.isDigit with
  | '.' :: rest =>
    (!whole.isEmpty || (rest.head?.any Char.isDigit)) && isExponent (rest.dropWhile Char.isDigit)
  | rest => !whole.isEmpty && isExponent rest

/-- The names of values that are no numbers of digits. -/
def numberNames : List String := ["inf", "infinity", "nan"]

/-- The characters are a number. -/
def isNumber (cs : List Char) : Bool :=
  let unsigned := match cs with
    | '+' :: cs => cs
    | '-' :: cs => cs
    | cs => cs
  isUnsigned unsigned || numberNames.contains (String.ofList (unsigned.map Char.toLower))

/-- The characters can stand for a value. -/
def isValue (cs : List Char) : Bool := isNumber cs || isPattern cs

end CommandPool.Log.Pattern
