import CommandPool.Log.Entry
import CommandPool.Log.Pattern.Value
import CommandPool.Text.Front
import CommandPool.Text.Utf8

/-!
# Log filters

A filter is a list of directives.  A directive applies to the entries of some
parts of the program, by the front of their names, and may ask for a field.  Of
the directives that apply to an entry the most specific one decides whether the
entry is shown: the one with the longer name, then the one with a field, then
the one whose field comes later in the order of names, then the later one.  An
entry to which none applies is not shown.

The setting of a filter is a list of directives with commas between them.  A
directive is a level, or the name of parts and `=` and a level, where both `=`
and the level may be left out and a field may stand between them:
`name[{field}]=level`.  What else may stand there, a span and the value of a
field, no entry has.  So such a directive applies to none, but it has to be
written correctly: a setting with one directive that is not understood is not
used at all.
-/

namespace CommandPool.Log

/-! ## Levels -/

namespace Threshold

/-- The value of a row of digits with or without a plus. -/
def number? (s : String) : Option Nat :=
  let digits := match s.toList with
    | '+' :: cs => cs
    | cs => cs
  if digits.isEmpty || !digits.all Char.isDigit then none
  else some (digits.foldl (fun n c => 10 * n + (c.toNat - '0'.toNat)) 0)

/-- The threshold of a numbered level. -/
def ofNumber? : Nat → Option Threshold
  | 0 => some .nothing
  | 1 => some .error
  | 2 => some .warn
  | n => if n ≤ 5 then some .info else none

/-- The threshold that a level stands for, by its name or its number.  The two
levels beyond `info` show no more entries. -/
def ofName? (s : String) : Option Threshold :=
  match number? s with
  | some n => ofNumber? n
  | none =>
    let name := s.toLower
    if name = "off" then some .nothing
    else if name = "error" then some .error
    else if name = "warn" then some .warn
    else if ["info", "debug", "trace"].contains name then some .info
    else none

end Threshold

/-! ## Directives -/

/-- A directive of a filter. -/
structure Directive where
  /-- What the name of the part begins with, if that is asked for. -/
  part : Option String
  /-- A field that the entry has, if that is asked for. -/
  field : Option String
  /-- The entries that are shown. -/
  threshold : Threshold
  deriving DecidableEq, Repr

namespace Directive

/-- The directive applies to an entry. -/
def appliesTo (d : Directive) (e : Entry) : Bool :=
  d.part.all (Text.startsWith · e.part.name) && d.field.all e.hasField

/-- The length of the name, which is greater than that of no name. -/
def reach (d : Directive) : Nat := d.part.elim 0 (·.utf8ByteSize + 1)

/-- A field asked for is not above another one.  None is below all. -/
def fieldLe : Option String → Option String → Bool
  | none, _ => true
  | some _, none => false
  | some a, some b => a ≤ b

/-- One directive is at most as specific as another. -/
def le (a b : Directive) : Bool :=
  a.reach < b.reach || (a.reach == b.reach && fieldLe a.field b.field)

end Directive

/-- A filter, with later directives after earlier ones. -/
abbrev Filter := List Directive

namespace Filter

/-- The more specific one of the best directive so far and a later one. -/
def better (best : Option Directive) (d : Directive) : Option Directive :=
  match best with
  | none => some d
  | some b => if b.le d then some d else some b

/-- The directive that decides about an entry. -/
def decisive? (f : Filter) (e : Entry) : Option Directive :=
  (f.filter (·.appliesTo e)).foldl better none

/-- An entry is shown. -/
def shows (f : Filter) (e : Entry) : Bool :=
  match f.decisive? e with
  | some d => d.threshold.shows e.level
  | none => false

/-! ## Reading a setting -/

/-- The brackets of a directive. -/
structure Brackets where
  /-- A span is asked for. -/
  hasSpan : Bool
  /-- From where to where what stands in the braces reaches, if they are there. -/
  inBraces : Option (Nat × Nat)
  deriving DecidableEq, Repr

/-- The parts of a directive, by the positions of their ends. -/
inductive Layout where
  /-- A name or a level. -/
  | word
  /-- A name and, behind `=`, a level. -/
  | leveled (nameEnd levelStart : Nat)
  /-- Brackets, perhaps behind a name and before `=` and a level. -/
  | bracketed (nameEnd : Option Nat) (brackets : Brackets) (levelStart : Option Nat)
  deriving DecidableEq, Repr

/-- How many positions characters take, which are counted in bytes. -/
def width (cs : List Char) : Nat := (String.ofList cs).utf8ByteSize

/-- The brackets, the first of which is read already, and what follows them, all
from the position `start` on. -/
def brackets? (start : Nat) (cs : List Char) : Option (Brackets × Nat × List Char) :=
  let isName := fun c => c != ']' && c != '\x7b'
  let name := cs.takeWhile isName
  let nameEnd := start + width name
  match cs.dropWhile isName with
  | ']' :: rest => some (⟨true, none⟩, nameEnd + 1, rest)
  | '\x7b' :: rest =>
    let inside := rest.takeWhile (· != '\x7d')
    let insideEnd := nameEnd + 1 + width inside
    match rest.dropWhile (· != '\x7d') with
    | '\x7d' :: ']' :: rest =>
      if inside.isEmpty then none
      else some (⟨!name.isEmpty, some (nameEnd + 1, insideEnd)⟩, insideEnd + 2, rest)
    | _ => none
  | _ => none

/-- The layout of a directive from its brackets on. -/
def bracketed? (nameEnd : Option Nat) (start : Nat) (cs : List Char) : Option Layout := do
  let (brackets, stop, rest) ← brackets? start cs
  match rest with
  | [] => return .bracketed nameEnd brackets none
  | '=' :: _ => return .bracketed nameEnd brackets (some (stop + 1))
  | _ => none

/-- A directive may begin with this character, if it does not begin with a
bracket. -/
def startsName (c : Char) : Bool := Text.isAlphanumeric c || c == '-' || c == ':' || c == '_'

/-- The layout of a directive. -/
def layout? (cs : List Char) : Option Layout :=
  match cs with
  | [] => none
  | '[' :: rest => bracketed? none 1 rest
  | c :: _ =>
    if !startsName c then none
    else
      let isName := fun c => c != '=' && c != '['
      let nameEnd := width (cs.takeWhile isName)
      match cs.dropWhile isName with
      | [] => some .word
      | '[' :: rest => bracketed? (some nameEnd) (nameEnd + 1) rest
      | _ => some (.leveled nameEnd (nameEnd + 1))

/-- The part of a text from one position to another, if both are at characters. -/
def slice? (s : String) (start stop : Nat) : Option String :=
  (Text.Utf8.decode (((Text.Utf8.encode s).take stop).drop start)).toOption

/-- The threshold of the level that begins at a position. -/
def levelAt? (s : String) (start : Nat) : Option Threshold := do
  let level ← slice? s start s.utf8ByteSize
  if level = "" then return .info else Threshold.ofName? level

/-- The field that stands in braces, or nothing if a value is asked for too. -/
def field? (inside : List Char) : Option (Option String) :=
  match inside.dropWhile (· != '=') with
  | [] => some (some (String.ofList inside))
  | _ :: rest => if Pattern.isValue (rest.takeWhile (· != '=')) then some none else none

/-- Reads a directive.  It has a layout without the blanks at its ends, and the
positions of this layout are then looked up with them.  So a directive that begins
with a blank speaks of no part and of no field that there is. -/
def directive? (s : String) : Option (Option Directive) := do
  match ← layout? (Text.trimChars s.toList) with
  | .word =>
    match Threshold.ofName? s with
    | some threshold => return some ⟨none, none, threshold⟩
    | none => return some ⟨some s, none, .info⟩
  | .leveled nameEnd levelStart =>
    let part ← slice? s 0 nameEnd
    let threshold ← levelAt? s levelStart
    return some ⟨some part, none, threshold⟩
  | .bracketed nameEnd brackets levelStart =>
    let part ← nameEnd.mapM (slice? s 0)
    let threshold ← (levelStart.map (levelAt? s)).getD (some .info)
    match brackets.inBraces with
    | none => return none
    | some (start, stop) =>
      let inside ← slice? s start stop
      let field ← field? inside.toList
      return if brackets.hasSpan then none else field.map fun f => ⟨part, some f, threshold⟩

/-- The filter when there is no setting, or one that is not understood. -/
def standard : Filter := [⟨none, none, .info⟩]

/-- The filter that a setting asks for. -/
def ofSetting (s : String) : Filter :=
  match ((s.splitOn ",").filter (· ≠ "")).mapM directive? with
  | none => standard
  | some directives => directives.filterMap id

end Filter

end CommandPool.Log
