import CommandPool.Command.Basic
import CommandPool.Command.ParseError
import CommandPool.Job.Basic

/-!
# Reading command lines

A line is a command, then `&&` and a command that follows success, and `||` and
a command that follows failure, each at most once and in either order.  Words
are what blanks separate.

```text
line    := command [ "&&" command ] [ "||" command ]
         | command [ "||" command ] [ "&&" command ]
command := "cp" source target | "mv" source target | "rm" target | "ls" stem
```

The error of a line is the leftmost one: that of the first command, then for
each operator in turn a missing command, the error of its command, and that it
stands for the second time.
-/

namespace CommandPool

namespace Command

open Store (Operand)

/-! ## One command -/

/-- The operands of a copy: one of them at least is in the store, and a source
in the store is an object. -/
def readPair (name source target : String) : Except ParseError (Operand × Operand) :=
  let src := Operand.ofText source
  let dst := Operand.ofText target
  if !src.isObject && !dst.isObject then
    .error (.invalidArgument (name ++ ": at least one operand must be a store:// key"))
  else
    match src with
    | .object key =>
      if Operand.isFolderKey key then
        .error (.invalidArgument
          (name ++ ": source must name an object, got " ++ Store.scheme ++ key))
      else .ok (src, dst)
    | .file _ => .ok (src, dst)

/-- Reads the words of a command. -/
def ofWords : List String → Except ParseError Command
  | [] => .error .empty
  | name :: args =>
    if name = "cp" then
      match args with
      | [source, target] => (readPair name source target).map fun p => .copy p.1 p.2
      | _ => .error (.arity name 2 args.length)
    else if name = "mv" then
      match args with
      | [source, target] => (readPair name source target).map fun p => .move p.1 p.2
      | _ => .error (.arity name 2 args.length)
    else if name = "rm" then
      match args with
      | [target] => .ok (.remove (Operand.ofText target))
      | _ => .error (.arity name 1 args.length)
    else if name = "ls" then
      match args with
      | [stem] =>
        match Operand.ofText stem with
        | .object key => .ok (.list key)
        | .file path => .error (.invalidArgument ("ls: expected a store:// prefix, got " ++ path))
      | _ => .error (.arity name 1 args.length)
    else .error (.unknownCommand name)

/-- Reads a command that nothing follows. -/
def parse (text : String) : Except ParseError Command := ofWords (Text.words text)

end Command

namespace CommandLine

/-! ## Operators -/

/-- What follows which outcome. -/
inductive Operator where
  /-- `&&`, before what follows success. -/
  | andThen
  /-- `||`, before what follows failure. -/
  | orElse
  deriving DecidableEq, Repr

/-- An operator as it is written. -/
def Operator.text : Operator → String
  | .andThen => "&&"
  | .orElse => "||"

/-- The operator that a word is, if it is one. -/
def Operator.ofWord? (w : String) : Option Operator :=
  if w = "&&" then some .andThen else if w = "||" then some .orElse else none

/-- The words before the first operator, and after each operator those up to the
next one. -/
def split : List String → List String × List (Operator × List String)
  | [] => ([], [])
  | w :: ws =>
    let (head, tail) := split ws
    match Operator.ofWord? w with
    | some op => ([], (op, head) :: tail)
    | none => (w :: head, tail)

/-! ## Lines -/

/-- Reads the words of one command of a line as a job.  Its label is the words
with single spaces between them. -/
def readJob (ws : List String) : Except ParseError (Job Command) :=
  (Command.ofWords ws).map (Job.single (Text.unwords ws))

/-- Adds the commands after the operators to a job, from left to right.  The
operators in `seen` have been used. -/
def attach (job : Job Command) (seen : List Operator) :
    List (Operator × List String) → Except ParseError (Job Command)
  | [] => .ok job
  | (op, ws) :: rest =>
    if ws.isEmpty then .error (.operator op.text)
    else do
      let next ← readJob ws
      if op ∈ seen then .error (.operator op.text)
      else
        let job := match op with
          | .andThen => job.andThen next
          | .orElse => job.orElse next
        attach job (op :: seen) rest

/-- Reads a line as a job. -/
def parse (line : String) : Except ParseError (Job Command) :=
  let (head, tail) := split (Text.words line)
  if head.isEmpty then
    match tail with
    | [] => .error .empty
    | (op, _) :: _ => .error (.operator op.text)
  else do
    let job ← readJob head
    attach job [] tail

end CommandLine

end CommandPool
