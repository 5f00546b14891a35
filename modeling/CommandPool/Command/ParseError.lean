/-!
# Why a line is no command
-/

namespace CommandPool

/-- Why a line is no command. -/
inductive ParseError where
  /-- There is no word. -/
  | empty
  /-- The first word is the name of no command. -/
  | unknownCommand (name : String)
  /-- A command has `got` operands instead of `expected` ones. -/
  | arity (command : String) (expected got : Nat)
  /-- The operands do not go with the command. -/
  | invalidArgument (message : String)
  /-- An operator has no command before or after it, or stands twice. -/
  | operator (op : String)
  deriving DecidableEq, Repr

/-- The wording of the error. -/
def ParseError.message : ParseError → String
  | .empty => "empty command"
  | .unknownCommand name => "unknown command: " ++ name
  | .arity command expected got =>
    command ++ ": expected " ++ toString expected ++ " argument(s), got " ++ toString got
  | .invalidArgument m => "invalid argument: " ++ m
  | .operator op => "misplaced operator `" ++ op ++ "`"

end CommandPool
