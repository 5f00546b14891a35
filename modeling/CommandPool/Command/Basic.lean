import CommandPool.Store.Operand
import CommandPool.Text.Blank

/-!
# Commands

The four commands and how they are written: the name of the command, then its
operands, with single spaces between them.
-/

namespace CommandPool

/-- A command. -/
inductive Command where
  /-- Copies a file: an upload, a download, or a copy within the store. -/
  | copy (source target : Store.Operand)
  /-- Copies a file, then removes the source. -/
  | move (source target : Store.Operand)
  /-- Removes a file. -/
  | remove (target : Store.Operand)
  /-- Logs every key that begins with `stem`. -/
  | list (stem : String)
  deriving DecidableEq, Repr

namespace Command

/-- The name of a command. -/
def name : Command → String
  | .copy .. => "cp"
  | .move .. => "mv"
  | .remove _ => "rm"
  | .list _ => "ls"

/-- The operands of a command. -/
def operands : Command → List String
  | .copy source target => [source.text, target.text]
  | .move source target => [source.text, target.text]
  | .remove target => [target.text]
  | .list stem => [(Store.Operand.object stem).text]

/-- A command as it is written. -/
def text (c : Command) : String := Text.unwords (c.name :: c.operands)

end Command

end CommandPool
