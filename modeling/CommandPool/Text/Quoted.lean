import CommandPool.Text.Unprintable

/-!
# Quoted text

A text between double quotes, on one line.  Five characters have a two-character
form, a character that is not printable is written by its number in braces, and
every other character stands for itself.  A single quote stands for itself.
-/

namespace CommandPool.Text

/-- How one character is written between double quotes. -/
def escape (c : Char) : List Char :=
  match c with
  | '\t' => ['\\', 't']
  | '\r' => ['\\', 'r']
  | '\n' => ['\\', 'n']
  | '\x00' => ['\\', '0']
  | '"' => ['\\', '"']
  | '\\' => ['\\', '\\']
  | c =>
    if isUnprintable c then ['\\', 'u', '\x7b'] ++ Nat.toDigits 16 c.toNat ++ ['\x7d'] else [c]

/-- A text between double quotes. -/
def quoted (s : String) : String :=
  String.ofList ('"' :: s.toList.flatMap escape ++ ['"'])

end CommandPool.Text
