/-!
# Text for a terminal

A text that is shown on a terminal must not steer it.  The controls that can
begin or be such an order are written by their numbers: five of ASCII with two
hexadecimal digits, and the controls from U+0080 to U+009F in braces.  Every
other character stands for itself, the line feed and the tabulator too.
-/

namespace CommandPool.Text

/-- How one character is shown. -/
def disarm (c : Char) : List Char :=
  match c with
  | '\x07' => ['\\', 'x', '0', '7']
  | '\x08' => ['\\', 'x', '0', '8']
  | '\x0c' => ['\\', 'x', '0', 'c']
  | '\x1b' => ['\\', 'x', '1', 'b']
  | '\x7f' => ['\\', 'x', '7', 'f']
  | c =>
    if 0x80 ≤ c.toNat && c.toNat ≤ 0x9F then
      ['\\', 'u', '\x7b'] ++ Nat.toDigits 16 c.toNat ++ ['\x7d']
    else [c]

/-- A text that does not steer a terminal. -/
def inert (s : String) : String := String.ofList (s.toList.flatMap disarm)

end CommandPool.Text
