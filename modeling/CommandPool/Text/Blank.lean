/-!
# White space and words

A character is *blank* when it has the Unicode property `White_Space`.  The
*words* of a text are its maximal runs of other characters.  `tidy` writes the
words of a text with one space between two of them, so a tidied text holds no
line break.
-/

namespace CommandPool.Text

/-- The characters with the Unicode property `White_Space`. -/
def isBlank (c : Char) : Bool :=
  let n := c.toNat
  (9 ≤ n && n ≤ 13) || n == 0x20 || n == 0x85 || n == 0xA0 || n == 0x1680
    || (0x2000 ≤ n && n ≤ 0x200A) || n == 0x2028 || n == 0x2029 || n == 0x202F
    || n == 0x205F || n == 0x3000

/-! ## Words -/

/-- A word in front of the words after it.  An empty run is no word. -/
def consWord (w : List Char) (ws : List (List Char)) : List (List Char) :=
  if w.isEmpty then ws else w :: ws

/-- The run of other characters a text begins with, which may be empty, and the
words after it. -/
def splitRun : List Char → List Char × List (List Char)
  | [] => ([], [])
  | c :: cs =>
    let (run, rest) := splitRun cs
    if isBlank c then ([], consWord run rest) else (c :: run, rest)

/-- The words of a text, in order. -/
def wordsOf (cs : List Char) : List (List Char) :=
  let (run, rest) := splitRun cs
  consWord run rest

/-- The words of a text, in order. -/
def words (s : String) : List String := (wordsOf s.toList).map String.ofList

/-- Words written with one space between two of them. -/
def unwords (ws : List String) : String := " ".intercalate ws

/-- The words of a text with one space between two of them. -/
def tidy (s : String) : String := unwords (words s)

/-! ## Trimming -/

/-- A list of characters without the blanks at its two ends. -/
def trimChars (cs : List Char) : List Char :=
  ((cs.dropWhile isBlank).reverse.dropWhile isBlank).reverse

/-- A text without the blanks at its two ends. -/
def trim (s : String) : String := String.ofList (trimChars s.toList)

end CommandPool.Text
