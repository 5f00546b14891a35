import CommandPool.Log.Entry

/-!
# Log entries as JSON

An entry is a record of its fields, its level and its message, on one line.  In a
JSON string the quote, the backslash and the control characters below the blank
are escaped, and no others.
-/

namespace CommandPool.Log

/-! ## Strings -/

/-- Four hexadecimal digits of a number. -/
def fourDigits (n : Nat) : List Char :=
  let ds := Nat.toDigits 16 n
  List.replicate (4 - ds.length) '0' ++ ds

/-- A character inside a JSON string. -/
def escapeJson (c : Char) : List Char :=
  if c = '"' then ['\\', '"']
  else if c = '\\' then ['\\', '\\']
  else if c = '\n' then ['\\', 'n']
  else if c = '\r' then ['\\', 'r']
  else if c = '\t' then ['\\', 't']
  else if c.toNat = 8 then ['\\', 'b']
  else if c.toNat = 12 then ['\\', 'f']
  else if c.toNat < 32 then '\\' :: 'u' :: fourDigits c.toNat
  else [c]

/-- A text as a JSON string. -/
def jsonString (s : String) : String :=
  "\"" ++ String.ofList (s.toList.flatMap escapeJson) ++ "\""

/-! ## Records -/

/-- Members of a record as JSON. -/
def jsonRecord (members : List (String × String)) : String :=
  "\x7b" ++ ",".intercalate (members.map fun m => jsonString m.1 ++ ":" ++ m.2) ++ "\x7d"

/-- A value as JSON. -/
def Value.json : Value → String
  | .number n => toString n
  | .text s => jsonString s

/-- The fields of an entry as JSON, in the order of their names. -/
def Entry.fieldsJson (e : Entry) : String :=
  let sorted := e.fields.mergeSort fun a b => decide (a.1 ≤ b.1)
  jsonRecord (sorted.map fun f => (f.1, f.2.json))

/-- An entry as JSON. -/
def Entry.json (e : Entry) : String :=
  jsonRecord [("fields", e.fieldsJson), ("level", jsonString e.level.name),
    ("message", jsonString e.message)]

end CommandPool.Log
