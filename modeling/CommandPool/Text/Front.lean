/-!
# What a text begins with
-/

namespace CommandPool.Text

/-- What follows the given characters in front, if they are there. -/
def dropFront? : List Char → List Char → Option (List Char)
  | [], cs => some cs
  | p :: ps, c :: cs => if p = c then dropFront? ps cs else none
  | _ :: _, [] => none

/-- A text begins with the given one. -/
def startsWith (front s : String) : Bool := (dropFront? front.toList s.toList).isSome

theorem dropFront?_eq_some_iff {ps cs rest : List Char} :
    dropFront? ps cs = some rest ↔ cs = ps ++ rest := by
  induction ps generalizing cs with
  | nil => simp [dropFront?, eq_comm]
  | cons p ps ih =>
    cases cs with
    | nil => simp [dropFront?]
    | cons c cs =>
      by_cases h : p = c
      · simp [dropFront?, h, ih]
      · simp [dropFront?, h, Ne.symm h]

end CommandPool.Text
