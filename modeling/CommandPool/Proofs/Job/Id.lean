import CommandPool.Job.Id
import Mathlib.Data.List.Nodup
import Mathlib.Data.Nat.Digits.Defs

/-!
# Identifiers are read as they are written

The digits of an identifier are those of its number, with zeros in front.  So each of the four
forms in which it can be written is read back (`read?_text` and those that follow).  Fresh
identifiers of one moment differ in their counters, and those of a later moment are greater.
-/

namespace CommandPool.JobId

open Text (hexDigit?)

variable {id : JobId} {cs : List Char} {ns : List Nat}

/-! ## Digits -/

/-- Reads one more digit. -/
def appendDigit (n : Nat) (c : Char) : Option Nat := (hexDigit? c).map (n * 16 + ·)

theorem hexDigit?_digitChar {d : Nat} (small : d < 16) : hexDigit? d.digitChar = some d := by
  have all : ∀ d : Fin 16, hexDigit? d.val.digitChar = some d.val := by decide
  exact all ⟨d, small⟩

/-- The digits of a number are read as that number. -/
theorem foldlM_toDigits (n : Nat) : (Nat.toDigits 16 n).foldlM appendDigit 0 = some n := by
  induction n using Nat.strongRecOn with
  | ind n ih =>
    rw [Nat.toDigits_eq_if (by decide)]
    split
    next small => simp [appendDigit, hexDigit?_digitChar small]
    next large =>
      have rest : n % 16 < 16 := Nat.mod_lt n (by decide)
      rw [List.foldlM_append, ih (n / 16) (by omega)]
      simp only [List.foldlM_cons, List.foldlM_nil, appendDigit, hexDigit?_digitChar rest]
      simp [Nat.div_add_mod']

/-- Zeros in front change nothing. -/
theorem foldlM_zeros (count : Nat) : (List.replicate count '0').foldlM appendDigit 0 = some 0 := by
  induction count with
  | zero => rfl
  | succ count ih =>
    rw [List.replicate_succ, List.foldlM_cons]
    exact ih

theorem length_digits (id : JobId) : id.digits.length = 32 := by
  have short : (Nat.toDigits 16 id.bits.toNat).length ≤ 32 := by
    rw [Nat.length_toDigits_le_iff (by decide) (by decide)]
    exact id.bits.isLt
  rw [digits, List.length_append, List.length_replicate]
  omega

theorem ofDigits?_digits (id : JobId) : ofDigits? id.digits = some id := by
  have value : id.digits.foldlM appendDigit 0 = some id.bits.toNat := by
    rw [digits, List.foldlM_append, foldlM_zeros]
    exact foldlM_toDigits _
  rw [ofDigits?, if_pos (length_digits id)]
  exact (congrArg (Option.map _) value).trans (by simp)

/-! ## Groups -/

theorem length_hyphenate (fits : ns.sum ≤ cs.length) :
    (hyphenate ns cs).length = cs.length + ns.length := by
  induction ns generalizing cs with
  | nil => rfl
  | cons n ns ih =>
    rw [List.sum_cons] at fits
    have inside : ns.sum ≤ (cs.drop n).length := by
      rw [List.length_drop]
      omega
    rw [hyphenate, List.length_append, List.length_cons, ih inside, List.length_take,
      List.length_drop, List.length_cons]
    omega

/-- Groups are joined again. -/
theorem unhyphenate?_hyphenate (fits : ns.sum ≤ cs.length) :
    unhyphenate? ns (hyphenate ns cs) = some cs := by
  induction ns generalizing cs with
  | nil => rfl
  | cons n ns ih =>
    rw [List.sum_cons] at fits
    have group : (cs.take n).length = n := List.length_take_of_le (by omega)
    have inside : ns.sum ≤ (cs.drop n).length := by
      rw [List.length_drop]
      omega
    rw [hyphenate, unhyphenate?, List.drop_left' group, List.take_left' group]
    simp only
    rw [ih inside, Option.map_some, List.take_append_drop]

/-- The grouped characters of an identifier. -/
def grouped (id : JobId) : List Char := hyphenate [8, 4, 4, 4] id.digits

theorem length_grouped (id : JobId) : id.grouped.length = 36 := by
  rw [grouped, length_hyphenate] <;> rw [length_digits] <;> decide

theorem ofGrouped?_grouped (id : JobId) : ofGrouped? id.grouped = some id := by
  have whole : unhyphenate? [8, 4, 4, 4] id.grouped = some id.digits :=
    unhyphenate?_hyphenate (by rw [length_digits]; decide)
  rw [ofGrouped?, if_pos (length_grouped id), whole]
  exact ofDigits?_digits id

/-! ## The four forms -/

theorem ofDigits?_of_length (other : cs.length ≠ 32) : ofDigits? cs = none := if_neg other

theorem ofGrouped?_of_length (other : cs.length ≠ 36) : ofGrouped? cs = none := if_neg other

/-- The text of an identifier is read as that identifier. -/
theorem read?_text (id : JobId) : read? id.text = some id := by
  have cs : id.text.toList = id.grouped := String.toList_ofList
  have long := length_grouped id
  rw [read?, cs, ofDigits?_of_length (by omega), ofGrouped?_grouped]
  rfl

/-- Without hyphens it is read as well. -/
theorem read?_digits (id : JobId) : read? (String.ofList id.digits) = some id := by
  rw [read?, String.toList_ofList, ofDigits?_digits]
  rfl

/-- With braces around it is read as well. -/
theorem read?_braces (id : JobId) :
    read? (String.ofList ('\x7b' :: id.grouped ++ ['\x7d'])) = some id := by
  have long : ('\x7b' :: id.grouped ++ ['\x7d']).length = 38 := by simp [length_grouped]
  have inner : dropBraces? ('\x7b' :: id.grouped ++ ['\x7d']) = some id.grouped := by
    simp [dropBraces?]
  rw [read?, String.toList_ofList, ofDigits?_of_length (by omega),
    ofGrouped?_of_length (by omega), inner, Option.bind_some, ofGrouped?_grouped]
  rfl

/-- With `urn:uuid:` in front, in letters of either case, it is read as well. -/
theorem read?_urn (id : JobId) {urn : List Char}
    (letters : urn.map Char.toLower = "urn:uuid:".toList) :
    read? (String.ofList (urn ++ id.grouped)) = some id := by
  have size : urn.length = "urn:uuid:".toList.length := by rw [← letters, List.length_map]
  have nine : "urn:uuid:".toList.length = 9 := by decide
  have long : (urn ++ id.grouped).length = 45 := by
    rw [List.length_append, length_grouped]
    omega
  have unbraced : dropBraces? (urn ++ id.grouped) = none := by
    cases urn with
    | nil => cases letters
    | cons u urn =>
      have first : u.toLower = 'u' := (List.cons.inj letters).1
      rw [List.cons_append, dropBraces?]
      intro rest same
      obtain ⟨rfl, _⟩ := List.cons.inj same
      exact absurd first (by decide)
  have inner : dropUrn? (urn ++ id.grouped) = some id.grouped := by
    simp only [dropUrn?, List.take_left' size, List.drop_left' size, if_pos letters]
  rw [read?, String.toList_ofList, ofDigits?_of_length (by omega),
    ofGrouped?_of_length (by omega), unbraced, inner, Option.bind_some, ofGrouped?_grouped]
  rfl

/-! ## Fresh identifiers -/

/-- The number of a fresh identifier. -/
theorem toNat_ofTime (millis counter : Nat) :
    (ofTime millis counter).bits.toNat =
      millis % 2 ^ 48 * 2 ^ 80 + 7 * 2 ^ 76 + counter / 2 ^ 62 % 2 ^ 12 * 2 ^ 64 + 2 * 2 ^ 62 +
        counter % 2 ^ 62 := by
  have bounded : millis % 2 ^ 48 * 2 ^ 80 + 7 * 2 ^ 76 + counter / 2 ^ 62 % 2 ^ 12 * 2 ^ 64 +
      2 * 2 ^ 62 + counter % 2 ^ 62 < 2 ^ 128 := by omega
  exact (BitVec.toNat_ofNat _ _).trans (Nat.mod_eq_of_lt bounded)

/-- A fresh identifier has version 7. -/
theorem version_ofTime (millis counter : Nat) : (ofTime millis counter).version = 7 := by
  show (ofTime millis counter).bits.toNat / 2 ^ 76 % 16 = 7
  rw [toNat_ofTime]
  omega

/-- Identifiers of one moment differ in their counters. -/
theorem ofTime_injective {millis first second : Nat} (small : first < 2 ^ 74)
    (small' : second < 2 ^ 74) (same : ofTime millis first = ofTime millis second) :
    first = second := by
  have values := congrArg (·.bits.toNat) same
  simp only [toNat_ofTime] at values
  omega

/-- An identifier of a later moment is greater. -/
theorem ofTime_lt {millis later : Nat} (counter next : Nat) (order : millis < later)
    (inside : later < 2 ^ 48) : (ofTime millis counter).bits < (ofTime later next).bits := by
  rw [BitVec.lt_def, toNat_ofTime, toNat_ofTime]
  omega

/-- Fresh identifiers of one moment are all different. -/
theorem nodup_series {millis count : Nat} (few : count ≤ 2 ^ 74) :
    (series millis count).Nodup := by
  refine List.Nodup.map_on (fun first member second member' same => ?_) List.nodup_range
  have small := List.mem_range.mp member
  have small' := List.mem_range.mp member'
  exact ofTime_injective (by omega) (by omega) same

end CommandPool.JobId
