import Mathlib.Data.List.Induction
import Mathlib.Tactic.MkIffOfInductiveProp
import CommandPool.Files.FileSystem
import CommandPool.Proofs.Files.Paths

/-!
# Names of files

A file can have any name that is one segment of a path, does not mean a directory already as `.`
and `..` do, and is not too long.  Such names may be joined to a path one by one (`descend`), as
one does who goes from directory to directory.  The text that comes out is that of all of them
joined at once (`descend_eq_join`), and its segments and parts are those of the path and then the
names (`walk_descend`, `parts_descend`).
-/

namespace CommandPool.Files

/-- A text that a file can have as its name. -/
@[mk_iff] structure IsFileName (name : String) : Prop where
  given : name ≠ ""
  here : name ≠ "."
  up : name ≠ ".."
  whole : '/' ∉ name.toList
  clean : '\x00' ∉ name.toList
  short : name.utf8ByteSize ≤ FileSystem.longestName

instance decidableIsFileName (name : String) : Decidable (IsFileName name) :=
  decidable_of_iff _ (isFileName_iff name).symm

namespace Path

variable {p q name : String} {names : List String}

/-! ## One name -/

section

variable (named : IsFileName name)
include named

theorem segments_fileName : segments name = [name] := by
  have alone := segments_joinSegments_of_whole (List.cons_ne_nil name [])
    (by simpa using named.whole)
  rwa [joinSegments, String.intercalate_singleton] at alone

theorem isAbsolute_fileName : isAbsolute name = false := by
  cases chars : name.toList with
  | nil => simp [isAbsolute, chars]
  | cons c cs =>
    have whole := named.whole
    rw [chars] at whole
    have different : c ≠ '/' := fun slash => whole (slash ▸ List.mem_cons_self)
    simp [isAbsolute, chars, different]

theorem walk_fileName : walk name = [name] := by
  rw [walk, segments_fileName named, List.filter_cons_of_pos (by simpa using named.given)]
  rfl

theorem parts_fileName : parts name = [.name name] := by
  rw [parts_eq (segments_fileName named), isAbsolute_fileName named,
    if_neg Bool.false_ne_true, if_neg named.here]
  simp [innerPart?, named.given, named.here, named.up]

/-- What ends with a name does not end with a slash. -/
theorem endsWithSlash_append : endsWithSlash (p ++ name) = false :=
  endsWithSlash_append_whole named.given named.whole

theorem join_fileName : join p name ≠ "" ∧ endsWithSlash (join p name) = false := by
  rcases join_cases p (isAbsolute_fileName named) with
    ⟨_, joined⟩ | ⟨front, _, joined⟩ | ⟨_, joined⟩
  · rw [joined]
    exact ⟨named.given, by simpa using endsWithSlash_append (p := "") named⟩
  all_goals
    rw [joined]
    exact ⟨by simp [named.given], endsWithSlash_append named⟩

theorem not_mem_join_fileName (clean : '\x00' ∉ p.toList) :
    '\x00' ∉ (join p name).toList := by
  have onward := named.clean
  rcases join_cases p (isAbsolute_fileName named) with
    ⟨_, joined⟩ | ⟨front, rfl, joined⟩ | ⟨_, joined⟩
  · rwa [joined]
  all_goals
    rw [joined]
    simp_all

/-- Joining a path to a joined name is joining it and the name at once. -/
theorem join_join_fileName (relative : isAbsolute q = false) :
    join (join p name) q = join p (name ++ "/" ++ q) := by
  obtain ⟨given, noSlash⟩ := join_fileName (p := p) named
  have once : join (join p name) q = join p name ++ "/" ++ q := by
    rw [join, relative, if_neg Bool.false_ne_true, if_neg (by simp [given, noSlash])]
  have relative' : isAbsolute (name ++ "/" ++ q) = false := by
    rw [String.append_assoc, isAbsolute_append named.given, isAbsolute_fileName named]
  rw [once, join, join, isAbsolute_fileName named, relative', if_neg Bool.false_ne_true,
    if_neg Bool.false_ne_true]
  split <;> simp only [String.append_assoc]

end

/-! ## Several names -/

/-- The path below a path that goes down with these names. -/
def descend (p : String) (names : List String) : String := names.foldl join p

theorem descend_concat (p : String) (names : List String) (name : String) :
    descend p (names ++ [name]) = join (descend p names) name := List.foldl_append ..

/-- The names can all be those of files. -/
def AreFileNames (names : List String) : Prop := ∀ name ∈ names, IsFileName name

section

variable (named : AreFileNames names)
include named

theorem isAbsolute_joinSegments : isAbsolute (joinSegments names) = false := by
  cases names with
  | nil => rfl
  | cons name names =>
    have first := named name List.mem_cons_self
    cases names with
    | nil => exact isAbsolute_fileName first
    | cons next names =>
      rw [joinSegments, String.intercalate_cons_cons, String.append_assoc,
        isAbsolute_append first.given]
      exact isAbsolute_fileName first

/-- Names joined one by one are joined at once. -/
theorem descend_eq_join (given : names ≠ []) : descend p names = join p (joinSegments names) := by
  induction names generalizing p with
  | nil => exact absurd rfl given
  | cons name names ih =>
    have first := named name List.mem_cons_self
    have rest : AreFileNames names := fun name member => named name (List.mem_cons_of_mem _ member)
    cases names with
    | nil => rfl
    | cons next names =>
      have onward := ih (p := join p name) rest (List.cons_ne_nil _ _)
      rw [joinSegments, String.intercalate_cons_cons, ← joinSegments,
        ← join_join_fileName first (isAbsolute_joinSegments rest), ← onward]
      rfl

theorem segments_joined (given : names ≠ []) : segments (joinSegments names) = names :=
  segments_joinSegments_of_whole given fun name member => (named name member).whole

theorem walk_descend :
    isAbsolute (descend p names) = isAbsolute p ∧ walk (descend p names) = walk p ++ names := by
  induction names using List.reverseRecOn with
  | nil => exact ⟨rfl, (List.append_nil _).symm⟩
  | append_singleton names name ih =>
    have last := named name (by simp)
    obtain ⟨starts, before⟩ := ih fun name member => named name (List.mem_append_left _ member)
    obtain ⟨starts', onward⟩ := walk_join (descend p names) (isAbsolute_fileName last)
    rw [descend_concat]
    exact ⟨starts'.trans starts, by
      rw [onward, before, walk_fileName last, List.append_assoc]⟩

theorem parts_descend : parts (descend p names) = parts p ++ names.map .name := by
  induction names using List.reverseRecOn with
  | nil => exact (List.append_nil _).symm
  | append_singleton names name ih =>
    have last := named name (by simp)
    have first : (segments name).head? ≠ some "." := by
      simpa [segments_fileName last] using last.here
    rw [descend_concat, parts_join _ (isAbsolute_fileName last) first, parts_fileName last,
      ih fun name member => named name (List.mem_append_left _ member)]
    simp

theorem not_mem_descend (clean : '\x00' ∉ p.toList) : '\x00' ∉ (descend p names).toList := by
  induction names using List.reverseRecOn with
  | nil => exact clean
  | append_singleton names name ih =>
    rw [descend_concat]
    exact not_mem_join_fileName (named name (by simp))
      (ih fun name member => named name (List.mem_append_left _ member))

end

theorem descend_fileName (p : String) (names : List String) (named : IsFileName name) :
    descend p (names ++ [name]) ≠ "" ∧ endsWithSlash (descend p (names ++ [name])) = false := by
  rw [descend_concat]
  exact join_fileName named

end Path

end CommandPool.Files
