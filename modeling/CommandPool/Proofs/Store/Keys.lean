import CommandPool.Proofs.Files.Touches
import CommandPool.Store.Key

/-!
# Objects lie beneath the root

A text is a key exactly if it is `Plain`, which is said of its raw segments.  So the path of an
object goes on from the root of the store without going up, and what is touched for its sake lies
beneath the root: the object, and the directories that are made for it, since those on the way to
the root are there already.
-/

namespace CommandPool.Store.Key

open Files Files.FileSystem

variable {key root path : String} {fs fs' : FileSystem} {base place : Place}

/-! ## Keys -/

/-- The text is not empty, and does not start with a slash or with the segment `.`.  None of its
segments goes up. -/
structure Plain (key : String) : Prop where
  given : key ≠ ""
  relative : key.toList.head? ≠ some '/'
  first : (Path.segments key).head? ≠ some "."
  down : ".." ∉ Path.segments key

/-- Segments that do not go up stand for names or for nothing. -/
theorem innerParts_eq {ss : List String} (down : ".." ∉ ss) :
    ss.filterMap Path.innerPart? = ((ss.filter (· ≠ "")).filter (· ≠ ".")).map .name := by
  induction ss with
  | nil => rfl
  | cons s ss ih =>
    have onward := ih fun up => down (List.mem_cons_of_mem _ up)
    by_cases empty : s = ""
    · subst empty
      exact onward
    · by_cases here : s = "."
      · subst here
        exact onward
      · have up : s ≠ ".." := fun up => down (up ▸ List.mem_cons_self)
        have named : Path.innerPart? s = some (.name s) := by
          simp [Path.innerPart?, empty, here, up]
        rw [List.filterMap_cons_some named, List.filter_cons_of_pos (by simpa using empty),
          List.filter_cons_of_pos (by simpa using here), onward]
        rfl

theorem all_isName_iff (ss : List String) :
    (ss.filterMap Path.innerPart?).all isName = true ↔ ".." ∉ ss := by
  constructor
  · intro names up
    cases List.all_eq_true.mp names .up (List.mem_filterMap.mpr ⟨"..", up, rfl⟩)
  · intro down
    rw [innerParts_eq down]
    simp [isName]

/-- The keys are the plain texts. -/
theorem isValid_iff : isValid key = true ↔ Plain key := by
  rw [isValid, Bool.and_eq_true, decide_eq_true_iff]
  obtain ⟨first, rest, segmented⟩ := List.exists_cons_of_ne_nil (Path.segments_ne_nil key)
  constructor
  · rintro ⟨given, names⟩
    rw [Path.parts_eq segmented] at names
    by_cases absolute : Path.isAbsolute key = true
    · simp [absolute, isName] at names
    · by_cases here : first = "."
      · simp [absolute, here, isName] at names
      · have leading : (Path.segments key).head? ≠ some "." := by simpa [segmented] using here
        rw [← Path.parts_eq segmented,
          Path.parts_of_relative (Bool.eq_false_iff.mpr absolute) leading] at names
        exact ⟨given, by simpa [Path.isAbsolute] using absolute, leading,
          (all_isName_iff _).mp names⟩
  · rintro ⟨given, relative, leading, down⟩
    refine ⟨given, ?_⟩
    rw [Path.parts_of_relative (by simpa [Path.isAbsolute] using relative) leading]
    exact (all_isName_iff _).mpr down

theorem Plain.isAbsolute (plain : Plain key) : Path.isAbsolute key = false := by
  simpa [Path.isAbsolute] using plain.relative

/-- The parts of a key are the names that it is followed by. -/
theorem Plain.parts (plain : Plain key) : Path.parts key = (Path.names key).map .name := by
  rw [Path.parts_of_relative plain.isAbsolute plain.first, innerParts_eq plain.down]
  rfl

/-- A key names something. -/
theorem Plain.names_ne_nil (plain : Plain key) : Path.names key ≠ [] := by
  obtain ⟨first, rest, segmented⟩ := List.exists_cons_of_ne_nil (Path.segments_ne_nil key)
  have busy : first ≠ "" := by
    rintro rfl
    exact Bool.false_ne_true
      (plain.isAbsolute.symm.trans (Path.isAbsolute_of_segments segmented plain.given))
  have here : first ≠ "." := by simpa [segmented] using plain.first
  simp [Path.names, Path.walk, segmented, busy, here]

/-- A key has segments, and none of them goes up. -/
theorem Plain.walk (plain : Plain key) : Path.walk key ≠ [] ∧ ".." ∉ Path.walk key := by
  constructor
  · intro nothing
    refine plain.names_ne_nil ?_
    rw [Path.names, nothing]
    rfl
  · exact fun up => plain.down (List.mem_filter.mp up).1

/-! ## Paths of objects -/

theorem path?_eq_some_iff :
    path? root key = some path ↔ Plain key ∧ path = Path.join root key := by
  rw [path?, ← isValid_iff]
  split
  next valid => simp [valid, eq_comm]
  next invalid => simp [invalid]

/-- The path of an object goes on from the root with the segments of the key. -/
theorem walk_of_path? (at_path : path? root key = some path) :
    Path.isAbsolute path = Path.isAbsolute root ∧
      Path.walk path = Path.walk root ++ Path.walk key ∧ Path.walk key ≠ [] ∧
      ".." ∉ Path.walk key := by
  obtain ⟨plain, rfl⟩ := path?_eq_some_iff.mp at_path
  obtain ⟨starts, walk⟩ := Path.walk_join root plain.isAbsolute
  exact ⟨starts, walk, plain.walk⟩

/-- An object lies beneath the root. -/
theorem beneath_of_ends (leads : Leads fs root base)
    (at_path : path? root key = some path) (ends : Ends fs path place) : Beneath base place := by
  obtain ⟨starts, walk, more, down⟩ := walk_of_path? at_path
  exact beneath_of_walk leads starts walk more down ends

/-- A directory that is made for an object is reached from the root by the first names of the key,
or lies on the way to the root. -/
theorem names_or_prefix_of_makes (at_path : path? root key = some path)
    (makes : Makes fs fs' path place) :
    (∃ base names, Leads fs' root base ∧ names <+: Path.names key ∧ names ≠ [] ∧
        place = base ++ names) ∨
      ∃ above, Path.isAbsolute above = Path.isAbsolute root ∧
        Path.walk above <+: Path.walk root ∧ Ends fs' above place := by
  obtain ⟨_, _, above, below, ends⟩ := makes
  obtain ⟨starts, walk, _, down⟩ := walk_of_path? at_path
  obtain ⟨starts', onward, _, split⟩ := below.walk ends.given
  have begun : Path.walk above <+: Path.walk root ++ Path.walk key :=
    ⟨onward, split.symm.trans walk⟩
  by_cases outside : Path.walk above <+: Path.walk root
  · exact Or.inr ⟨above, starts'.trans starts, outside, ends⟩
  · obtain ⟨back, inside⟩ :=
      (List.prefix_or_prefix_of_prefix begun (List.prefix_append _ _)).resolve_left outside
    rw [← inside, List.prefix_append_right_inj] at begun
    have more : back ≠ [] := by
      rintro rfl
      exact outside (inside ▸ by simp)
    obtain ⟨base, leads, rfl, names, given, at_place⟩ :=
      ends.onward (starts'.trans starts) inside.symm more fun up => down (begun.subset up)
    obtain rfl := List.append_cancel_left at_place
    exact Or.inl ⟨base, _, leads, begun.filter _, given, rfl⟩

/-- A directory that is made for an object lies beneath the root, or on the way there. -/
theorem beneath_or_prefix_of_makes (at_path : path? root key = some path)
    (makes : Makes fs fs' path place) :
    (∃ base, Leads fs' root base ∧ Beneath base place) ∨
      ∃ above, Path.isAbsolute above = Path.isAbsolute root ∧
        Path.walk above <+: Path.walk root ∧ Ends fs' above place := by
  refine (names_or_prefix_of_makes at_path makes).imp_left ?_
  rintro ⟨base, names, leads, _, given, at_place⟩
  exact ⟨base, leads, names, given, at_place⟩

/-- While the root is there, a directory that is made for an object is reached from there. -/
theorem names_of_makes (leads : Leads fs root base) (at_path : path? root key = some path)
    (stays : Stays fs fs') (makes : Makes fs fs' path place) :
    ∃ names, names <+: Path.names key ∧ names ≠ [] ∧ place = base ++ names := by
  rcases names_or_prefix_of_makes at_path makes with
    ⟨other, names, leads', begun, given, at_place⟩ | ⟨above, starts, outside, ends⟩
  · exact (leads.of_stays stays).unique leads' ▸ ⟨names, begun, given, at_place⟩
  · -- Such a directory is on the way to the root, and was there before.
    have there := find?_of_prefix stays.home leads starts outside ends
    cases makes.before.symm.trans there

theorem beneath_of_makes (leads : Leads fs root base) (at_path : path? root key = some path)
    (stays : Stays fs fs') (makes : Makes fs fs' path place) : Beneath base place := by
  obtain ⟨names, _, given, at_place⟩ := names_of_makes leads at_path stays makes
  exact ⟨names, given, at_place⟩

end CommandPool.Store.Key
