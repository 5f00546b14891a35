import Mathlib.Data.List.Nodup
import Mathlib.Data.List.Perm.Basic
import CommandPool.Proofs.Files.Sound

/-!
# What is beneath a directory

In a sound tree, what is beneath a directory is in there, or beneath a directory in there, and only
once (`Sound.below_perm`).  So if the directories that wait to be read stand for all that is at or
beneath them, reading one takes away that one, with the files in there (`standing_cons`).
-/

namespace CommandPool.Files.Tree

variable {t : Tree} {dir place : Place} {name : String} {node : Node}

/-! ## What is in a directory -/

theorem mem_children : (name, node) ∈ t.children dir ↔ (dir ++ [name], node) ∈ t.nodes := by
  simp only [children, List.mem_filterMap]
  constructor
  · rintro ⟨⟨place, found⟩, member, taken⟩
    split at taken
    next last =>
      split at taken
      next here => cases taken; rwa [← here]
      next => cases taken
    next => cases taken
  · intro member
    exact ⟨_, member, by simp⟩

theorem Sound.nodup_children (sound : t.Sound) (dir : Place) :
    ((t.children dir).map Prod.fst).Nodup := by
  have once := List.pairwise_map.mp sound.once
  rw [List.Nodup, List.pairwise_map, children, List.pairwise_filterMap]
  refine once.imp fun {e f} different => ?_
  rintro ⟨name, node⟩ taken ⟨name', node'⟩ taken' rfl
  -- Each of the two alone is a tree with one child, so its place is known.
  have first : (name, node) ∈ children ⟨[e]⟩ dir :=
    List.mem_filterMap.mpr ⟨e, List.mem_singleton_self e, taken⟩
  have second : (name, node') ∈ children ⟨[f]⟩ dir :=
    List.mem_filterMap.mpr ⟨f, List.mem_singleton_self f, taken'⟩
  cases List.mem_singleton.mp (mem_children.mp first)
  cases List.mem_singleton.mp (mem_children.mp second)
  exact different rfl

/-- What is beneath a directory, at whatever depth. -/
def below (t : Tree) (dir : Place) : List (Place × Node) :=
  t.nodes.filter fun e => dir.isPrefixOf e.1 && e.1 ≠ dir

theorem mem_below :
    (place, node) ∈ t.below dir ↔ (place, node) ∈ t.nodes ∧ ∃ names ≠ [], place = dir ++ names := by
  rw [below, List.mem_filter, Bool.and_eq_true, List.isPrefixOf_iff_prefix, decide_eq_true_iff]
  refine and_congr_right fun _ => ?_
  constructor
  · rintro ⟨⟨names, rfl⟩, other⟩
    exact ⟨names, by simpa using other, rfl⟩
  · rintro ⟨names, more, rfl⟩
    exact ⟨List.prefix_append _ _, by simpa using more⟩

theorem Sound.nodup_below (sound : t.Sound) (dir : Place) :
    ((t.below dir).map Prod.fst).Nodup := sound.once.sublist (List.filter_sublist.map _)

/-- What is at a place or beneath it. -/
theorem starts_of_mem {m : Node} (member : (place, node) ∈ (dir, m) :: t.below dir) :
    ∃ names, place = dir ++ names := by
  rcases List.mem_cons.mp member with here | beneath
  · cases here
    exact ⟨[], (List.append_nil _).symm⟩
  · obtain ⟨_, names, _, at_place⟩ := mem_below.mp beneath
    exact ⟨names, at_place⟩

/-- What is beneath a directory is in there, or beneath something in there. -/
theorem Sound.mem_below_iff (sound : t.Sound) : (place, node) ∈ t.below dir ↔
    ∃ e ∈ t.children dir,
      (place, node) ∈ (dir ++ [e.1], e.2) :: t.below (dir ++ [e.1]) := by
  constructor
  · intro beneath
    obtain ⟨member, names, more, rfl⟩ := mem_below.mp beneath
    obtain ⟨name, rest, rfl⟩ := List.exists_cons_of_ne_nil more
    rw [List.append_cons] at member ⊢
    by_cases last : rest = []
    · subst last
      rw [List.append_nil] at member ⊢
      exact ⟨(name, node), mem_children.mpr member, List.mem_cons_self⟩
    · have found := sound.find?_of_mem member (by simp)
      have inside := mem_nodes_of_find? (sound.find?_of_prefix found last) (by simp)
      exact ⟨(name, .dir), mem_children.mpr inside,
        List.mem_cons_of_mem _ (mem_below.mpr ⟨member, rest, last, rfl⟩)⟩
  · rintro ⟨⟨name, other⟩, inside, member⟩
    rcases List.mem_cons.mp member with here | beneath
    · cases here
      exact mem_below.mpr ⟨mem_children.mp inside, [name], List.cons_ne_nil _ _, rfl⟩
    · obtain ⟨member, names, _, rfl⟩ := mem_below.mp beneath
      exact mem_below.mpr ⟨member, name :: names, List.cons_ne_nil _ _, by simp⟩

/-- The same, and each is there once. -/
theorem Sound.below_perm (sound : t.Sound) (dir : Place) :
    (t.below dir).Perm
      ((t.children dir).flatMap fun e => (dir ++ [e.1], e.2) :: t.below (dir ++ [e.1])) := by
  have apart : ((t.children dir).flatMap
      fun e => (dir ++ [e.1], e.2) :: t.below (dir ++ [e.1])).Nodup := by
    refine List.nodup_flatMap.mpr ⟨fun e _ => ?_, ?_⟩
    · refine List.nodup_cons.mpr ⟨?_, (sound.nodup_below _).of_map⟩
      intro beneath
      obtain ⟨_, names, more, here⟩ := mem_below.mp beneath
      exact more (by simpa using here)
    · refine (List.pairwise_map.mp (sound.nodup_children dir)).imp fun {e f} different => ?_
      rintro ⟨place, node⟩ first second
      obtain ⟨names, rfl⟩ := starts_of_mem first
      obtain ⟨names', same⟩ := starts_of_mem second
      simp [different] at same
  refine (List.perm_ext_iff_of_nodup (sound.nodup_below dir).of_map apart).mpr ?_
  rintro ⟨place, node⟩
  rw [List.mem_flatMap]
  exact sound.mem_below_iff

/-- Beneath a file there is nothing. -/
theorem Sound.below_file (sound : t.Sound) {bytes : List UInt8}
    (found : t.find? place = some (.file bytes)) : t.below place = [] := by
  refine List.eq_nil_iff_forall_not_mem.mpr ?_
  rintro ⟨other, node⟩ beneath
  obtain ⟨member, names, more, rfl⟩ := mem_below.mp beneath
  have there := sound.find?_of_prefix (sound.find?_of_mem member (by simp [more])) more
  cases found.symm.trans there

/-! ## What stands -/

/-- Some directories with all that is beneath them. -/
def standing (t : Tree) (dirs : List Place) : List (Place × Node) :=
  dirs.flatMap fun dir => (dir, .dir) :: t.below dir

/-- The files among what is in a directory. -/
def filesIn (dir : Place) (found : List (String × Node)) : List (Place × Node) :=
  (found.filter (!·.2.isDir)).map fun e => (dir ++ [e.1], e.2)

/-- The directories among what is in a directory. -/
def dirsIn (dir : Place) (found : List (String × Node)) : List Place :=
  (found.filter (·.2.isDir)).map fun e => dir ++ [e.1]

variable {dirs : List Place} {found : List (String × Node)}

theorem file_of_mem_filesIn {e : Place × Node} (member : e ∈ filesIn dir found) :
    e.2.isDir = false := by
  obtain ⟨f, kept, rfl⟩ := List.mem_map.mp member
  simpa using (List.mem_filter.mp kept).2

theorem filter_filesIn (dir : Place) (found : List (String × Node)) :
    ((filesIn dir found).filter fun e => !e.2.isDir) = filesIn dir found :=
  List.filter_eq_self.mpr fun e member => by simp [file_of_mem_filesIn member]

theorem Sound.find?_of_mem_dirsIn (sound : t.Sound) (yields : found.Perm (t.children dir))
    (member : place ∈ dirsIn dir found) : dir <+: place ∧ t.find? place = some .dir := by
  obtain ⟨⟨name, node⟩, kept, rfl⟩ := List.mem_map.mp member
  obtain ⟨inside, folder⟩ := List.mem_filter.mp kept
  have there := mem_children.mp (yields.subset inside)
  cases node with
  | file => cases folder
  | dir => exact ⟨List.prefix_append _ _, sound.find?_of_mem there (by simp)⟩

/-- What is in a directory stands there, and what is beneath the directories among that. -/
theorem flatMap_perm (sound : t.Sound) (yields : found.Perm (t.children dir)) :
    (found.flatMap fun e => (dir ++ [e.1], e.2) :: t.below (dir ++ [e.1])).Perm
      (filesIn dir found ++ standing t (dirsIn dir found)) := by
  have files : (found.filter (!·.2.isDir)).flatMap
      (fun e => (dir ++ [e.1], e.2) :: t.below (dir ++ [e.1])) = filesIn dir found := by
    rw [filesIn, List.map_eq_flatMap]
    refine List.flatMap_congr fun e member => ?_
    obtain ⟨inside, file⟩ := List.mem_filter.mp member
    obtain ⟨name, node⟩ := e
    have there := sound.find?_of_mem (mem_children.mp (yields.subset inside)) (by simp)
    cases node with
    | dir => cases file
    | file bytes => rw [sound.below_file there]
  have folders : (found.filter (·.2.isDir)).flatMap
      (fun e => (dir ++ [e.1], e.2) :: t.below (dir ++ [e.1])) =
        standing t (dirsIn dir found) := by
    rw [standing, dirsIn, List.flatMap_map]
    refine List.flatMap_congr fun e member => ?_
    obtain ⟨name, node⟩ := e
    cases node with
    | dir => rfl
    | file bytes => cases (List.mem_filter.mp member).2
  rw [← files, ← folders, ← List.flatMap_append]
  refine List.Perm.flatMap_right _ ?_
  exact (List.filter_append_perm (fun e => e.2.isDir) found).symm.trans List.perm_append_comm

/-- Reading a directory takes it away, with the files in there.  The rest goes on to stand. -/
theorem standing_cons (sound : t.Sound) (dirs : List Place)
    (yields : found.Perm (t.children dir)) :
    (standing t (dir :: dirs)).Perm
      ((dir, .dir) :: (filesIn dir found ++
        standing t ((dirsIn dir found).reverse ++ dirs))) := by
  have inside := (sound.below_perm dir).trans
    ((yields.symm.flatMap_right _).trans (flatMap_perm sound yields))
  have waiting : (standing t ((dirsIn dir found).reverse ++ dirs)).Perm
      (standing t (dirsIn dir found) ++ standing t dirs) := by
    rw [standing, List.flatMap_append]
    exact ((List.reverse_perm _).flatMap_right _).append_right _
  have apart : standing t (dir :: dirs) = (dir, .dir) :: (t.below dir ++ standing t dirs) := rfl
  rw [apart]
  refine .cons _ ((inside.append_right _).trans ?_)
  rw [List.append_assoc]
  exact waiting.symm.append_left _

/-- Then there is one directory less. -/
theorem countP_standing_cons (sound : t.Sound) (dirs : List Place)
    (yields : found.Perm (t.children dir)) :
    (standing t (dir :: dirs)).countP (·.2.isDir) =
      (standing t ((dirsIn dir found).reverse ++ dirs)).countP (·.2.isDir) + 1 := by
  have files : (filesIn dir found).countP (·.2.isDir) = 0 :=
    List.countP_eq_zero.mpr fun e member => by simp [file_of_mem_filesIn member]
  rw [(standing_cons sound dirs yields).countP_eq, List.countP_cons_of_pos rfl, List.countP_append,
    files, Nat.zero_add]

end CommandPool.Files.Tree
