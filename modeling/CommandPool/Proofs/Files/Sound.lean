import Mathlib.Data.List.Induction
import Mathlib.Data.List.Nodup
import CommandPool.Proofs.Files.FileNames
import CommandPool.Proofs.Files.Operations
import CommandPool.Proofs.Files.Travels

/-!
# Sound file systems

The places of a tree are a list, and a list can hold what no disk holds: a place twice, a name with
a slash, a file in a file.  A tree is `Sound` if it holds none of these, and a file system if one
also works in a directory.  In a sound file system all that is beneath a directory is reached by
the names on the way, one after the other, unless the path gets too long (`resolve_descend`).  And
it stays sound when files and directories are made, since what a path can end with is a name.
-/

namespace CommandPool.Files

namespace Tree

variable {t : Tree} {place dir : Place} {name : String} {names : List String} {node : Node}

/-- The tree can be that of a disk. -/
@[mk_iff] structure Sound (t : Tree) : Prop where
  once : (t.nodes.map Prod.fst).Nodup
  named : ∀ e ∈ t.nodes, ∀ name ∈ e.1, IsFileName name
  above : ∀ e ∈ t.nodes, t.find? e.1.dropLast = some .dir

instance decidableSound (t : Tree) : Decidable t.Sound :=
  decidable_of_iff _ (sound_iff t).symm

/-! ## What is there -/

theorem mem_nodes_of_find? (found : t.find? place = some node) (below : place ≠ []) :
    (place, node) ∈ t.nodes := by
  rw [find?, if_neg below, List.lookup_eq_some_iff] at found
  obtain ⟨front, back, nodes, _⟩ := found
  rw [nodes]
  exact List.mem_append_right _ List.mem_cons_self

theorem Sound.find?_of_mem (sound : t.Sound) (member : (place, node) ∈ t.nodes)
    (below : place ≠ []) : t.find? place = some node := by
  obtain ⟨front, back, nodes⟩ := List.append_of_mem member
  have once := sound.once
  rw [nodes, List.map_append, List.map_cons, List.nodup_append] at once
  rw [find?, if_neg below, List.lookup_eq_some_iff]
  refine ⟨front, back, nodes, fun e inside => ?_⟩
  exact bne_iff_ne.mpr
    (Ne.symm (once.2.2 e.1 (List.mem_map_of_mem inside) place List.mem_cons_self))

theorem Sound.fileNames (sound : t.Sound) (found : t.find? place = some node) :
    Path.AreFileNames place := by
  intro name member
  exact sound.named _ (mem_nodes_of_find? found (List.ne_nil_of_mem member)) name member

/-- Around what is there, there is a directory. -/
theorem Sound.find?_above (sound : t.Sound) (found : t.find? (dir ++ [name]) = some node) :
    t.find? dir = some .dir := by
  have above := sound.above _ (mem_nodes_of_find? found (by simp))
  rwa [List.dropLast_concat] at above

theorem Sound.find?_of_prefix (sound : t.Sound) (found : t.find? (dir ++ names) = some node)
    (below : names ≠ []) : t.find? dir = some .dir := by
  induction names using List.reverseRecOn generalizing node with
  | nil => exact absurd rfl below
  | append_singleton names name ih =>
    rw [← List.append_assoc] at found
    have above := sound.find?_above found
    cases names with
    | nil => rwa [List.append_nil] at above
    | cons => exact ih above (List.cons_ne_nil _ _)

/-! ## What is put there -/

theorem mem_put {e : Place × Node} (member : e ∈ (t.put place node).nodes) :
    e = (place, node) ∨ e ∈ t.nodes := by
  unfold put at member
  split at member
  next =>
    obtain ⟨f, inside, rfl⟩ := List.mem_map.mp member
    split
    next => exact Or.inl rfl
    next => exact Or.inr inside
  next =>
    rcases List.mem_append.mp member with inside | new
    · exact Or.inr inside
    · exact Or.inl (List.mem_singleton.mp new)

theorem Sound.once_put (sound : t.Sound) (place : Place) (node : Node) :
    ((t.put place node).nodes.map Prod.fst).Nodup := by
  unfold put
  split
  next =>
    have same : (Prod.fst ∘ fun e : Place × Node => if e.1 = place then (place, node) else e) =
        Prod.fst := by
      funext e
      by_cases here : e.1 = place <;> simp [here]
    rw [List.map_map, same]
    exact sound.once
  next absent =>
    have new : place ∉ t.nodes.map Prod.fst := by
      intro member
      obtain ⟨e, inside, rfl⟩ := List.mem_map.mp member
      have nothing := List.lookup_eq_none_iff.mp (Option.not_isSome_iff_eq_none.mp absent) e inside
      simp at nothing
    rw [List.map_append]
    refine List.nodup_append.mpr ⟨sound.once, List.nodup_singleton _, ?_⟩
    rintro other member _ here rfl
    cases List.mem_singleton.mp here
    exact new member

/-- A tree stays sound if something new gets into a directory, or if something that is no
directory is replaced. -/
theorem Sound.put (sound : t.Sound) (inside : t.find? dir = some .dir) (named : IsFileName name)
    (spares : node = .dir ∨ t.find? (dir ++ [name]) ≠ some .dir) :
    (t.put (dir ++ [name]) node).Sound := by
  have kept {place : Place} (there : t.find? place = some .dir) :
      (t.put (dir ++ [name]) node).find? place = some .dir := by
    rw [find?_put]
    split
    next here =>
      rcases spares with rfl | other
      · rfl
      · exact absurd (here.1 ▸ there) other
    next => exact there
  refine ⟨sound.once_put _ _, fun e member => ?_, fun e member => ?_⟩
  · rcases mem_put member with rfl | old
    · intro other member
      rcases List.mem_append.mp member with above | last
      · exact sound.fileNames inside other above
      · exact List.mem_singleton.mp last ▸ named
    · exact sound.named e old
  · rcases mem_put member with rfl | old
    · rw [List.dropLast_concat]
      exact kept inside
    · exact kept (sound.above e old)

end Tree

namespace FileSystem

open Files.Path

variable {fs fs' : FileSystem} {t : Tree} {p root name : String} {names : List String}
  {dir base place next : Place} {node : Node} {r : Reached}

/-- The tree can be that of a disk, and the working directory is there. -/
structure Sound (fs : FileSystem) : Prop where
  tree : fs.tree.Sound
  home : fs.tree.find? fs.home = some .dir

/-! ## Directories reached -/

theorem find?_of_enter {segment : String} (sound : t.Sound) (inside : t.find? dir = some .dir)
    (entered : enter t dir segment = .ok next) : t.find? next = some .dir := by
  by_cases here : segment = "."
  · rw [enter, if_pos here] at entered
    cases entered
    exact inside
  · by_cases up : segment = ".."
    · rw [enter, if_neg here, if_pos up] at entered
      cases entered
      cases dir using List.reverseRecOn with
      | nil => exact inside
      | append_singleton above name =>
        rw [List.dropLast_concat]
        exact sound.find?_above inside
    · exact (enter_name here up entered).2

theorem find?_of_travels {segments : List String} (sound : t.Sound)
    (inside : t.find? dir = some .dir) (traveled : travel t dir segments = .ok base) :
    t.find? base = some .dir := by
  induction segments generalizing dir with
  | nil => cases traveled; exact inside
  | cons segment segments ih =>
    obtain ⟨next, entered, rest⟩ := travel_cons_ok.mp traveled
    exact ih (find?_of_enter sound inside entered) rest

theorem Sound.find?_start (sound : fs.Sound) (p : String) :
    fs.tree.find? (fs.start p) = some .dir := by
  unfold start
  split
  next => rfl
  next => exact sound.home

theorem Sound.find?_of_leads (sound : fs.Sound) (leads : Leads fs p base) :
    fs.tree.find? base = some .dir :=
  find?_of_travels sound.tree (sound.find?_start p) leads

/-! ## Down the tree -/

/-- One gets where a directory is by the names on the way. -/
theorem travel_fileNames (sound : t.Sound) (named : AreFileNames names)
    (found : t.find? (base ++ names) = some .dir) :
    travel t base names = .ok (base ++ names) := by
  induction names using List.reverseRecOn with
  | nil => rw [List.append_nil]; rfl
  | append_singleton names name ih =>
    rw [← List.append_assoc] at found ⊢
    have last := named name (by simp)
    have before := ih (fun name member => named name (List.mem_append_left _ member))
      (sound.find?_above found)
    exact travel_append_ok.mpr ⟨_, before, travel_cons_ok.mpr
      ⟨_, enter_of_find last.here last.up (Nat.not_lt.mpr last.short) found, rfl⟩⟩

theorem follow_concat {slash : Bool} {front : List String} (here : name ≠ ".") (up : name ≠ "..")
    (traveled : travel t dir front = .ok base) :
    follow t dir slash (front ++ [name]) = .ok ⟨base, .name name, slash⟩ := by
  induction front generalizing dir with
  | nil =>
    cases traveled
    simp [follow, here, up]
  | cons segment front ih =>
    obtain ⟨next, entered, rest⟩ := travel_cons_ok.mp traveled
    have onward := ih rest
    obtain ⟨first, others, more⟩ : ∃ first others, front ++ [name] = first :: others :=
      List.exists_cons_of_ne_nil (by simp)
    rw [List.cons_append, more, follow, entered]
    rwa [more] at onward

theorem reach_eq (clean : '\x00' ∉ p.toList) (given : p ≠ "") :
    fs.reach p = if p.utf8ByteSize > longestPath then .error .nameTooLong
      else follow fs.tree (fs.start p) (endsWithSlash p) (walk p) := by
  rw [reach, if_neg (by simpa using clean), if_neg given]
  rfl

theorem clean_of_reach (reached : fs.reach p = .ok r) : '\x00' ∉ p.toList := by
  unfold reach at reached
  split at reached
  next => cases reached
  next clean => simpa using clean

theorem short_of_reach (reached : fs.reach p = .ok r) : ¬ p.utf8ByteSize > longestPath := by
  have given := (reach_eq_ok reached).1
  rw [reach_eq (clean_of_reach reached) given] at reached
  split at reached
  next => cases reached
  next short => exact short

theorem exists_reach {found : Place × Node} (resolved : fs.resolve p = .ok found) :
    ∃ r, fs.reach p = .ok r := by
  cases reached : fs.reach p with
  | error f => rw [resolve_of_error reached] at resolved; cases resolved
  | ok r => exact ⟨r, rfl⟩

/-- A path goes down to what is there, unless it gets too long. -/
theorem Sound.resolve_descend (sound : fs.Sound) (rooted : fs.resolve root = .ok (base, .dir))
    (found : fs.tree.find? (base ++ names) = some node) :
    fs.resolve (descend root names) =
      if (descend root names).utf8ByteSize > longestPath then .error .nameTooLong
      else .ok (base ++ names, node) := by
  obtain ⟨r, reached⟩ := exists_reach rooted
  obtain ⟨_, leads⟩ := leads_of_resolve_dir rooted
  have named : AreFileNames names := fun name member =>
    sound.tree.fileNames found name (List.mem_append_right _ member)
  cases names using List.reverseRecOn with
  | nil =>
    rw [List.append_nil] at found ⊢
    cases found.symm.trans (sound.find?_of_leads leads)
    exact (if_neg (short_of_reach reached)).symm ▸ rooted
  | append_singleton front name =>
    have last := named name (by simp)
    have before : AreFileNames front := fun name member =>
      named name (List.mem_append_left _ member)
    obtain ⟨given, noSlash⟩ := descend_fileName root front last
    have clean := not_mem_descend named (clean_of_reach reached)
    obtain ⟨starts, onward⟩ := walk_descend (p := root) named
    by_cases long : (descend root (front ++ [name])).utf8ByteSize > longestPath
    · rw [if_pos long, resolve_of_error]
      rw [reach_eq clean given, if_pos long]
    · have above := sound.tree.find?_above (by rwa [List.append_assoc])
      have traveled : travel fs.tree (fs.start root) (walk root ++ front) = .ok (base ++ front) :=
        travel_append_ok.mpr ⟨base, leads, travel_fileNames sound.tree before above⟩
      have followed : fs.reach (descend root (front ++ [name])) =
          .ok ⟨base ++ front, .name name, false⟩ := by
        rw [reach_eq clean given, if_neg long, onward, noSlash, start, starts, ← List.append_assoc]
        exact follow_concat last.here last.up traveled
      rw [if_neg long, resolve_of_name followed rfl, if_neg (Nat.not_lt.mpr last.short)]
      simp only [List.append_assoc, found]
      cases node <;> rfl

/-! ## What makes files and directories -/

/-- What a path ends with can be the name of a file, in the directory that was reached. -/
theorem Sound.reached (sound : fs.Sound) (reached : fs.reach p = .ok r)
    (ending : r.ending = .name name) (short : ¬ name.utf8ByteSize > longestName) :
    fs.tree.find? r.dir = some .dir ∧ IsFileName name := by
  have followed := follow_eq_ok (reach_eq_ok reached).2
  rw [ending] at followed
  obtain ⟨here, up, front, all, traveled⟩ := followed
  have walked : name ∈ walk p := all ▸ List.mem_append_right _ List.mem_cons_self
  obtain ⟨segment, given⟩ := List.mem_filter.mp walked
  refine ⟨find?_of_travels sound.tree (sound.find?_start p) traveled,
    ⟨by simpa using given, here, up, slash_not_mem_of_segment segment, fun nul => ?_,
      Nat.not_lt.mp short⟩⟩
  exact clean_of_reach reached (mem_of_segment segment nul)

theorem Sound.createDir (sound : fs.Sound) (p : String) : ((createDir p).run fs).2.Sound := by
  rw [FileSystem.createDir]
  cases reached : fs.reach p with
  | error f => rw [run_ask_error reached]; exact sound
  | ok r =>
    rw [run_ask_ok reached]
    cases ending : r.ending with
    | dots => exact sound
    | name name =>
      simp only
      by_cases long : name.utf8ByteSize > longestName
      · rw [run_ask_error (if_pos long)]
        exact sound
      · rw [run_ask_ok (lookup_ok long)]
        cases found : fs.tree.find? (r.dir ++ [name]) with
        | some node => exact sound
        | none =>
          obtain ⟨inside, named⟩ := sound.reached reached ending long
          exact ⟨sound.tree.put inside named (Or.inl rfl), (grown_put found).dirs _ sound.home⟩

theorem Sound.createDirAll (sound : fs.Sound) (p : String) :
    ((createDirAll p).run fs).2.Sound :=
  createDirs_respects (R := fun fs fs' => fs.Sound → fs'.Sound) (P := fun _ => True)
    (fun _ sound => sound) (fun one two sound => two (one sound)) (fun _ _ => trivial)
    (fun _ _ sound => sound.createDir _) p.length trivial fs sound

theorem Sound.create (sound : fs.Sound) (p : String) : ((create p).run fs).2.Sound := by
  rcases create_cases p fs with ⟨f, failed⟩ | ⟨place, names, before, ran⟩
  · rw [failed]
    exact sound
  · rw [ran]
    have sets := sets_put names.below before []
    obtain ⟨r, name, reached, ending, _, short, rfl⟩ := names.ends
    obtain ⟨inside, named⟩ := sound.reached reached ending short
    exact ⟨sound.tree.put inside named (Or.inr before), sets.stays.dirs _ sound.home⟩

end FileSystem

end CommandPool.Files
