import Mathlib.Data.String.Basic
import CommandPool.Proofs.Files.Beneath
import CommandPool.Proofs.Store.Frames
import CommandPool.Proofs.Text.ByteOrder

/-!
# What a listing lists

A listing reads directories, from the root on, until none is left.  Which one comes next depends
on the order in which they yield what is in them.  But whatever that is, what is still to come is
what stands at or beneath the directories that wait (`Tree.standing_cons`).  So the loop ends when
it has read each directory once, with the key of each file once (`exists_reads`).  Sorted, these
are the same in every order.

A listing fails where the path of a directory is longer than any path may be.
-/

namespace CommandPool.Store

open Files Files.FileSystem
open Files.Tree (standing filesIn dirsIn)

/-! ## Keys of names -/

namespace Key

variable {root : String} {names : List String}

section

variable (named : Path.AreFileNames names) (given : names ≠ [])
include named given

/-- Names of files make up a key. -/
theorem plain_joinSegments : Plain (Path.joinSegments names) := by
  have segmented := Path.segments_joined named given
  have relative := Path.isAbsolute_joinSegments named
  refine ⟨?_, by simpa [Path.isAbsolute] using relative, ?_, ?_⟩
  · intro nothing
    rw [nothing] at segmented
    exact (named "" (segmented ▸ List.mem_cons_self)).given rfl
  · rw [segmented]
    intro here
    exact (named _ (List.mem_of_head? here)).here rfl
  · rw [segmented]
    exact fun up => (named _ up).up rfl

theorem path?_joinSegments (root : String) :
    path? root (Path.joinSegments names) = some (Path.descend root names) :=
  path?_eq_some_iff.mpr ⟨plain_joinSegments named given, Path.descend_eq_join named given⟩

end

theorem ofPath?_descend (named : Path.AreFileNames names) :
    ofPath? root (Path.descend root names) = some (Path.joinSegments names) := by
  have behind : (Path.parts root).isPrefixOf? (Path.parts (Path.descend root names)) =
      some (names.map .name) := by
    rw [Path.parts_descend named, List.isPrefixOf?_eq_some_iff_append_eq]
  rw [ofPath?, behind, Option.map_some, List.map_map]
  congr 2
  exact List.map_id names

end Key

variable {order : Order} {root : String} {base : Place} {fs : FileSystem} {w : Workspace}

/-! ## The loop -/

/-- The loop of a listing reads so many directories, and then ends with this answer. -/
inductive Reads (fs : FileSystem) (order : Order) (root : String) :
    Nat → List String → Except Failure (List String) → Prop where
  | done : Reads fs order root 0 [] (.ok [])
  | fault {folder : String} {pending : List String} {fault : Fault} :
      ((readDir folder).run fs).1 = .error fault →
      Reads fs order root 1 (folder :: pending) (.error (.error (.ofFault folder fault)))
  | folder {folder : String} {pending : List String} {entries : List (String × Node)} {n : Nat}
      {answer : Except Failure (List String)} :
      ((readDir folder).run fs).1 = .ok entries →
      Reads fs order root n ((foldersAmong folder (order folder entries)).reverse ++ pending)
        answer →
      Reads fs order root (n + 1) (folder :: pending)
        (answer.map (keysAmong root folder (order folder entries) ++ ·))

/-- The bound does not matter where it is large enough. -/
theorem Reads.run {n budget : Nat} {pending : List String}
    {answer : Except Failure (List String)} (reads : Reads w.files order root n pending answer)
    (enough : n ≤ budget) : (collectKeys order root budget pending).run w = (answer, w) := by
  induction reads generalizing budget with
  | done => cases budget <;> rfl
  | @fault folder pending fault failed =>
    obtain ⟨budget, rfl⟩ := Nat.exists_eq_add_of_le' enough
    have ran : (readDir folder).run w.files = (.error fault, w.files) := by
      rw [eq_of_answer failed, run_readDir_snd]
    rw [collectKeys, run_onFiles_error ran]
  | @folder folder pending entries n answer yielded _ ih =>
    obtain ⟨budget, rfl⟩ := Nat.exists_eq_add_of_le' (Nat.le_of_add_left_le enough)
    have ran : (readDir folder).run w.files = (.ok entries, w.files) := by
      rw [eq_of_answer yielded, run_readDir_snd]
    rw [collectKeys, run_onFiles_ok ran, run_bind, ih (by omega)]
    cases answer <;> rfl

/-! ## What the loop answers -/

/-- The names from the root to a place beneath it. -/
def onward (base place : Place) : List String := place.drop base.length

/-- The path on which the loop comes to a place. -/
def pathTo (root : String) (base place : Place) : String := Path.descend root (onward base place)

/-- The key of a place. -/
def keyAt (base place : Place) : String := Path.joinSegments (onward base place)

/-- The keys of the files at or beneath some directories. -/
def keysStanding (t : Tree) (base : Place) (dirs : List Place) : List String :=
  ((standing t dirs).filter (!·.2.isDir)).map fun e => keyAt base e.1

/-- The path to a place is not longer than any path may be. -/
def Fits (root : String) (base place : Place) : Prop :=
  (pathTo root base place).utf8ByteSize ≤ longestPath

theorem pathTo_append (root : String) (base : Place) (names : List String) :
    pathTo root base (base ++ names) = Path.descend root names := by
  rw [pathTo, onward, List.drop_left]

theorem keyAt_append (base : Place) (names : List String) :
    keyAt base (base ++ names) = Path.joinSegments names := by
  rw [keyAt, onward, List.drop_left]

/-- The keys of all files that stand, or that the path of a directory is too long. -/
inductive Outcome (fs : FileSystem) (root : String) (base : Place) (dirs : List Place) :
    Except Failure (List String) → Prop where
  | listed {keys : List String} : keys.Perm (keysStanding fs.tree base dirs) →
      (∀ place, (place, .dir) ∈ standing fs.tree dirs → Fits root base place) →
      Outcome fs root base dirs (.ok keys)
  | tooLong {place : Place} : (place, .dir) ∈ standing fs.tree dirs → ¬ Fits root base place →
      Outcome fs root base dirs
        (.error (.error (.ofFault (pathTo root base place) .nameTooLong)))

variable {dir place : Place} {dirs : List Place} {found : List (String × Node)}

theorem pathTo_concat (inside : base <+: dir) (name : String) :
    pathTo root base (dir ++ [name]) = Path.join (pathTo root base dir) name := by
  obtain ⟨names, rfl⟩ := inside
  rw [List.append_assoc, pathTo_append, pathTo_append, Path.descend_concat]

theorem foldersAmong_eq (inside : base <+: dir) (found : List (String × Node)) :
    foldersAmong (pathTo root base dir) found = (dirsIn dir found).map (pathTo root base) := by
  rw [foldersAmong, dirsIn, List.map_map]
  exact List.map_congr_left fun e _ => (pathTo_concat inside e.1).symm

section

variable (sound : fs.Sound)
include sound

theorem keysAmong_eq (inside : base <+: dir) (yields : found.Perm (fs.tree.children dir)) :
    keysAmong root (pathTo root base dir) found =
      (filesIn dir found).map fun e => keyAt base e.1 := by
  rw [keysAmong, filesIn, List.map_map, ← List.filterMap_eq_map]
  refine List.filterMap_congr fun e member => ?_
  have there := Tree.mem_children.mp (yields.subset (List.mem_filter.mp member).1)
  have named := sound.tree.named _ there
  obtain ⟨names, rfl⟩ := inside
  rw [← pathTo_concat (List.prefix_append _ _)]
  refine Key.ofPath?_descend fun name member => named name (List.mem_of_mem_drop member)

/-- The path to a place leads there, if it fits. -/
theorem resolve_pathTo {node : Node} (rooted : fs.resolve root = .ok (base, .dir))
    (inside : base <+: place) (there : fs.tree.find? place = some node) :
    fs.resolve (pathTo root base place) =
      if (pathTo root base place).utf8ByteSize > longestPath then .error .nameTooLong
      else .ok (place, node) := by
  obtain ⟨names, rfl⟩ := inside
  rw [pathTo_append]
  exact sound.resolve_descend rooted there

variable (rooted : fs.resolve root = .ok (base, .dir)) (inside : base <+: dir)
  (there : fs.tree.find? dir = some .dir)
include rooted inside there

theorem run_readDir (fits : Fits root base dir) :
    ((readDir (pathTo root base dir)).run fs).1 = .ok (fs.tree.children dir) := by
  have resolved := resolve_pathTo sound rooted inside there
  rw [if_neg (Nat.not_lt.mpr fits)] at resolved
  rw [readDir, run_ask_ok resolved]
  rfl

theorem run_readDir_long (long : ¬ Fits root base dir) :
    ((readDir (pathTo root base dir)).run fs).1 = .error .nameTooLong := by
  have resolved := resolve_pathTo sound rooted inside there
  rw [if_pos (Nat.lt_of_not_le long)] at resolved
  rw [readDir, run_ask_error resolved]

end

/-! ## Reading all that stands -/

/-- What the loop answers for the rest, with the files of the directory that it has read. -/
theorem Outcome.cons {answer : Except Failure (List String)} (sound : fs.Sound)
    (inside : base <+: dir) (fits : Fits root base dir)
    (yields : found.Perm (fs.tree.children dir))
    (outcome : Outcome fs root base ((dirsIn dir found).reverse ++ dirs) answer) :
    Outcome fs root base (dir :: dirs)
      (answer.map (keysAmong root (pathTo root base dir) found ++ ·)) := by
  have perm := Tree.standing_cons sound.tree dirs yields
  cases outcome with
  | listed all fit =>
    refine .listed ?_ fun place member => ?_
    · refine .trans ?_ ((perm.filter _).map _).symm
      rw [keysAmong_eq sound inside yields, List.filter_cons_of_neg (by simp [Node.isDir]),
        List.filter_append, Tree.filter_filesIn, List.map_append]
      exact all.append_left _
    · rcases List.mem_cons.mp (perm.subset member) with here | others
      · cases here
        exact fits
      · rcases List.mem_append.mp others with file | rest
        · cases Tree.file_of_mem_filesIn file
        · exact fit place rest
  | tooLong member long =>
    exact .tooLong (perm.symm.subset (List.mem_cons_of_mem _ (List.mem_append_right _ member))) long

/-- Whatever the order, the loop ends, having read each directory that stands once at most. -/
theorem exists_reads (sound : fs.Sound) (rooted : fs.resolve root = .ok (base, .dir))
    (yields : ∀ folder entries, (order folder entries).Perm entries) {n : Nat}
    (enough : (standing fs.tree dirs).countP (·.2.isDir) ≤ n)
    (there : ∀ dir ∈ dirs, base <+: dir ∧ fs.tree.find? dir = some .dir) :
    ∃ m ≤ n, ∃ answer, Reads fs order root m (dirs.map (pathTo root base)) answer ∧
      Outcome fs root base dirs answer := by
  induction n generalizing dirs with
  | zero =>
    cases dirs with
    | nil => exact ⟨0, Nat.le_refl 0, _, .done, .listed .rfl nofun⟩
    | cons dir dirs => simp [Tree.countP_standing_cons sound.tree dirs (.refl _)] at enough
  | succ n ih =>
    cases dirs with
    | nil => exact ⟨0, Nat.zero_le _, _, .done, .listed .rfl nofun⟩
    | cons dir dirs =>
      obtain ⟨inside, found⟩ := there dir List.mem_cons_self
      by_cases fits : Fits root base dir
      · have yielded := run_readDir sound rooted inside found fits
        have perm := yields (pathTo root base dir) (fs.tree.children dir)
        rw [Tree.countP_standing_cons sound.tree dirs perm] at enough
        obtain ⟨m, less, answer, reads, outcome⟩ := ih (Nat.le_of_succ_le_succ enough) (by
          intro place member
          rcases List.mem_append.mp member with new | old
          · obtain ⟨further, there⟩ :=
              sound.tree.find?_of_mem_dirsIn perm (List.mem_reverse.mp new)
            exact ⟨inside.trans further, there⟩
          · exact there place (List.mem_cons_of_mem _ old))
        rw [List.map_append, List.map_reverse, ← foldersAmong_eq inside] at reads
        exact ⟨m + 1, Nat.succ_le_succ less, _, .folder yielded reads,
          outcome.cons sound inside fits perm⟩
      · have failed := run_readDir_long sound rooted inside found fits
        exact ⟨1, Nat.le_add_left 1 n, _, .fault failed,
          .tooLong (List.mem_append_left _ List.mem_cons_self) fits⟩

/-! ## Sorting -/

theorem sortKeys_increasing {keys : List String} (once : keys.Nodup) :
    (sortKeys keys).Pairwise fun a b => Text.Utf8.encode a < Text.Utf8.encode b := by
  have perm := List.mergeSort_perm keys fun a b => decide (a ≤ b)
  have sorted : (sortKeys keys).Pairwise fun a b => decide (a ≤ b) = true :=
    List.pairwise_mergeSort (fun a b c => by simpa using le_trans)
      (fun a b => by simpa using le_total a b) keys
  refine (sorted.and (perm.nodup_iff.mpr once)).imp fun {a b} both => ?_
  exact Text.Utf8.encode_lt (lt_of_le_of_ne (of_decide_eq_true both.1) both.2)

/-! ## Objects -/

/-- The text is the key of a file beneath the root, with these bytes. -/
def IsObject (fs : FileSystem) (base : Place) (key : String) (bytes : List UInt8) : Prop :=
  ∃ names ≠ [], fs.tree.find? (base ++ names) = some (.file bytes) ∧ key = Path.joinSegments names

/-- No directory at or beneath the root has a path that is longer than any may be. -/
def AllFit (fs : FileSystem) (root : String) (base : Place) : Prop :=
  ∀ names, fs.tree.find? (base ++ names) = some .dir →
    (Path.descend root names).utf8ByteSize ≤ longestPath

/-- The keys are those of all objects that begin with `stem`, in the order of their bytes. -/
structure Listed (fs : FileSystem) (base : Place) (stem : String) (keys : List String) : Prop where
  increasing : keys.Pairwise fun a b => Text.Utf8.encode a < Text.Utf8.encode b
  exact : ∀ key, key ∈ keys ↔
    Text.startsWith stem key = true ∧ ∃ bytes, IsObject fs base key bytes

section

variable (sound : fs.Sound) (rooted : fs.resolve root = .ok (base, .dir))
include sound rooted

/-- At the root there stands what is there and beneath. -/
theorem mem_standing_root {node : Node} : (place, node) ∈ standing fs.tree [base] ↔
    ∃ names, place = base ++ names ∧ fs.tree.find? place = some node := by
  have there := sound.find?_of_leads (leads_of_resolve_dir rooted).2
  rw [standing, List.flatMap_singleton, List.mem_cons, Tree.mem_below]
  constructor
  · rintro (here | ⟨member, names, more, rfl⟩)
    · cases here
      exact ⟨[], (List.append_nil _).symm, there⟩
    · exact ⟨names, rfl, sound.tree.find?_of_mem member (by simp [more])⟩
  · rintro ⟨names, rfl, found⟩
    cases names with
    | nil =>
      rw [List.append_nil] at found ⊢
      cases found.symm.trans there
      exact Or.inl rfl
    | cons name names =>
      exact Or.inr ⟨Tree.mem_nodes_of_find? found (by simp), _, List.cons_ne_nil _ _, rfl⟩

theorem mem_files_iff {e : Place × Node} :
    e ∈ (standing fs.tree [base]).filter (!·.2.isDir) ↔
      ∃ names bytes, names ≠ [] ∧ fs.tree.find? (base ++ names) = some (.file bytes) ∧
        e = (base ++ names, .file bytes) := by
  rw [List.mem_filter]
  constructor
  · rintro ⟨stands, file⟩
    obtain ⟨place, node⟩ := e
    obtain ⟨names, rfl, found⟩ := (mem_standing_root sound rooted).mp stands
    cases node with
    | dir => cases file
    | file bytes =>
      refine ⟨names, bytes, ?_, found, rfl⟩
      rintro rfl
      rw [List.append_nil] at found
      cases found.symm.trans (sound.find?_of_leads (leads_of_resolve_dir rooted).2)
  · rintro ⟨names, bytes, _, found, rfl⟩
    exact ⟨(mem_standing_root sound rooted).mpr ⟨names, rfl, found⟩, rfl⟩

theorem mem_keysStanding_iff {key : String} :
    key ∈ keysStanding fs.tree base [base] ↔ ∃ bytes, IsObject fs base key bytes := by
  rw [keysStanding, List.mem_map]
  constructor
  · rintro ⟨e, member, rfl⟩
    obtain ⟨names, bytes, more, found, rfl⟩ := (mem_files_iff sound rooted).mp member
    exact ⟨bytes, names, more, found, keyAt_append base names⟩
  · rintro ⟨bytes, names, more, found, rfl⟩
    exact ⟨_, (mem_files_iff sound rooted).mpr ⟨names, bytes, more, found, rfl⟩,
      keyAt_append base names⟩

omit rooted in
theorem fileNames_of_find? {names : List String} {node : Node}
    (found : fs.tree.find? (base ++ names) = some node) : Path.AreFileNames names :=
  fun name member => sound.tree.fileNames found name (List.mem_append_right _ member)

/-- Each file has a key of its own. -/
theorem nodup_keysStanding : (keysStanding fs.tree base [base]).Nodup := by
  have once : (standing fs.tree [base]).Nodup := by
    rw [standing, List.flatMap_singleton]
    refine List.nodup_cons.mpr ⟨fun beneath => ?_, (sound.tree.nodup_below base).of_map⟩
    obtain ⟨_, names, more, here⟩ := Tree.mem_below.mp beneath
    exact more (by simpa using here)
  refine List.Nodup.map_on (fun e member f member' same => ?_) (once.filter _)
  obtain ⟨names, bytes, more, found, rfl⟩ := (mem_files_iff sound rooted).mp member
  obtain ⟨names', bytes', more', found', rfl⟩ := (mem_files_iff sound rooted).mp member'
  simp only [keyAt_append] at same
  have segmented := congrArg Path.segments same
  rw [Path.segments_joined (fileNames_of_find? sound found) more,
    Path.segments_joined (fileNames_of_find? sound found') more'] at segmented
  subst segmented
  cases found.symm.trans found'
  rfl

/-! ## Listings -/

/-- A listing runs the loop, whose bound is large enough, and sorts what begins with `stem`. -/
theorem run_listKeysIn (yields : ∀ folder entries, (order folder entries).Perm entries)
    (files : w.files = fs) (stem : String) :
    ∃ n ≤ fs.tree.nodes.length + 1, ∃ answer, Reads fs order root n [root] answer ∧
      Outcome fs root base [base] answer ∧ ∃ w', w'.files = fs ∧
        (listKeysIn order root stem).run w =
          (answer.map fun keys => sortKeys (keys.filter (Text.startsWith stem)), w') := by
  subst files
  have there := sound.find?_of_leads (leads_of_resolve_dir rooted).2
  have few : (standing w.files.tree [base]).countP (·.2.isDir) ≤
      w.files.tree.nodes.length + 1 := by
    refine Nat.le_trans List.countP_le_length ?_
    rw [standing, List.flatMap_singleton, List.length_cons]
    exact Nat.succ_le_succ (List.length_filter_le _ _)
  obtain ⟨n, enough, answer, reads, outcome⟩ := exists_reads sound rooted yields few
    (by simpa using there)
  have path : [base].map (pathTo root base) = [root] := by
    simp [pathTo, onward, Path.descend]
  rw [path] at reads
  obtain ⟨w₁, files, _, _, counted⟩ := run_count .storageOp w
  refine ⟨n, enough, answer, reads, outcome, w₁, files, ?_⟩
  rw [← files] at reads enough
  rw [listKeysIn, counted, run_bind_ok (run_get w₁), run_bind, reads.run enough]
  cases answer <;> rfl

/-- The keys of the files that stand are listed. -/
theorem listed_of_perm {keys : List String} (all : keys.Perm (keysStanding fs.tree base [base]))
    (stem : String) :
    Listed fs base stem (sortKeys (keys.filter (Text.startsWith stem))) := by
  have once := all.nodup_iff.mpr (nodup_keysStanding sound rooted)
  refine ⟨sortKeys_increasing (once.filter _), fun key => ?_⟩
  rw [sortKeys, (List.mergeSort_perm _ _).mem_iff, List.mem_filter, all.mem_iff,
    mem_keysStanding_iff sound rooted, and_comm]

/-- Where all paths fit, all objects that begin with `stem` are listed. -/
theorem listKeysIn_of_allFit (yields : ∀ folder entries, (order folder entries).Perm entries)
    (files : w.files = fs) (fit : AllFit fs root base) (stem : String) :
    ∃ keys w', (listKeysIn order root stem).run w = (.ok keys, w') ∧ w'.files = fs ∧
      Listed fs base stem keys := by
  obtain ⟨_, _, answer, _, outcome, w', kept, ran⟩ := run_listKeysIn sound rooted yields files stem
  cases outcome with
  | listed all _ => exact ⟨_, w', ran, kept, listed_of_perm sound rooted all stem⟩
  | tooLong member long =>
    obtain ⟨names, rfl, found⟩ := (mem_standing_root sound rooted).mp member
    rw [Fits, pathTo_append] at long
    exact absurd (fit names found) long

/-- Otherwise the listing fails where a path does not fit. -/
theorem listKeysIn_of_not_allFit (yields : ∀ folder entries, (order folder entries).Perm entries)
    (files : w.files = fs) (long : ¬ AllFit fs root base) (stem : String) :
    ∃ names w', fs.tree.find? (base ++ names) = some .dir ∧
      (Path.descend root names).utf8ByteSize > longestPath ∧
      (listKeysIn order root stem).run w =
        (.error (.error (.ofFault (Path.descend root names) .nameTooLong)), w') := by
  obtain ⟨_, _, answer, _, outcome, w', _, ran⟩ := run_listKeysIn sound rooted yields files stem
  cases outcome with
  | listed _ fit =>
    refine absurd (fun names found => ?_) long
    have short := fit _ ((mem_standing_root sound rooted).mpr ⟨names, rfl, found⟩)
    rwa [Fits, pathTo_append] at short
  | tooLong member long =>
    obtain ⟨names, rfl, found⟩ := (mem_standing_root sound rooted).mp member
    rw [Fits, pathTo_append] at long
    rw [pathTo_append] at ran
    exact ⟨names, w', found, Nat.lt_of_not_le long, ran⟩

end

end CommandPool.Store
