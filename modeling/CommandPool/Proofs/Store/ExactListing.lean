import CommandPool.Proofs.Store.Listing

/-!
# Listing is exact

Where no directory has a path that is longer than any may be, a listing gives the keys of all files
beneath the root that begin with the text asked for, in the order of their bytes, and in whatever
order the directories yield what is in them.  Each of these keys leads back to its file
(`LeadsBack`).  A root can be so long that the paths of directories in there are not accepted any
more; then a listing fails, although nothing is wrong with the files.
-/

namespace CommandPool.Store

open Files Files.FileSystem

variable {order : Order} {root key path : String} {base place : Place} {names : List String}
  {bytes : List UInt8} {fs : FileSystem} {w : Workspace}

/-! ## Sizes -/

theorem objectSize_of_resolve (at_path : Key.path? root key = some path)
    (resolved : w.files.resolve path = .ok (place, .file bytes)) :
    ((objectSize root key).run w).1 = .ok bytes.length := by
  obtain ⟨w₁, files, _, _, counted⟩ := run_count .storageOp w
  have ran : (metadata path).run w₁.files = (.ok (.file bytes), w₁.files) := by
    rw [metadata, files, run_ask_ok resolved]
    rfl
  rw [objectSize, run_askPath_ok at_path, counted, run_onFiles_ok ran]
  rfl

theorem objectSize_of_error {fault : Fault} (at_path : Key.path? root key = some path)
    (failed : w.files.resolve path = .error fault) :
    ((objectSize root key).run w).1 = .error (.error (.ofFault key fault)) := by
  obtain ⟨w₁, files, _, _, counted⟩ := run_count .storageOp w
  have ran : (metadata path).run w₁.files = (.error fault, w₁.files) := by
    rw [metadata, files, run_ask_error failed]
  rw [objectSize, run_askPath_ok at_path, counted, run_onFiles_error ran]

/-- The key that these names make up is accepted, and its path leads to the file of that name
unless it is too long.  So the size of the object is that of the file. -/
structure LeadsBack (w : Workspace) (root : String) (base : Place) (names : List String)
    (bytes : List UInt8) : Prop where
  accepted : pathOfKey root (Path.joinSegments names) = .ok (Path.descend root names)
  back : (Path.descend root names).utf8ByteSize ≤ longestPath →
    w.files.resolve (Path.descend root names) = .ok (base ++ names, .file bytes)
  size : (Path.descend root names).utf8ByteSize ≤ longestPath →
    ((objectSize root (Path.joinSegments names)).run w).1 = .ok bytes.length
  tooLong : (Path.descend root names).utf8ByteSize > longestPath →
    ((objectSize root (Path.joinSegments names)).run w).1 =
      .error (.error (.ofFault (Path.joinSegments names) .nameTooLong))

theorem leadsBack (sound : w.files.Sound) (rooted : w.files.resolve root = .ok (base, .dir))
    (given : names ≠ []) (found : w.files.tree.find? (base ++ names) = some (.file bytes)) :
    LeadsBack w root base names bytes := by
  have named := fileNames_of_find? sound found
  have at_path := Key.path?_joinSegments named given root
  have resolved := sound.resolve_descend rooted found
  refine ⟨by rw [pathOfKey, at_path], fun short => ?_, fun short => ?_, fun long => ?_⟩
  · rw [resolved, if_neg (Nat.not_lt.mpr short)]
  · rw [if_neg (Nat.not_lt.mpr short)] at resolved
    exact objectSize_of_resolve at_path resolved
  · rw [if_pos long] at resolved
    exact objectSize_of_error at_path resolved

/-! ## Listing -/

/-- Whatever the order in which directories yield what is in them, the loop of a listing ends, and
its bound is large enough.  If all paths of directories fit, the keys of all files beneath the root
that begin with `stem` are listed, in the order of their bytes; otherwise the listing fails at a
directory whose path does not fit.  The key of a file leads back to that, also afterwards. -/
theorem listing_is_exact (sound : w.files.Sound)
    (rooted : w.files.resolve root = .ok (base, .dir))
    (yields : ∀ folder entries, (order folder entries).Perm entries) (stem : String) :
    (∃ n ≤ w.files.tree.nodes.length + 1, ∃ answer, Reads w.files order root n [root] answer ∧
      ∀ budget ≥ n, (collectKeys order root budget [root]).run w = (answer, w)) ∧
    (AllFit w.files root base → ∃ keys w', (listKeysIn order root stem).run w = (.ok keys, w') ∧
      w'.files = w.files ∧ Listed w.files base stem keys) ∧
    (¬ AllFit w.files root base → ∃ dir w', w.files.tree.find? (base ++ dir) = some .dir ∧
      (Path.descend root dir).utf8ByteSize > longestPath ∧
      (listKeysIn order root stem).run w =
        (.error (.error (.ofFault (Path.descend root dir) .nameTooLong)), w')) ∧
    ∀ w' : Workspace, w'.files = w.files → ∀ names bytes, names ≠ [] →
      w.files.tree.find? (base ++ names) = some (.file bytes) →
      LeadsBack w' root base names bytes := by
  refine ⟨?_, fun fit => listKeysIn_of_allFit sound rooted yields rfl fit stem,
    fun long => listKeysIn_of_not_allFit sound rooted yields rfl long stem,
    fun w' same names bytes given found => ?_⟩
  · obtain ⟨n, few, answer, reads, _⟩ := run_listKeysIn sound rooted yields rfl stem
    exact ⟨n, few, answer, reads, fun budget enough => reads.run enough⟩
  · rw [← same] at sound rooted found
    exact leadsBack sound rooted given found

/-! ## A store with one file -/

/-- A store with a file in a directory. -/
def shelf : Workspace where
  files := ⟨⟨[(["store"], .dir), (["store", "d"], .dir),
    (["store", "d", "x"], .file [97, 98, 99])]⟩, [], none⟩
  counters := .zero
  log := []

theorem shelf_sound : shelf.files.Sound := ⟨by decide +kernel, rfl⟩

theorem shelf_rooted : shelf.files.resolve "store" = .ok (["store"], .dir) := by decide +kernel

/-- There are two directories in it. -/
theorem dirs_of_shelf (found : shelf.files.tree.find? (["store"] ++ names) = some .dir) :
    names = [] ∨ names = ["d"] := by
  have member := Tree.mem_nodes_of_find? found (by simp)
  simpa [shelf] using member

theorem shelf_allFit : AllFit shelf.files "store" ["store"] := by
  intro names found
  rcases dirs_of_shelf found with rfl | rfl <;> decide +kernel

theorem listing_is_exact_shelf :
    shelf.files.Sound ∧ shelf.files.resolve "store" = .ok (["store"], .dir) ∧
      ∃ keys w', (listKeysIn (fun _ entries => entries.reverse) "store" "d/").run shelf =
        (.ok keys, w') ∧ w'.files = shelf.files ∧ Listed shelf.files ["store"] "d/" keys := by
  have exact := listing_is_exact shelf_sound shelf_rooted
    (fun _ entries => List.reverse_perm entries) "d/"
  exact ⟨shelf_sound, shelf_rooted, exact.2.1 shelf_allFit⟩

example : ((listKeys "store" "d/").run shelf).1 = .ok ["d/x"] := by decide +kernel

/-! ## A root that is too long to list -/

/-- A path with so many `./` in front. -/
def dotted : Nat → String → String
  | 0, p => p
  | n + 1, p => "./" ++ dotted n p

theorem utf8ByteSize_dotted (n : Nat) (p : String) :
    (dotted n p).utf8ByteSize = 2 * n + p.utf8ByteSize := by
  induction n with
  | zero => rw [dotted, Nat.mul_zero, Nat.zero_add]
  | succ n ih =>
    rw [dotted, String.utf8ByteSize_append, ih, show "./".utf8ByteSize = 2 from rfl]
    omega

/-- A path without a root leads where it leads after `./`, if that does not make it too long. -/
theorem reach_here {p : String} (relative : Path.isAbsolute p = false) (given : Path.walk p ≠ [])
    (short : ("./" ++ p).utf8ByteSize ≤ longestPath) : fs.reach ("./" ++ p) = fs.reach p := by
  obtain ⟨first, rest, walked⟩ := List.exists_cons_of_ne_nil given
  have given' : p ≠ "" := by
    rintro rfl
    exact given rfl
  have walked' : Path.walk ("./" ++ p) = "." :: first :: rest := by
    rw [← walked]
    exact Path.walk_slash "." p
  have starts : fs.start ("./" ++ p) = fs.start p := by
    rw [start, start, relative, Path.isAbsolute_append (by decide)]
    rfl
  have ends : Path.endsWithSlash ("./" ++ p) = Path.endsWithSlash p := by
    have chars : p.toList ≠ [] := fun nothing => given' (String.toList_eq_nil_iff.mp nothing)
    rw [Path.endsWithSlash, Path.endsWithSlash, String.toList_append, List.getLast?_append,
      List.getLast?_eq_some_getLast chars, Option.some_or]
  by_cases nul : '\x00' ∈ p.toList
  · simp [reach, nul]
  · have short' : p.utf8ByteSize ≤ longestPath := by
      rw [String.utf8ByteSize_append] at short
      omega
    rw [reach_eq (by simpa using nul) (by simp), reach_eq nul given',
      if_neg (Nat.not_lt.mpr short), if_neg (Nat.not_lt.mpr short'), starts, ends, walked, walked',
      follow, enter, if_pos rfl]
    rfl

theorem resolve_dotted (fs : FileSystem) {p : String} {n : Nat}
    (relative : Path.isAbsolute p = false) (given : Path.walk p ≠ [])
    (short : (dotted n p).utf8ByteSize ≤ longestPath) :
    Path.isAbsolute (dotted n p) = false ∧ Path.walk (dotted n p) ≠ [] ∧
      fs.resolve (dotted n p) = fs.resolve p := by
  induction n with
  | zero => exact ⟨relative, given, rfl⟩
  | succ n ih =>
    rw [utf8ByteSize_dotted] at short
    obtain ⟨relative', given', same⟩ := ih (by rw [utf8ByteSize_dotted]; omega)
    have reached : fs.reach ("./" ++ dotted n p) = fs.reach (dotted n p) :=
      reach_here relative' given' (by
        rw [String.utf8ByteSize_append, utf8ByteSize_dotted, show "./".utf8ByteSize = 2 from rfl]
        omega)
    have walked : Path.walk (dotted (n + 1) p) = Path.walk "." ++ Path.walk (dotted n p) :=
      Path.walk_slash "." _
    refine ⟨?_, ?_, ?_⟩
    · rw [dotted, Path.isAbsolute_append (by decide)]
      rfl
    · rw [walked]
      exact List.append_ne_nil_of_right_ne_nil _ given'
    · rw [dotted, resolve, reached, ← same, resolve]

theorem utf8ByteSize_join {p q : String} (given : p ≠ "") (relative : Path.isAbsolute q = false) :
    p.utf8ByteSize + q.utf8ByteSize ≤ (Path.join p q).utf8ByteSize ∧
      (Path.join p q).utf8ByteSize ≤ p.utf8ByteSize + 1 + q.utf8ByteSize := by
  have slash : "/".utf8ByteSize = 1 := rfl
  rcases Path.join_cases p relative with ⟨nothing, _⟩ | ⟨front, rfl, joined⟩ | ⟨_, joined⟩
  · exact absurd nothing given
  all_goals
    simp only [joined, String.utf8ByteSize_append, slash]
    omega

/-- The path of the store with so many `./` in front. -/
def farStore (n : Nat) : String := dotted n "store"

theorem utf8ByteSize_farStore (n : Nat) : (farStore n).utf8ByteSize = 2 * n + 5 :=
  utf8ByteSize_dotted n "store"

theorem farStore_rooted {n : Nat} (short : n ≤ 2045) :
    shelf.files.resolve (farStore n) = .ok (["store"], .dir) := by
  obtain ⟨_, _, same⟩ := resolve_dotted shelf.files (p := "store") (n := n) (by decide +kernel)
    (by decide +kernel) (by
      rw [utf8ByteSize_dotted, show "store".utf8ByteSize = 5 from rfl, longestPath]
      omega)
  rw [farStore, same]
  decide +kernel

/-- The path of the directory in there. -/
theorem utf8ByteSize_folder (n : Nat) :
    2 * n + 6 ≤ (Path.descend (farStore n) ["d"]).utf8ByteSize ∧
      (Path.descend (farStore n) ["d"]).utf8ByteSize ≤ 2 * n + 7 := by
  have size := utf8ByteSize_farStore n
  have given : farStore n ≠ "" := by
    intro nothing
    rw [nothing] at size
    simp at size
  have sizes := utf8ByteSize_join given (q := "d") (by decide +kernel)
  rw [size, show "d".utf8ByteSize = 1 from rfl] at sizes
  exact sizes

/-- The path of the file in that is longer. -/
theorem utf8ByteSize_file (n : Nat) :
    2 * n + 8 ≤ (Path.descend (farStore n) ["d", "x"]).utf8ByteSize := by
  have above := (utf8ByteSize_folder n).1
  have folder : IsFileName "d" := by decide +kernel
  obtain ⟨given, noSlash⟩ := Path.join_fileName (p := farStore n) folder
  have joined : Path.descend (farStore n) ["d", "x"] =
      Path.descend (farStore n) ["d"] ++ "/" ++ "x" := by
    show Path.join (Path.join (farStore n) "d") "x" = _
    rw [Path.join, if_neg (by decide +kernel), if_neg (by simp [given, noSlash])]
    rfl
  rw [joined, String.utf8ByteSize_append, String.utf8ByteSize_append,
    show "/".utf8ByteSize = 1 from rfl, show "x".utf8ByteSize = 1 from rfl]
  omega

/-- A listing need not succeed, and where it does the size of what is listed need not be known. -/
theorem listing_is_not_exact :
    (¬ ∀ (order : Order) (root stem : String) (base : Place) (w : Workspace), w.files.Sound →
      w.files.resolve root = .ok (base, .dir) →
      (∀ folder entries, (order folder entries).Perm entries) →
      ∃ keys w', (listKeysIn order root stem).run w = (.ok keys, w') ∧
        Listed w.files base stem keys) ∧
    ¬ ∀ (order : Order) (root stem : String) (base : Place) (w : Workspace), w.files.Sound →
      w.files.resolve root = .ok (base, .dir) →
      (∀ folder entries, (order folder entries).Perm entries) →
      ∀ keys w', (listKeysIn order root stem).run w = (.ok keys, w') →
        ∀ key bytes, key ∈ keys → IsObject w.files base key bytes →
          ((objectSize root key).run w).1 = .ok bytes.length := by
  have yields (folder : String) (entries : List (String × Node)) : entries.Perm entries := .refl _
  constructor
  · intro all
    have rooted := farStore_rooted (n := 2045) (by omega)
    have long : ¬ AllFit shelf.files (farStore 2045) ["store"] := by
      intro fit
      have short := fit ["d"] (by decide +kernel)
      have size := utf8ByteSize_folder 2045
      rw [longestPath] at short
      omega
    obtain ⟨keys, w', ran, _⟩ :=
      all (fun _ entries => entries) (farStore 2045) "" ["store"] shelf shelf_sound rooted yields
    obtain ⟨_, _, _, _, failed⟩ :=
      listKeysIn_of_not_allFit shelf_sound rooted yields rfl long ""
    cases ran.symm.trans failed
  · intro all
    have rooted := farStore_rooted (n := 2044) (by omega)
    have fit : AllFit shelf.files (farStore 2044) ["store"] := by
      intro names found
      rcases dirs_of_shelf found with rfl | rfl
      · rw [Path.descend, List.foldl_nil, utf8ByteSize_farStore, longestPath]
        omega
      · have size := utf8ByteSize_folder 2044
        rw [longestPath]
        omega
    obtain ⟨keys, w', ran, _, listed⟩ := listKeysIn_of_allFit shelf_sound rooted yields rfl fit ""
    have object : IsObject shelf.files ["store"] (Path.joinSegments ["d", "x"]) [97, 98, 99] :=
      ⟨["d", "x"], List.cons_ne_nil _ _, by decide +kernel, rfl⟩
    have size := all (fun _ entries => entries) (farStore 2044) "" ["store"] shelf shelf_sound
      rooted yields keys w' ran _ _ ((listed.exact _).mpr ⟨by decide +kernel, _, object⟩) object
    have back : LeadsBack shelf (farStore 2044) ["store"] ["d", "x"] [97, 98, 99] :=
      leadsBack shelf_sound rooted (List.cons_ne_nil _ _) (by decide +kernel)
    have long := utf8ByteSize_file 2044
    cases size.symm.trans (back.tooLong (by rw [longestPath]; omega))

end CommandPool.Store
