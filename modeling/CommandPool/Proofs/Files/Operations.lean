import CommandPool.Proofs.Files.Following
import CommandPool.Proofs.Run

/-!
# What operations on files change

Making directories changes no file (`Grown`), and opening a file for writing and adding
to it changes that file alone (`Sets`).  Both lose no directory.  Each operation is
described once, by its answer and the change; an operation that fails in a file system
leaves it as it was or made directories.
-/

namespace CommandPool.Files.FileSystem

variable {α β : Type} {fs fs' fs'' : FileSystem} {p : String} {place : Place}

/-! ## Kinds of changes -/

/-- At most directories were made. -/
structure Grown (fs fs' : FileSystem) : Prop extends Stays fs fs' where
  files : ∀ place, fs'.fileAt? place = fs.fileAt? place

theorem Grown.refl (fs : FileSystem) : Grown fs fs := ⟨.refl fs, fun _ => rfl⟩

theorem Grown.trans (first : Grown fs fs') (second : Grown fs' fs'') : Grown fs fs'' :=
  ⟨first.toStays.trans second.toStays,
    fun place => (second.files place).trans (first.files place)⟩

/-- Where no directory was, a file with this content is now, or nothing if there is none.
Nothing else has changed. -/
structure Sets (fs fs' : FileSystem) (place : Place) (content : Option (List UInt8)) : Prop where
  home : fs'.home = fs.home
  before : fs.tree.find? place ≠ some .dir
  after : ∀ other, fs'.tree.find? other =
    if other = place then content.map .file else fs.tree.find? other

variable {bytes : List UInt8} {content new : Option (List UInt8)}

theorem Sets.stays (sets : Sets fs fs' place content) : Stays fs fs' := by
  refine ⟨sets.home, fun other found => ?_⟩
  rw [sets.after, if_neg]
  · exact found
  · rintro rfl
    exact sets.before found

theorem Sets.fileAt? (sets : Sets fs fs' place content) (other : Place) :
    fs'.fileAt? other = if other = place then content else fs.fileAt? other := by
  unfold FileSystem.fileAt?
  rw [sets.after]
  by_cases same : other = place
  · rw [if_pos same, if_pos same]
    cases content <;> rfl
  · rw [if_neg same, if_neg same]

theorem Sets.fileAt?_self (sets : Sets fs fs' place content) : fs'.fileAt? place = content := by
  rw [sets.fileAt?, if_pos rfl]

theorem Sets.trans (first : Sets fs fs' place content) (second : Sets fs' fs'' place new) :
    Sets fs fs'' place new := by
  refine ⟨second.home.trans first.home, first.before, fun other => ?_⟩
  rw [second.after]
  split
  next => rfl
  next different => rw [first.after, if_neg different]

/-- Putting a file at a place below the root, where no directory is. -/
theorem sets_put (below : place ≠ []) (before : fs.tree.find? place ≠ some .dir)
    (bytes : List UInt8) :
    Sets fs { fs with tree := fs.tree.put place (.file bytes) } place (some bytes) := by
  refine ⟨rfl, before, fun other => ?_⟩
  rw [Tree.find?_put]
  by_cases same : other = place
  · rw [if_pos ⟨same, below⟩, if_pos same]
    rfl
  · rw [if_neg fun both => same both.1, if_neg same]

/-- Removing a file, whatever is held open then. -/
theorem sets_erase (below : place ≠ []) (before : fs.tree.find? place ≠ some .dir)
    (held : Option Held) :
    Sets fs { fs with tree := fs.tree.erase place, held := held } place none := by
  refine ⟨rfl, before, fun other => ?_⟩
  rw [Tree.find?_erase]
  by_cases same : other = place
  · rw [if_pos ⟨same, below⟩, if_pos same]
    rfl
  · rw [if_neg fun both => same both.1, if_neg same]

/-! ## Questions -/

theorem run_ask (question : FileSystem → Except Fault α) (fs : FileSystem) :
    (ask question).run fs = (question fs, fs) := by
  rw [ask, run_bind_ok (run_get fs)]
  cases question fs <;> rfl

theorem run_ask_ok {question : FileSystem → Except Fault α} {a : α} (answer : question fs = .ok a)
    (f : α → Act β) : (ask question >>= f).run fs = (f a).run fs := by
  rw [run_bind, run_ask, answer]

theorem run_ask_error {question : FileSystem → Except Fault α} {e : Fault}
    (answer : question fs = .error e) (f : α → Act β) :
    (ask question >>= f).run fs = (.error e, fs) := by
  rw [run_bind, run_ask, answer]

theorem run_openRead_ok {node : Node} (resolved : fs.resolve p = .ok (place, node)) :
    (openRead p).run fs = (.ok place, fs) := by
  rw [openRead, run_ask_ok resolved]
  rfl

theorem run_openRead_error {e : Fault} (failed : fs.resolve p = .error e) :
    (openRead p).run fs = (.error e, fs) := by
  rw [openRead, run_ask_error failed]

/-- What is opened for reading is where the path leads. -/
theorem resolve_of_openRead (opened : (openRead p).run fs = (.ok place, fs')) :
    ∃ node, fs.resolve p = .ok (place, node) ∧ fs' = fs := by
  cases resolved : fs.resolve p with
  | error e =>
    rw [run_openRead_error resolved] at opened
    cases opened
  | ok reached =>
    obtain ⟨other, node⟩ := reached
    rw [run_openRead_ok resolved] at opened
    cases opened
    exact ⟨node, rfl, rfl⟩

theorem run_readAt (place : Place) (offset count : Nat) (fs : FileSystem) :
    (readAt place offset count).run fs =
      (match fs.fileAt? place with
        | some bytes => .ok ((bytes.drop offset).take count)
        | none => .error .isDirectory, fs) := by
  rw [readAt, run_bind_ok (run_get fs)]
  unfold fileAt?
  rcases fs.tree.find? place with _ | (bytes | _) <;> rfl

theorem run_readAll (place : Place) (fs : FileSystem) :
    (readAll place).run fs =
      (match fs.fileAt? place with
        | some bytes => .ok bytes
        | none => .error .isDirectory, fs) := by
  rw [readAll, run_bind_ok (run_get fs)]
  unfold fileAt?
  rcases fs.tree.find? place with _ | (bytes | _) <;> rfl

/-! ## Writing -/

/-- The node of a name that is not too long. -/
theorem lookup_ok {t : Tree} {dir : Place} {name : String}
    (short : ¬ name.utf8ByteSize > longestName) :
    lookup t dir name = .ok (t.find? (dir ++ [name])) := if_neg short

/-- Opening for writing fails, or makes an empty file at the place that the path names. -/
theorem create_cases (p : String) (fs : FileSystem) :
    (∃ f, (create p).run fs = (.error f, fs)) ∨
      ∃ place, Names fs p place ∧ fs.tree.find? place ≠ some .dir ∧
        (create p).run fs =
          (.ok place, { fs with tree := fs.tree.put place (.file []) }) := by
  rw [create]
  cases reached : fs.reach p with
  | error f => exact Or.inl ⟨f, run_ask_error reached _⟩
  | ok r =>
    rw [run_ask_ok reached]
    cases ending : r.ending with
    | dots => exact Or.inl ⟨_, rfl⟩
    | name name =>
      simp only
      by_cases slash : r.slash = true
      · rw [if_pos slash]
        exact Or.inl ⟨_, rfl⟩
      · rw [if_neg slash]
        by_cases long : name.utf8ByteSize > longestName
        · exact Or.inl ⟨_, run_ask_error (if_pos long) _⟩
        · rw [run_ask_ok (lookup_ok long)]
          have names : Names fs p (r.dir ++ [name]) :=
            ⟨r, name, reached, ending, by simpa using slash, long, rfl⟩
          cases found : fs.tree.find? (r.dir ++ [name]) with
          | none => exact Or.inr ⟨_, names, by simp [found], rfl⟩
          | some node =>
            cases node with
            | dir => exact Or.inl ⟨_, rfl⟩
            | file bytes => exact Or.inr ⟨_, names, by simp [found], rfl⟩

/-- What becomes of a file that is opened for writing. -/
theorem create_eq (created : (create p).run fs = (.ok place, fs')) :
    Names fs p place ∧ fs.tree.find? place ≠ some .dir ∧
      fs' = { fs with tree := fs.tree.put place (.file []) } := by
  rcases create_cases p fs with ⟨f, failed⟩ | ⟨other, names, before, ran⟩
  · rw [failed] at created
    cases created
  · rw [ran] at created
    cases created
    exact ⟨names, before, rfl⟩

theorem create_sets (created : (create p).run fs = (.ok place, fs')) :
    Names fs p place ∧ Sets fs fs' place (some []) := by
  obtain ⟨names, before, rfl⟩ := create_eq created
  exact ⟨names, sets_put names.below before []⟩

theorem create_failed {f : Fault} (failed : (create p).run fs = (.error f, fs')) : fs' = fs := by
  rcases create_cases p fs with ⟨g, ran⟩ | ⟨_, _, _, ran⟩
  · rw [ran] at failed
    cases failed
    rfl
  · rw [ran] at failed
    cases failed

theorem run_append_eq (found : fs.fileAt? place = some bytes) (new : List UInt8) :
    (append place new).run fs =
      (.ok (), { fs with tree := fs.tree.put place (.file (bytes ++ new)) }) := by
  rw [fileAt?_eq_some_iff] at found
  rw [append, run_bind_ok (run_get fs)]
  simp only [found]
  rfl

theorem below_of_fileAt? (found : fs.fileAt? place = some bytes) : place ≠ [] := by
  rintro rfl
  cases fileAt?_eq_some_iff.mp found

/-- Bytes are added to an open file. -/
theorem run_append (found : fs.fileAt? place = some bytes) (new : List UInt8) :
    ∃ fs', (append place new).run fs = (.ok (), fs') ∧ Sets fs fs' place (some (bytes ++ new)) :=
  ⟨_, run_append_eq found new, sets_put (below_of_fileAt? found)
    (by simp [fileAt?_eq_some_iff.mp found]) _⟩

/-- To what is no file nothing is added. -/
theorem run_append_of_none (missing : fs.fileAt? place = none) (new : List UInt8) :
    (append place new).run fs = (.error .isDirectory, fs) := by
  rw [append, run_bind_ok (run_get fs)]
  split
  next old found =>
    rw [fileAt?, found] at missing
    cases missing
  next => rfl

/-- Copying fails and changes nothing, or it opens both files and writes to the target what
can be read of the source by then. -/
theorem run_copy_cases (source target : String) (fs : FileSystem) :
    (∃ f, (copy source target).run fs = (.error f, fs) ∧
      ∀ opened bytes, fs.resolve source = .ok (opened, .file bytes) →
        ∀ fs₁ place, (create target).run fs ≠ (.ok place, fs₁)) ∨
    ∃ opened bytes fs₁ place found fs₂, fs.resolve source = .ok (opened, .file bytes) ∧
      (create target).run fs = (.ok place, fs₁) ∧ fs₁.fileAt? opened = some found ∧
      Sets fs fs₂ place (some found) ∧ (copy source target).run fs = (.ok found.length, fs₂) := by
  rw [copy]
  cases resolved : fs.resolve source with
  | error f => exact Or.inl ⟨f, run_ask_error resolved _, nofun⟩
  | ok reached =>
    obtain ⟨opened, node⟩ := reached
    rw [run_ask_ok resolved]
    cases node with
    | dir => exact Or.inl ⟨_, rfl, nofun⟩
    | file bytes =>
      simp only
      rcases created : (create target).run fs with ⟨f | place, fs₁⟩
      · obtain rfl := create_failed created
        refine Or.inl ⟨f, run_bind_error created _, fun _ _ _ fs₁ place => ?_⟩
        nofun
      · obtain ⟨names, emptied⟩ := create_sets created
        have before := (resolve_file_iff.mp resolved).2
        have still : ∃ found, fs₁.fileAt? opened = some found := by
          rw [emptied.fileAt?]
          split
          next => exact ⟨[], rfl⟩
          next => exact ⟨bytes, before⟩
        obtain ⟨found, at_opened⟩ := still
        obtain ⟨fs₂, appended, writes⟩ := run_append emptied.fileAt?_self found
        have read : (readAll opened).run fs₁ = (.ok found, fs₁) := by
          rw [run_readAll, at_opened]
        refine Or.inr ⟨opened, bytes, fs₁, place, found, fs₂, rfl, rfl, at_opened,
          emptied.trans writes, ?_⟩
        rw [run_bind_ok created, run_bind_ok read, run_bind_ok appended]
        rfl

/-! ## Removing -/

/-- The file that a path leads to is removed. -/
theorem run_removeFile (names : Names fs p place) (found : fs.fileAt? place = some bytes) :
    ∃ fs', (removeFile p).run fs = (.ok (), fs') ∧ Sets fs fs' place none := by
  have at_place := fileAt?_eq_some_iff.mp found
  have below := names.below
  obtain ⟨r, name, reached, ending, slash, short, rfl⟩ := names.ends
  have ran : (removeFile p).run fs = (.ok (), { fs with
      tree := fs.tree.erase (r.dir ++ [name]),
      held := fs.held.map (Held.afterRemoval (r.dir ++ [name]) bytes) }) := by
    rw [removeFile, run_ask_ok reached]
    simp only [ending]
    rw [run_ask_ok (lookup_ok short)]
    simp only [at_place, slash]
    rfl
  exact ⟨_, ran, sets_erase below (by simp [at_place]) _⟩

/-! ## Making directories -/

section Several

variable {R : FileSystem → FileSystem → Prop} {P : String → Prop} {q : String}

/-- Making a directory, or taking one for made, changes the files as making it does. -/
theorem ensureDir_respects (refl : ∀ fs, R fs fs) (trans : ∀ {a b c}, R a b → R b c → R a c)
    (each : ∀ fs, R fs ((createDir q).run fs).2) (fs : FileSystem) :
    R fs ((ensureDir q).run fs).2 := by
  refine tryCatch_respects (R := R) trans (each fs) fun f fs' _ => ?_
  rw [run_bind_ok (run_get fs')]
  split
  next => exact refl fs'
  next => exact refl fs'

/-- What making a single directory respects, making all that are missing does.  `P` is a property
of the paths: what is directly above such a path has it too. -/
theorem createDirs_respects (refl : ∀ fs, R fs fs) (trans : ∀ {a b c}, R a b → R b c → R a c)
    (up : ∀ {q above}, P q → Path.parent? q = some above → P above)
    (each : ∀ {q}, P q → ∀ fs, R fs ((createDir q).run fs).2) (depth : Nat) (holds : P q)
    (fs : FileSystem) : R fs ((createDirs depth q).run fs).2 := by
  induction depth generalizing q fs with
  | zero =>
    unfold createDirs
    split
    next => exact refl fs
    next => exact ensureDir_respects refl trans (each holds) fs
  | succ depth ih =>
    unfold createDirs
    split
    next => exact refl fs
    next =>
      refine tryCatch_respects (R := R) trans (ensureDir_respects refl trans (each holds) fs)
        fun f fs' _ => ?_
      split
      next => exact refl fs'
      next =>
        split
        next => exact refl fs'
        next above parent =>
          exact bind_respects (R := R) trans (ih (up holds parent) fs')
            fun _ fs'' _ => ensureDir_respects refl trans (each holds) fs''

end Several

/-- At most directories are made, whatever the answer. -/
def Grows (act : Act α) : Prop := ∀ fs, Grown fs (act.run fs).2

theorem grows_pure (a : α) : Grows (pure a) := Grown.refl

/-- A directory where nothing was. -/
theorem grown_put (absent : fs.tree.find? place = none) :
    Grown fs { fs with tree := fs.tree.put place .dir } := by
  refine ⟨⟨rfl, fun other found => ?_⟩, fun other => ?_⟩
  · rw [Tree.find?_put]
    split
    next => rfl
    next => exact found
  · unfold FileSystem.fileAt?
    simp only [Tree.find?_put]
    by_cases same : other = place ∧ place ≠ []
    · rw [if_pos same, same.1, absent]
    · rw [if_neg same]

theorem grows_createDir (p : String) : Grows (createDir p) := by
  intro fs
  rw [createDir]
  cases reached : fs.reach p with
  | error f => rw [run_ask_error reached]; exact .refl fs
  | ok r =>
    rw [run_ask_ok reached]
    cases ending : r.ending with
    | dots => exact .refl fs
    | name name =>
      simp only
      by_cases long : name.utf8ByteSize > longestName
      · rw [run_ask_error (if_pos long)]
        exact .refl fs
      · rw [run_ask_ok (lookup_ok long)]
        cases found : fs.tree.find? (r.dir ++ [name]) with
        | none => exact grown_put found
        | some node => exact .refl fs

theorem grows_createDirAll (p : String) : Grows (createDirAll p) :=
  createDirs_respects (P := fun _ => True) Grown.refl Grown.trans (fun _ _ => trivial)
    (fun _ => grows_createDir _) p.length trivial

end CommandPool.Files.FileSystem
