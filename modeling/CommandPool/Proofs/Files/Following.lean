import CommandPool.Proofs.Files.Nodes

/-!
# What a path leads to

Following a path looks at directories only.  So a path that leads somewhere leads there
as long as no directory is lost, whatever becomes of the files.
-/

namespace CommandPool.Files.FileSystem

variable {fs fs' fs'' : FileSystem} {p : String} {place : Place}

/-! ## Files by place -/

/-- The bytes of the file at a place, if a file is there. -/
def fileAt? (fs : FileSystem) (place : Place) : Option (List UInt8) :=
  match fs.tree.find? place with
  | some (.file bytes) => some bytes
  | _ => none

theorem fileAt?_eq_some_iff {bytes : List UInt8} :
    fs.fileAt? place = some bytes ↔ fs.tree.find? place = some (.file bytes) := by
  unfold fileAt?
  split
  next found => simp [found]
  next other =>
    constructor
    · nofun
    · intro found
      exact absurd found (other bytes)

/-! ## Changes that lose no directory -/

/-- Every directory stays where it is. -/
structure Stays (fs fs' : FileSystem) : Prop where
  home : fs'.home = fs.home
  dirs : ∀ place, fs.tree.find? place = some .dir → fs'.tree.find? place = some .dir

theorem Stays.refl (fs : FileSystem) : Stays fs fs := ⟨rfl, fun _ found => found⟩

theorem Stays.trans (first : Stays fs fs') (second : Stays fs' fs'') : Stays fs fs'' :=
  ⟨second.home.trans first.home, fun place found => second.dirs place (first.dirs place found)⟩

/-! ## Following -/

theorem enter_of_stays (stays : Stays fs fs') {dir next : Place} {segment : String}
    (entered : enter fs.tree dir segment = .ok next) : enter fs'.tree dir segment = .ok next := by
  unfold enter at entered ⊢
  split at entered
  next here =>
    rw [if_pos here]
    exact entered
  next other =>
    rw [if_neg other]
    split at entered
    next up =>
      rw [if_pos up]
      exact entered
    next named =>
      rw [if_neg named]
      unfold lookup at entered ⊢
      split at entered
      next => cases entered
      next short =>
        rw [if_neg short]
        cases found : fs.tree.find? (dir ++ [segment]) with
        | none =>
          rw [found] at entered
          cases entered
        | some node =>
          rw [found] at entered
          cases node with
          | file bytes => cases entered
          | dir =>
            rw [stays.dirs _ found]
            exact entered

theorem follow_of_stays (stays : Stays fs fs') {slash : Bool} {r : Reached} :
    ∀ {segments : List String} {dir : Place}, follow fs.tree dir slash segments = .ok r →
      follow fs'.tree dir slash segments = .ok r := by
  intro segments
  induction segments with
  | nil => exact fun followed => followed
  | cons segment rest ih =>
    intro dir followed
    cases rest with
    | nil => exact followed
    | cons next rest =>
      unfold follow at followed ⊢
      cases entered : enter fs.tree dir segment with
      | error f =>
        rw [entered] at followed
        cases followed
      | ok inside =>
        rw [entered] at followed
        rw [enter_of_stays stays entered]
        exact ih followed

theorem reach_of_stays (stays : Stays fs fs') {r : Reached} (reached : fs.reach p = .ok r) :
    fs'.reach p = .ok r := by
  unfold reach at reached ⊢
  rw [stays.home]
  split at reached
  next => cases reached
  next clean =>
    rw [if_neg clean]
    split at reached
    next => cases reached
    next given =>
      rw [if_neg given]
      split at reached
      next => cases reached
      next short =>
        rw [if_neg short]
        exact follow_of_stays stays reached

/-! ## Files by path -/

/-- A path ends with this name in this directory, and asks for no directory. -/
structure Names (fs : FileSystem) (p : String) (place : Place) : Prop where
  ends : ∃ r name, fs.reach p = .ok r ∧ r.ending = .name name ∧ r.slash = false ∧
    ¬ name.utf8ByteSize > longestName ∧ place = r.dir ++ [name]

theorem Names.below (names : Names fs p place) : place ≠ [] := by
  obtain ⟨r, name, _, _, _, _, rfl⟩ := names.ends
  simp

theorem Names.of_stays (names : Names fs p place) (stays : Stays fs fs') : Names fs' p place := by
  obtain ⟨r, name, reached, rest⟩ := names.ends
  exact ⟨r, name, reach_of_stays stays reached, rest⟩

theorem Names.unique {other : Place} (names : Names fs p place) (others : Names fs p other) :
    place = other := by
  obtain ⟨r, name, reached, ending, _, _, rfl⟩ := names.ends
  obtain ⟨r', name', reached', ending', _, _, rfl⟩ := others.ends
  rw [reached] at reached'
  cases reached'
  rw [ending] at ending'
  cases ending'
  rfl

/-- What a path that ends with a name leads to. -/
theorem resolve_of_name {r : Reached} {name : String} (reached : fs.reach p = .ok r)
    (ending : r.ending = .name name) :
    fs.resolve p =
      if name.utf8ByteSize > longestName then .error .nameTooLong
      else match fs.tree.find? (r.dir ++ [name]) with
        | none => .error .notFound
        | some .dir => .ok (r.dir ++ [name], .dir)
        | some (.file bytes) =>
          if r.slash then .error .notDirectory else .ok (r.dir ++ [name], .file bytes) := by
  by_cases long : name.utf8ByteSize > longestName
  · simp only [resolve, reached, ending, lookup, bind, Except.bind, if_pos long]
  · rcases found : fs.tree.find? (r.dir ++ [name]) with _ | (bytes | _)
    all_goals simp only [resolve, reached, ending, lookup, bind, Except.bind, if_neg long, found]

/-- What a path leads to that ends with the root or dots. -/
theorem resolve_of_dots {r : Reached} (reached : fs.reach p = .ok r) (ending : r.ending = .dots) :
    fs.resolve p = .ok (r.dir, .dir) := by
  simp only [resolve, reached, ending, bind, Except.bind]

theorem resolve_of_error {f : Fault} (failed : fs.reach p = .error f) :
    fs.resolve p = .error f := by
  simp only [resolve, failed, bind, Except.bind]

/-- A path leads to a file if it names the place of one. -/
theorem resolve_file_iff {bytes : List UInt8} :
    fs.resolve p = .ok (place, .file bytes) ↔
      Names fs p place ∧ fs.fileAt? place = some bytes := by
  rw [fileAt?_eq_some_iff]
  constructor
  · intro resolved
    cases reached : fs.reach p with
    | error f => rw [resolve_of_error reached] at resolved; cases resolved
    | ok r =>
      cases ending : r.ending with
      | dots => rw [resolve_of_dots reached ending] at resolved; cases resolved
      | name name =>
        rw [resolve_of_name reached ending] at resolved
        split at resolved
        next => cases resolved
        next short =>
          split at resolved
          next => cases resolved
          next => cases resolved
          next old found =>
            split at resolved
            next => cases resolved
            next noSlash =>
              cases resolved
              exact ⟨⟨r, name, reached, ending, by simpa using noSlash, short, rfl⟩, found⟩
  · rintro ⟨⟨r, name, reached, ending, slash, short, rfl⟩, found⟩
    rw [resolve_of_name reached ending, if_neg short, found]
    simp [slash]

end CommandPool.Files.FileSystem
