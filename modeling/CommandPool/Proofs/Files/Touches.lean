import CommandPool.Proofs.Files.Operations
import CommandPool.Proofs.Files.Travels

/-!
# What an operation leaves alone

An operation for the sake of a path touches the place that the path names, and makes
directories that the path lies below.  Everything else stays as it is (`Touches`).  Where the
path leads is read off the files afterwards, since it may lead through the new directories.
As no directory is lost, it leads there ever after, so what several operations touch for the
same path is again of this kind.
-/

namespace CommandPool.Files.FileSystem

variable {α β : Type} {fs fs' fs'' : FileSystem} {path : Option String} {p q : String}
  {place : Place} {bytes : List UInt8}

/-- A directory was made where nothing was, and the path lies below it. -/
structure Makes (fs fs' : FileSystem) (p : String) (place : Place) : Prop where
  before : fs.tree.find? place = none
  after : fs'.tree.find? place = some .dir
  above : ∃ above, Path.LiesBelow p above ∧ Ends fs' above place

/-- Only the file that the path names was changed, and directories were made that the path lies
below.  If there is no path, nothing was changed. -/
structure Touches (path : Option String) (fs fs' : FileSystem) : Prop extends Stays fs fs' where
  only : ∀ place, fs'.tree.find? place = fs.tree.find? place ∨
    ∃ p, path = some p ∧ (Names fs' p place ∨ Makes fs fs' p place)

theorem Touches.refl (path : Option String) (fs : FileSystem) : Touches path fs fs :=
  ⟨.refl fs, fun _ => Or.inl rfl⟩

theorem Touches.of_eq (same : fs' = fs) : Touches path fs fs' := same ▸ .refl path fs

theorem Makes.of_stays (makes : Makes fs fs' p place) (stays : Stays fs' fs'') :
    Makes fs fs'' p place := by
  obtain ⟨before, after, above, below, ends⟩ := makes
  exact ⟨before, stays.dirs place after, above, below, ends.of_stays stays⟩

theorem Touches.trans (first : Touches path fs fs') (second : Touches path fs' fs'') :
    Touches path fs fs'' := by
  refine ⟨first.toStays.trans second.toStays, fun place => ?_⟩
  rcases first.only place with same | ⟨p, at_path, touched⟩
  · rcases second.only place with same' | ⟨p, at_path, names | makes⟩
    · exact Or.inl (same'.trans same)
    · exact Or.inr ⟨p, at_path, Or.inl names⟩
    · exact Or.inr ⟨p, at_path, Or.inr ⟨same ▸ makes.before, makes.after, makes.above⟩⟩
  · exact Or.inr ⟨p, at_path,
      touched.imp (·.of_stays second.toStays) (·.of_stays second.toStays)⟩

/-- The file that a path names is written or removed. -/
theorem Sets.touches {content : Option (List UInt8)} (sets : Sets fs fs' place content)
    (names : Names fs p place) : Touches (some p) fs fs' := by
  refine ⟨sets.stays, fun other => ?_⟩
  by_cases same : other = place
  · exact Or.inr ⟨p, rfl, Or.inl (same ▸ names.of_stays sets.stays)⟩
  · refine Or.inl ?_
    rw [sets.after, if_neg same]

/-! ## Programs -/

theorem Touches.bind {act : Act α} {f : α → Act β} (first : Touches path fs (act.run fs).2)
    (rest : ∀ a fs', act.run fs = (.ok a, fs') → Touches path fs' ((f a).run fs').2) :
    Touches path fs ((act >>= f).run fs).2 :=
  bind_respects (R := Touches path) Touches.trans first rest

/-- A question touches nothing. -/
theorem touches_ask (question : FileSystem → Except Fault α) (fs : FileSystem) :
    Touches path fs ((ask question).run fs).2 := by
  rw [run_ask]
  exact .refl path fs

/-! ## Making directories -/

/-- A directory is made for a path that lies below it. -/
theorem touches_createDir (below : Path.LiesBelow p q) (fs : FileSystem) :
    Touches (some p) fs ((createDir q).run fs).2 := by
  rw [createDir]
  cases reached : fs.reach q with
  | error f => rw [run_ask_error reached]; exact .refl _ fs
  | ok r =>
    rw [run_ask_ok reached]
    cases ending : r.ending with
    | dots => exact .refl _ fs
    | name name =>
      simp only
      by_cases long : name.utf8ByteSize > longestName
      · rw [run_ask_error (if_pos long)]
        exact .refl _ fs
      · rw [run_ask_ok (lookup_ok long)]
        cases found : fs.tree.find? (r.dir ++ [name]) with
        | some node => exact .refl _ fs
        | none =>
          have grown := grown_put found
          have ends : Ends fs q (r.dir ++ [name]) := ⟨r, name, reached, ending, long, rfl⟩
          refine ⟨grown.toStays, fun other => ?_⟩
          by_cases same : other = r.dir ++ [name]
          · subst same
            refine Or.inr ⟨p, rfl, Or.inr ⟨found, ?_, q, below, ends.of_stays grown.toStays⟩⟩
            exact (Tree.find?_put ..).trans (if_pos ⟨rfl, by simp⟩)
          · exact Or.inl ((Tree.find?_put ..).trans (if_neg fun both => same both.1))

theorem touches_createDirAll (below : Path.LiesBelow p q) (fs : FileSystem) :
    Touches (some p) fs ((createDirAll q).run fs).2 :=
  createDirs_respects (R := Touches (some p)) (.refl _) Touches.trans .further touches_createDir
    q.length below fs

/-! ## Files -/

theorem touches_create (p : String) (fs : FileSystem) :
    Touches (some p) fs ((create p).run fs).2 := by
  rcases created : (create p).run fs with ⟨e | place, fs'⟩
  · exact .of_eq (create_failed created)
  · obtain ⟨names, sets⟩ := create_sets created
    exact sets.touches names

/-- What is opened for writing is named from then on. -/
theorem names_of_create (created : (create p).run fs = (.ok place, fs')) : Names fs' p place := by
  obtain ⟨names, sets⟩ := create_sets created
  exact names.of_stays sets.stays

theorem touches_append (names : Names fs p place) (new : List UInt8) :
    Touches (some p) fs ((append place new).run fs).2 := by
  cases found : fs.fileAt? place with
  | some bytes =>
    obtain ⟨fs', ran, sets⟩ := run_append found new
    rw [ran]
    exact sets.touches names
  | none => exact .of_eq (by rw [run_append_of_none found])

theorem run_readAt_snd (place : Place) (offset count : Nat) (fs : FileSystem) :
    ((readAt place offset count).run fs).2 = fs := by
  rw [run_readAt]

theorem run_readAll_snd (place : Place) (fs : FileSystem) : ((readAll place).run fs).2 = fs := by
  rw [run_readAll]

theorem touches_copy (source target : String) (fs : FileSystem) :
    Touches (some target) fs ((copy source target).run fs).2 := by
  refine (touches_ask _ fs).bind fun ⟨opened, node⟩ fs' _ => ?_
  cases node with
  | dir => exact .refl _ fs'
  | file bytes =>
    refine (touches_create target fs').bind fun place fs₁ created => ?_
    have names := names_of_create created
    refine Touches.bind (.of_eq (run_readAll_snd opened fs₁)) fun read fs₂ ran => ?_
    obtain rfl : fs₂ = fs₁ := (congrArg Prod.snd ran).symm.trans (run_readAll_snd opened fs₁)
    exact (touches_append names read).bind fun _ fs₃ _ => .refl _ fs₃

/-- Removing changes nothing, or it succeeds and the file that the path names is gone. -/
theorem removeFile_cases (p : String) (fs : FileSystem) :
    ((removeFile p).run fs).2 = fs ∨ ∃ place fs', Names fs p place ∧
      (removeFile p).run fs = (.ok (), fs') ∧ Sets fs fs' place none := by
  by_cases file : ∃ place bytes, Names fs p place ∧ fs.fileAt? place = some bytes
  · obtain ⟨place, bytes, names, found⟩ := file
    obtain ⟨fs', ran, sets⟩ := run_removeFile names found
    exact Or.inr ⟨place, fs', names, ran, sets⟩
  · refine Or.inl ?_
    rw [removeFile]
    cases reached : fs.reach p with
    | error e => rw [run_ask_error reached]
    | ok r =>
      rw [run_ask_ok reached]
      cases ending : r.ending with
      | dots => rfl
      | name name =>
        simp only
        by_cases long : name.utf8ByteSize > longestName
        · rw [run_ask_error (if_pos long)]
        · rw [run_ask_ok (lookup_ok long)]
          rcases found : fs.tree.find? (r.dir ++ [name]) with _ | (bytes | _)
          · rfl
          · by_cases slash : r.slash = true
            · simp only [if_pos slash]
              rfl
            · refine absurd ⟨_, bytes, ⟨r, name, reached, ending, ?_, long, rfl⟩, ?_⟩ file
              · simpa using slash
              · exact fileAt?_eq_some_iff.mpr found
          · rfl

theorem touches_removeFile (p : String) (fs : FileSystem) :
    Touches (some p) fs ((removeFile p).run fs).2 := by
  rcases removeFile_cases p fs with kept | ⟨place, fs', names, ran, sets⟩
  · exact .of_eq kept
  · rw [ran]
    exact sets.touches names

end CommandPool.Files.FileSystem
