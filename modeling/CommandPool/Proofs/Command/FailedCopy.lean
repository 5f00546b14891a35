import CommandPool.Proofs.Command.Copies

/-!
# What a failed copy leaves

A copy that fails before its target is opened makes directories at most.  Within the
store nothing can fail later, since only a file is copied there.  An upload or a download
also opens a source that is a directory, and finds out that it cannot be read when the
target is open and empty.  That is the one way in which a failed copy changes a file.
-/

namespace CommandPool.Command

open Store (Operand Workspace Lands Opens TransferEnd)
open Files (FileSystem)
open Files.FileSystem

variable {text root : String} {source target : Operand} {settings : Settings}
  {pace : Nat → Nat} {w w' : Workspace} {fs : FileSystem}

/-- One operand is local and the other in the store.  The source leads to a place without
a file, and the target can be opened, at a place without an empty file. -/
def Clobbers (root : String) (fs : FileSystem) (source target : Operand) : Prop :=
  source.isObject ≠ target.isObject ∧
    ∃ path opened node fs₁ fs₂ place, source.path? root = some path ∧
      fs.resolve path = .ok (opened, node) ∧ fs.fileAt? opened = none ∧
      Lands root fs target fs₁ fs₂ place ∧ fs.fileAt? place ≠ some []

/-- Operands of different kinds are opened from the start. -/
theorem opens_iff_of_kinds {fs₁ : FileSystem} {opened : Files.Place}
    (kinds : source.isObject ≠ target.isObject) :
    Opens root fs fs₁ source target opened ↔
      ∃ path, source.path? root = some path ∧ ∃ node, fs.resolve path = .ok (opened, node) := by
  have mixed : (source.isObject && target.isObject) = false := by
    cases s : source.isObject <;> cases t : target.isObject <;> simp_all
  simp only [Opens, mixed, Bool.false_eq_true, if_false]

/-- An opened target without bytes shows that it was opened, unless it had none before. -/
theorem Clobbers.changes {fs' : FileSystem} {e : Store.StoreError}
    (clobbers : Clobbers root fs source target)
    (ends : TransferEnd root fs source target fs' (.error (.error e))) :
    ∃ place, fs'.fileAt? place ≠ fs.fileAt? place := by
  obtain ⟨kinds, path, opened, node, fs₁, fs₂, place, at_path, resolved, _, lands, filled⟩ :=
    clobbers
  have opens : Opens root fs fs₁ source target opened :=
    (opens_iff_of_kinds kinds).mpr ⟨path, at_path, node, resolved⟩
  cases ends with
  | unopened _ closed => exact absurd opens (closed fs₁ fs₂ place opened lands)
  | unread _ fs₁' fs₂' place' opened' lands' _ _ _ writes =>
    obtain ⟨rfl, rfl, rfl⟩ := lands.unique lands'
    refine ⟨place, fun same => filled ?_⟩
    rw [← same, writes.fileAt?_self]

/-- Without that a copy that fails changes no file. -/
theorem keeps_files_of_not_clobbers {fs' : FileSystem} {e : Store.StoreError}
    (spares : ¬ Clobbers root fs source target)
    (ends : TransferEnd root fs source target fs' (.error (.error e))) (place : Files.Place) :
    fs'.fileAt? place = fs.fileAt? place := by
  cases ends with
  | unopened _ _ grown => exact grown.files place
  | unread _ fs₁ fs₂ target_place opened lands opens kinds missing writes =>
    obtain ⟨path, at_path, node, resolved⟩ := (opens_iff_of_kinds kinds).mp opens
    have unreadable : fs.fileAt? opened = none := by
      rw [lands.writes.fileAt?] at missing
      split at missing
      next => cases missing
      next => rw [← lands.grown.files, missing]
    have empty : fs.fileAt? target_place = some [] := by
      refine Classical.byContradiction fun filled => spares ⟨kinds, ?_⟩
      exact ⟨path, opened, node, fs₁, fs₂, target_place, at_path, resolved, unreadable, lands,
        filled⟩
    rw [writes.fileAt?]
    split
    next same => rw [same, empty]
    next => exact lands.grown.files place

/-- A copy that fails leaves every file as it was and makes no new one, exactly if it is
not an upload or download of a directory whose target can be opened and is not an empty
file already. -/
theorem failed_copy_keeps_files_iff {e : Store.StoreError}
    (parsed : parse text = .ok (.copy source target))
    (ran : (runAt pace (.of root settings) (.copy source target)).run w =
      (.error (.error e), w')) :
    (∀ place, w'.files.fileAt? place = w.files.fileAt? place) ↔
      ¬ Clobbers root w.files source (target.resolveTarget w.files source) := by
  obtain ⟨sent, ends, same⟩ := run_copy parsed ran
  have failed : sent = .error (.error e) := by
    cases sent with
    | ok n => cases same
    | error failure =>
      cases same
      rfl
  rw [failed] at ends
  constructor
  · intro kept clobbers
    obtain ⟨place, changed⟩ := clobbers.changes ends
    exact changed (kept place)
  · exact fun spares => keeps_files_of_not_clobbers spares ends

/-- Chunks of four bytes. -/
def smallChunks : Settings := { chunkSize := 4 }

/-- A store with one object, and a directory with one file beside it. -/
def attic : Workspace :=
  ⟨⟨⟨[(["store"], .dir), (["store", "o"], .file [111, 108, 100]), (["d"], .dir),
    (["d", "x"], .file [121])]⟩, [], none⟩, .zero, []⟩

/-- The upload of the directory. -/
def uploadFolder : Command := .copy (.file "d") (.object "o")

/-- How it ends. -/
def folderUploaded : Except Store.Failure Unit × Workspace :=
  (run (.of "store" smallChunks) uploadFolder).run attic

theorem parse_uploadFolder : parse "cp d store://o" = .ok uploadFolder := by
  decide +kernel

/-- It fails when the directory is read. -/
theorem run_uploadFolder :
    (run (.of "store" smallChunks) uploadFolder).run attic =
      (.error (.error (.io "d" .isDirectory)), folderUploaded.2) := by
  have failed : folderUploaded.1 = .error (.error (.io "d" .isDirectory)) := by
    decide +kernel
  exact eq_of_answer failed

/-- The object is empty by then. -/
theorem folderUploaded_changes :
    folderUploaded.2.files.fileAt? ["store", "o"] ≠ attic.files.fileAt? ["store", "o"] := by
  decide +kernel

theorem failed_copy_keeps_files_iff_folder :
    parse "cp d store://o" = .ok uploadFolder ∧
      folderUploaded.1 = .error (.error (.io "d" .isDirectory)) ∧
      Clobbers "store" attic.files (.file "d") (.object "o") := by
  have resolved : (Operand.object "o").resolveTarget attic.files (.file "d") = .object "o" := by
    decide +kernel
  refine ⟨parse_uploadFolder, congrArg Prod.fst run_uploadFolder, ?_⟩
  refine Classical.byContradiction fun spares => folderUploaded_changes ?_
  rw [← resolved] at spares
  exact (failed_copy_keeps_files_iff parse_uploadFolder run_uploadFolder).mpr spares _

/-- A failed copy may change a file. -/
theorem failed_copy_changes_file :
    ¬ ∀ (text root : String) (source target : Operand) (settings : Settings)
      (w w' : Workspace) (e : Store.StoreError), parse text = .ok (.copy source target) →
      (run (.of root settings) (.copy source target)).run w = (.error (.error e), w') →
      ∀ place, w'.files.fileAt? place = w.files.fileAt? place := by
  intro kept
  exact folderUploaded_changes
    (kept _ _ _ _ _ _ _ _ parse_uploadFolder run_uploadFolder ["store", "o"])

end CommandPool.Command
