import CommandPool.Batch
import CommandPool.Proofs.Command.Changes
import CommandPool.Proofs.Pool.Played

/-!
# Command files

A command file is held open while its own lines are run.  So its lines need not be those that it
had when it was opened: a command can write to it, and then later portions are of what was
written.  As long as each draw finds the bytes that the file had, the readings are those of a
source that was read whole at once, wherever the portions end and however draws and commands
overlap (`readings_of_undisturbed`).  To remove the file disturbs nothing, since it is held.
-/

namespace CommandPool.Batch

open Files (FileSystem)
open Files.FileSystem
open Lines (Source)
open Pool (Intake Parse Supplied Throughout)

variable {α : Type} {fs : FileSystem} {path : String} {bytes : List UInt8}

/-! ## Draws -/

/-- What is drawn of a file that is held open is the portion behind those drawn before. -/
theorem draw_heldFile (held : fs.heldBytes? = some bytes) (count : Nat) :
    heldFile.draw fs count = .ok ((bytes.drop count).take Source.readSize) :=
  congrArg Prod.fst (run_readHeld held count Source.readSize)

/-- Nothing can be drawn of a directory that is held open. -/
theorem draw_heldFile_of_none (holds : fs.held.isSome = true) (none : fs.heldBytes? = none)
    (count : Nat) : heldFile.draw fs count = .error .isDirectory := by
  simp only [heldFile, run_readHeld_of_none none, if_pos holds]

/-! ## Opening -/

/-- The bytes of the file that a path leads to. -/
def fileBytes? (fs : FileSystem) (path : String) : Option (List UInt8) :=
  match fs.resolve path with
  | .ok (_, .file bytes) => some bytes
  | _ => none

theorem run_hold (fs : FileSystem) (path : String) :
    (hold path).run fs =
      match fs.resolve path with
      | .ok (place, _) => (.ok (), { fs with held := some (.present place) })
      | .error fault => (.error fault, fs) := by
  rw [hold]
  cases resolved : fs.resolve path with
  | error fault => rw [run_bind_error (run_openRead_error resolved)]
  | ok found => rw [run_bind_ok (run_openRead_ok resolved), run_modify]

/-- A path is opened if it leads anywhere, and what it leads to is held open. -/
theorem openFile_eq (fs : FileSystem) (path : String) :
    openFile fs path = (fs.resolve path).map fun found =>
      (.drawn .empty 0, { fs with held := some (.present found.1) }) := by
  rw [openFile, run_hold]
  cases fs.resolve path <;> rfl

/-- The same paths are opened by a source that reads all at once, and it reads what is held. -/
theorem ofFile_eq (fs : FileSystem) (path : String) :
    Source.ofFile fs path = (openFile fs path).map fun opened =>
      match opened.2.heldBytes? with
      | some bytes => .ofBytes Source.readSize bytes
      | none => .broken .isDirectory := by
  rw [openFile_eq]
  unfold Source.ofFile
  cases resolved : fs.resolve path with
  | error fault =>
    rw [run_openRead_error resolved]
    rfl
  | ok found =>
    rw [run_openRead_ok resolved]
    simp only [run_readAll]
    have held : heldBytes? { fs with held := some (.present found.1) } = fs.fileAt? found.1 := rfl
    simp only [Except.map, held]
    cases fs.fileAt? found.1 <;> rfl

/-- What was opened is drawn from its start on, and is held. -/
theorem drawn_of_openFile {intake : Intake} {fs' : FileSystem}
    (opened : openFile fs path = .ok (intake, fs')) :
    intake = .drawn .empty 0 ∧ fs'.held.isSome = true := by
  rw [openFile_eq] at opened
  cases resolved : fs.resolve path with
  | error fault =>
    rw [resolved] at opened
    cases opened
  | ok found =>
    rw [resolved] at opened
    cases opened
    exact ⟨rfl, rfl⟩

theorem ofFile_of_fileBytes? (has : fileBytes? fs path = some bytes) :
    Source.ofFile fs path = .ok (.ofBytes Source.readSize bytes) := by
  unfold fileBytes? at has
  split at has
  next place found resolved =>
    cases has
    have there : fs.fileAt? place = some bytes := (resolve_file_iff.mp resolved).2
    unfold Source.ofFile
    simp only [run_openRead_ok resolved, run_readAll, there]
  next => cases has

/-- Bytes that are all there are read line by line. -/
theorem readings_ofBytes (bytes : List UInt8) :
    (intakeOf (.ofBytes Source.readSize bytes)).readings [] =
      (Lines.pieces bytes).map (·.reading) :=
  congrArg (fun held => (Lines.pieces held).map Lines.Piece.reading)
    (Lines.flatten_portionsOf _ _ bytes)

/-! ## Runs -/

/-- No command cancels the run, and commands change the files by operations. -/
theorem calm_behave (site : Store.Site) : Pool.Timeline.Calm (behave site) Changes where
  uncancelled _ _ _ := rfl
  changes c _ fs := c.changes_runAt Command.fullPace site ⟨fs, .zero, []⟩

/-- What was opened as a file can be drawn to its end, whatever commands do to it. -/
theorem drawn_ok {parse : Parse α} {start s : Supplied α FileSystem}
    {ls : List (Supplied.Label α FileSystem)} (file : start.world.heldBytes?.isSome = true)
    (run : start.steps parse heldFile ls = some s)
    (own : Throughout (Supplied.step parse heldFile) (Supplied.IsOwn Changes) start ls) :
    ∀ got ∈ start.drawn parse heldFile ls, ∃ portion, got = .ok portion := by
  have kept : Supplied.Finds parse heldFile (·.heldBytes?.isSome = true) start ls :=
    Supplied.finds_of_own (fun held changes => heldBytes?_isSome_of_changes changes held) file run
      own
  refine Supplied.forall_drawn (fun world count held => ?_) run kept
  obtain ⟨bytes, held⟩ := Option.isSome_iff_exists.mp held
  exact ⟨_, draw_heldFile held count⟩

/-- Each draw finds the file that is held open with the bytes that it had at first. -/
def Undisturbed (parse : Parse α) (start : Supplied α FileSystem)
    (ls : List (Supplied.Label α FileSystem)) : Prop :=
  Supplied.Finds parse heldFile (·.heldBytes? = start.world.heldBytes?) start ls

instance decidableUndisturbed (parse : Parse α) (start : Supplied α FileSystem)
    (ls : List (Supplied.Label α FileSystem)) : Decidable (Undisturbed parse start ls) :=
  Supplied.decidableFinds start ls

/-- The readings of a file that is drawn undisturbed are those of its bytes, whatever the
portions. -/
theorem readings_of_undisturbed {parse : Parse α} {start s : Supplied α FileSystem}
    {ls : List (Supplied.Label α FileSystem)} {source : Source}
    (opened : openFile fs path = .ok (start.fed.feeder.intake, start.world))
    (whole : Source.ofFile fs path = .ok source) (run : start.steps parse heldFile ls = some s)
    (own : Throughout (Supplied.step parse heldFile) (Supplied.IsOwn Changes) start ls)
    (undisturbed : Undisturbed parse start ls) :
    ∃ later, Lines.readings [] (start.drawn parse heldFile ls ++ later) =
      (intakeOf source).readings [] := by
  obtain ⟨intake, holds⟩ := drawn_of_openFile opened
  rw [ofFile_eq, opened] at whole
  cases found : start.world.heldBytes? with
  | none =>
    simp only [Except.map, found] at whole
    cases whole
    have held : Supplied.Finds parse heldFile (·.held.isSome = true) start ls :=
      Supplied.finds_of_own (fun holds changes => (held_isSome_of_changes changes).trans holds)
        holds run own
    obtain ⟨later, rest, faulty⟩ := Supplied.exists_fault
      (fun world count finds => draw_heldFile_of_none finds.1 (finds.2.trans found) count)
      intake run (held.and undisturbed)
    exact ⟨later, congrArg (Lines.readings []) faulty⟩
  | some bytes =>
    simp only [Except.map, found] at whole
    cases whole
    obtain ⟨later, portions⟩ := Supplied.exists_portions (by decide : 0 < Source.readSize)
      (fun world count finds => draw_heldFile (finds.trans found) count) intake run undisturbed
    exact ⟨later, (Lines.readings_of_portions portions []).trans (readings_ofBytes bytes).symm⟩

end CommandPool.Batch
