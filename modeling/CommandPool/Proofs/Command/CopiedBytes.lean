import CommandPool.Proofs.Command.KeptBytes
import CommandPool.Proofs.Command.Resources
import CommandPool.Proofs.Store.Frames

/-!
# A copy that succeeds copies the bytes

A copy to another file that succeeds leaves the source as it is and the same bytes at the target,
and counts them.  An upload sends what can be read of the source, in whatever chunks and reads
(`run_upload_congr`), so the chunk size has no part in the result, nor has what earlier uploads have
left in the buffer.  What was copied can be copied back.

All this is shown without a buffer and carried over to the worker that has one.
-/

namespace CommandPool.Command

open Store (Operand Workspace Lands)
open Files (FileSystem Place)
open Files.FileSystem

variable {text root path key : String} {source target reached : Operand}
  {settings settings' : Settings} {pace pace' : Nat → Nat} {w w' : Workspace} {r : Resources}
  {fs : FileSystem} {place : Place} {bytes buffer : List UInt8} {n : Nat}

/-! ## Chunk sizes -/

/-- The chunk size and the reads make no difference to an upload. -/
theorem run_upload_congr {chunkSize chunkSize' : Nat} (positive : 0 < chunkSize)
    (fits : chunkSize ≤ Store.greatestBuffer) (positive' : 0 < chunkSize')
    (fits' : chunkSize' ≤ Store.greatestBuffer) (root path key : String) (w : Workspace) :
    (Store.upload pace root chunkSize path key).run w =
      (Store.upload pace' root chunkSize' path key).run w := by
  refine run_bind_congr fun _ w₁ _ => ?_
  refine run_bind_congr fun opened w₂ _ => ?_
  refine run_bind_congr fun there w₃ opens => ?_
  obtain ⟨_, _, _, created⟩ := Store.create_of_openForWriting opens
  obtain ⟨names, _, emptied⟩ := create_eq created
  have tree := congrArg FileSystem.tree emptied
  exact (Store.run_send pace path key positive fits names.below tree).trans
    (Store.run_send pace' path key positive' fits' names.below tree).symm

/-- An upload that succeeds had a buffer. -/
theorem fits_of_upload {chunkSize : Nat}
    (ran : (Store.upload pace root chunkSize path key).run w = (.ok n, w')) :
    chunkSize ≤ Store.greatestBuffer := by
  obtain ⟨_, w₁, _, ran⟩ := run_bind_eq_ok ran
  obtain ⟨_, w₂, _, ran⟩ := run_bind_eq_ok ran
  obtain ⟨_, w₃, _, ran⟩ := run_bind_eq_ok ran
  obtain ⟨_, w₄, asked, _⟩ := run_bind_eq_ok ran
  by_cases fits : chunkSize ≤ Store.greatestBuffer
  · exact fits
  · rw [Store.askBuffer, if_neg fits] at asked
    cases asked

/-- A copy that succeeds does so with any chunk size that a buffer can have. -/
theorem runCopy_of_fits (fits : settings'.chunkSize ≤ Store.greatestBuffer)
    (ran : (runCopy pace (.of root settings) source target).run w = (.ok n, w')) :
    (runCopy pace' (.of root settings') source target).run w = (.ok n, w') := by
  rw [runCopy, run_bind_ok (run_get w)] at ran ⊢
  generalize target.resolveTarget w.files source = reached at ran ⊢
  cases source with
  | object other =>
    cases reached with
    | object key => exact ran
    | file path => exact ran
  | file path =>
    cases reached with
    | file other => exact ran
    | object key =>
      have least : 1 ≤ Store.greatestBuffer := by decide
      refine Eq.trans ?_ ran
      exact run_upload_congr (Nat.le_max_right _ 1) (Nat.max_le.mpr ⟨fits, least⟩)
        (Nat.le_max_right _ 1) (fits_of_upload ran) root path key w

/-! ## Copies -/

/-- The source is as it was, and another file has the same bytes, which were counted. -/
structure Copied (fs : FileSystem) (path : String) (place : Place) (other : String)
    (there : Place) (bytes : List UInt8) (n : Nat) : Prop where
  count : n = bytes.length
  source : fs.resolve path = .ok (place, .file bytes)
  target : fs.resolve other = .ok (there, .file bytes)
  apart : there ≠ place

theorem copied_of_runCopy (parsed : parse text = .ok (.copy source target))
    (at_path : source.path? root = some path)
    (before : w.files.resolve path = .ok (place, .file bytes))
    (apart : ¬ LeadsTo root w.files (target.resolveTarget w.files source) place)
    (ran : (runCopy pace (.of root settings) source target).run w = (.ok n, w')) :
    ∃ other there, (target.resolveTarget w.files source).path? root = some other ∧
      Copied w'.files path place other there bytes n := by
  have ends := ends_runCopy parsed rfl root settings pace w
  rw [ran] at ends
  have spared := spared_of_not_leadsTo ends at_path before apart
  obtain ⟨count, other, there, at_other, names, different, found⟩ := spared.copied n rfl
  exact ⟨other, there, at_other, count, resolve_file_iff.mpr ⟨spared.names, spared.found⟩,
    resolve_file_iff.mpr ⟨names, found⟩, different⟩

/-- A target that is opened elsewhere does not lead to the place. -/
theorem not_leadsTo (there : Place) (at_path : target.path? root = some path)
    (made : ((target.makeAbove path).run fs).1 = .ok ())
    (created : ((create path).run ((target.makeAbove path).run fs).2).1 = .ok there)
    (apart : there ≠ place) : ¬ LeadsTo root fs target place := by
  rintro ⟨fs₁, fs₂, lands⟩
  exact apart (Lands.unique ⟨path, at_path, eq_of_answer made, eq_of_answer created⟩ lands).2.2

/-! ## Through a buffer -/

/-- What a copy through the buffer does, one without it does. -/
theorem runCopy_of_copyBuffered {result : Except Store.Failure Nat}
    (ran : (copyBuffered pace (.of root settings) source target).run ⟨w, buffer⟩ = (result, r)) :
    (runCopy pace (.of root settings) source target).run w = (result, r.workspace) := by
  have positive : 0 < (Store.Site.of root settings).chunkSize := Nat.le_max_right _ 1
  obtain ⟨left, mirrored⟩ := mirrors_copyBuffered pace positive source target ⟨w, buffer⟩
  cases ran.symm.trans mirrored
  rfl

/-- And the other way round, with anything in the buffer. -/
theorem copyBuffered_of_runCopy {result : Except Store.Failure Nat}
    (ran : (runCopy pace (.of root settings) source target).run w = (result, w'))
    (buffer : List UInt8) :
    ∃ left, (copyBuffered pace (.of root settings) source target).run ⟨w, buffer⟩ =
      (result, ⟨w', left⟩) := by
  have positive : 0 < (Store.Site.of root settings).chunkSize := Nat.le_max_right _ 1
  obtain ⟨left, mirrored⟩ := mirrors_copyBuffered pace positive source target ⟨w, buffer⟩
  rw [ran] at mirrored
  exact ⟨left, mirrored⟩

/-- A copy of a file to another one that succeeds leaves the same bytes there, and what is copied on
from there has them too.  It ends in the same way in chunks of any size, however the source is read,
and whatever the buffer holds, or without a buffer. -/
theorem copies_reproduce_bytes (parsed : parse text = .ok (.copy source target))
    (at_path : source.path? root = some path)
    (before : w.files.resolve path = .ok (place, .file bytes))
    (resolved : target.resolveTarget w.files source = reached)
    (apart : ¬ LeadsTo root w.files reached place)
    (ran : (copyBuffered pace (.of root settings) source target).run ⟨w, buffer⟩ = (.ok n, r)) :
    ∃ other there, reached.path? root = some other ∧
      Copied r.workspace.files path place other there bytes n ∧
      (∀ (pace' : Nat → Nat) (settings' : Settings) (buffer' : List UInt8),
        settings'.chunkSize ≤ Store.greatestBuffer →
        (runCopy pace' (.of root settings') source target).run w = (.ok n, r.workspace) ∧
          ∃ left, (copyBuffered pace' (.of root settings') source target).run ⟨w, buffer'⟩ =
            (.ok n, ⟨r.workspace, left⟩)) ∧
      ∀ (text₂ : String) (target₂ reached₂ : Operand) (pace₂ : Nat → Nat) (settings₂ : Settings)
        (buffer₂ : List UInt8) (m : Nat) (r₂ : Resources),
        parse text₂ = .ok (.copy reached target₂) →
        target₂.resolveTarget r.workspace.files reached = reached₂ →
        ¬ LeadsTo root r.workspace.files reached₂ there →
        (copyBuffered pace₂ (.of root settings₂) reached target₂).run ⟨r.workspace, buffer₂⟩ =
          (.ok m, r₂) →
        ∃ other₂ there₂, reached₂.path? root = some other₂ ∧
          Copied r₂.workspace.files other there other₂ there₂ bytes m := by
  subst resolved
  have plain := runCopy_of_copyBuffered ran
  obtain ⟨other, there, at_other, copied⟩ := copied_of_runCopy parsed at_path before apart plain
  refine ⟨other, there, at_other, copied, fun pace' settings' buffer' fits => ?_, ?_⟩
  · have same : (runCopy pace' (.of root settings') source target).run w = (.ok n, r.workspace) :=
      runCopy_of_fits fits plain
    exact ⟨same, copyBuffered_of_runCopy same buffer'⟩
  · rintro text₂ target₂ _ pace₂ settings₂ buffer₂ m r₂ parsed₂ rfl apart₂ ran₂
    exact copied_of_runCopy parsed₂ at_other copied.target apart₂ (runCopy_of_copyBuffered ran₂)

/-- A store with nothing in it, and a file of six bytes beside it. -/
def tray : Workspace :=
  ⟨⟨⟨[(["store"], .dir), (["x"], .file [1, 2, 3, 4, 5, 6])]⟩, [], none⟩, .zero, []⟩

/-- The file is uploaded byte by byte, through a buffer that is full of something else. -/
def uploadedThroughDregs : Except Store.Failure Nat × Resources :=
  (copyBuffered (fun _ => 0) (.of "store" chunksOfFour) (.file "x") (.object "k")).run
    ⟨tray, [9, 9, 9, 9]⟩

/-- And then downloaded. -/
def downloadedAgain : Except Store.Failure Nat × Resources :=
  (copyBuffered fullPace (.of "store" chunksOfFour) (.object "k") (.file "y")).run
    ⟨uploadedThroughDregs.2.workspace, []⟩

theorem copies_reproduce_bytes_again :
    uploadedThroughDregs.1 = .ok 6 ∧ downloadedAgain.1 = .ok 6 ∧
      ∃ there there₂, Copied uploadedThroughDregs.2.workspace.files "x" ["x"] "store/k" there
          [1, 2, 3, 4, 5, 6] 6 ∧
        Copied downloadedAgain.2.workspace.files "store/k" there "y" there₂
          [1, 2, 3, 4, 5, 6] 6 := by
  have worked : uploadedThroughDregs.1 = .ok 6 := by decide +kernel
  have worked₂ : downloadedAgain.1 = .ok 6 := by decide +kernel
  have parsed : parse "cp x store://k" = .ok (.copy (.file "x") (.object "k")) := by
    decide +kernel
  have parsed₂ : parse "cp store://k y" = .ok (.copy (.object "k") (.file "y")) := by
    decide +kernel
  have before : tray.files.resolve "x" = .ok (["x"], .file [1, 2, 3, 4, 5, 6]) := by
    decide +kernel
  have at_key : (Operand.object "k").path? "store" = some "store/k" := by decide +kernel
  have apart : ¬ LeadsTo "store" tray.files (.object "k") ["x"] :=
    not_leadsTo ["store", "k"] at_key (by decide +kernel) (by decide +kernel)
      (by decide)
  have resolved : (Operand.object "k").resolveTarget tray.files (.file "x") = .object "k" := by
    decide +kernel
  have ran : (copyBuffered (fun _ => 0) (.of "store" chunksOfFour) (.file "x")
      (.object "k")).run ⟨tray, [9, 9, 9, 9]⟩ = (.ok 6, uploadedThroughDregs.2) :=
    eq_of_answer worked
  obtain ⟨other, there, at_other, copied, _, onward⟩ :=
    copies_reproduce_bytes parsed rfl before resolved apart ran
  cases at_key.symm.trans at_other
  have reached : uploadedThroughDregs.2.workspace.files.resolve "store/k" =
      .ok (["store", "k"], .file [1, 2, 3, 4, 5, 6]) := by decide +kernel
  obtain rfl : there = ["store", "k"] :=
    congrArg Prod.fst (Except.ok.inj (copied.target.symm.trans reached))
  have resolved₂ : (Operand.file "y").resolveTarget uploadedThroughDregs.2.workspace.files
      (.object "k") = .file "y" := by decide +kernel
  have apart₂ : ¬ LeadsTo "store" uploadedThroughDregs.2.workspace.files (.file "y")
      ["store", "k"] :=
    not_leadsTo ["y"] rfl (by decide +kernel) (by decide +kernel) (by decide)
  have ran₂ : (copyBuffered fullPace (.of "store" chunksOfFour) (.object "k")
      (.file "y")).run ⟨uploadedThroughDregs.2.workspace, []⟩ = (.ok 6, downloadedAgain.2) :=
    eq_of_answer worked₂
  obtain ⟨other₂, there₂, at_other₂, copied₂⟩ :=
    onward _ _ _ _ _ _ _ _ parsed₂ resolved₂ apart₂ ran₂
  cases at_other₂
  exact ⟨worked, worked₂, _, there₂, copied, copied₂⟩

end CommandPool.Command
