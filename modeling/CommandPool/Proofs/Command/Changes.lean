import CommandPool.Proofs.Files.Changes
import CommandPool.Proofs.Store.Frames

/-!
# Commands change the files by operations

Whatever a command does and wherever it fails, it leaves the files as a number of operations have
changed them.
-/

namespace CommandPool

open Files (FileSystem Place)
open Files.FileSystem

variable {α β : Type} {context root key : String} {w : Store.Workspace}

namespace Store

/-! ## Parts of requests -/

theorem bind_changes {x : Request α} {f : α → Request β}
    (first : Changes w.files (x.run w).2.files)
    (rest : ∀ a w', Changes w'.files ((f a).run w').2.files) :
    Changes w.files ((x >>= f).run w).2.files :=
  bind_respects (R := fun w w' : Workspace => Changes w.files w'.files) Relation.ReflTransGen.trans
    first fun a w' _ => rest a w'

theorem changes_onFiles {act : Files.Act α} (changes : Changes w.files (act.run w.files).2) :
    Changes w.files ((onFiles context act).run w).2.files := by
  rw [run_onFiles]
  exact changes

theorem changes_askPath (root key : String) (w : Workspace) :
    Changes w.files ((askPath root key).run w).2.files := by
  rcases askPath_cases root key w with ⟨_, _, ran⟩ | ⟨_, ran⟩ <;> exact .of_eq (by rw [ran])

theorem changes_openRead (p : String) (fs : FileSystem) : Changes fs ((openRead p).run fs).2 :=
  (changes_ask _ fs).bind fun _ _ => .refl

theorem changes_openForReading (root key : String) (w : Workspace) :
    Changes w.files ((openForReading root key).run w).2.files := by
  refine bind_changes (changes_askPath root key w) fun p w₁ => ?_
  refine bind_changes .refl fun _ w₂ => ?_
  exact changes_onFiles (changes_openRead p w₂.files)

theorem changes_makeAbove (target : Operand) (p : String) (fs : FileSystem) :
    Changes fs ((target.makeAbove p).run fs).2 := by
  rcases target.makeAbove_cases p with nothing | ⟨above, _, made⟩
  · rw [nothing]
    exact .refl
  · rw [made]
    exact changes_createDirAll above fs

theorem changes_openForWriting (root key : String) (w : Workspace) :
    Changes w.files ((openForWriting root key).run w).2.files := by
  refine bind_changes (changes_askPath root key w) fun p w₁ => ?_
  refine bind_changes .refl fun _ w₂ => ?_
  refine bind_changes (changes_onFiles (changes_makeAbove (.object key) p w₂.files))
    fun _ w₃ => ?_
  exact changes_onFiles (.single (.create p))

theorem changes_sendChunks (pace : Nat → Nat) (context key : String) (chunkSize : Nat)
    (source target : Place) (budget offset : Nat) (w : Workspace) :
    Changes w.files
      ((sendChunks pace context key chunkSize source target budget offset).run w).2.files := by
  induction budget generalizing w offset with
  | zero => exact .refl
  | succ budget ih =>
    rw [sendChunks]
    refine bind_changes (changes_onFiles (.of_eq (run_fillChunk_snd ..))) fun chunk w₁ => ?_
    split
    next => exact .refl
    next =>
      refine bind_changes (changes_onFiles (.single (.append target chunk))) fun _ w₂ => ?_
      exact bind_changes (ih _ w₂) fun _ w₃ => .refl

/-! ## Transfers -/

theorem changes_upload (pace : Nat → Nat) (root : String) (chunkSize : Nat)
    (local_path key : String) (w : Workspace) :
    Changes w.files ((upload pace root chunkSize local_path key).run w).2.files := by
  refine bind_changes .refl fun _ w₁ => ?_
  refine bind_changes (changes_onFiles (changes_openRead local_path w₁.files)) fun opened w₂ => ?_
  refine bind_changes (changes_openForWriting root key w₂) fun target w₃ => ?_
  refine bind_changes ?_ fun _ w₄ => ?_
  · unfold askBuffer
    split <;> exact .refl
  · rw [run_bind_ok (run_get w₄)]
    exact changes_sendChunks ..

theorem changes_download (root key local_path : String) (w : Workspace) :
    Changes w.files ((download root key local_path).run w).2.files := by
  refine bind_changes (changes_openForReading root key w) fun opened w₁ => ?_
  refine bind_changes .refl fun _ w₂ => ?_
  refine bind_changes (changes_onFiles (changes_makeAbove (.file local_path) local_path w₂.files))
    fun _ w₃ => ?_
  refine bind_changes (changes_onFiles (.single (.create local_path))) fun target w₄ => ?_
  refine bind_changes (changes_onFiles (.of_eq (run_readAll_snd opened w₄.files)))
    fun bytes w₅ => ?_
  exact bind_changes (changes_onFiles (.single (.append target bytes))) fun _ w₆ => .refl

theorem changes_copyObject (root source target : String) (w : Workspace) :
    Changes w.files ((copyObject root source target).run w).2.files := by
  refine bind_changes (changes_askPath root source w) fun src w₁ => ?_
  refine bind_changes (changes_askPath root target w₁) fun dst w₂ => ?_
  refine bind_changes .refl fun _ w₃ => ?_
  refine bind_changes (changes_onFiles (changes_makeAbove (.object target) dst w₃.files))
    fun _ w₄ => ?_
  exact changes_onFiles (changes_copy src dst w₄.files)

theorem changes_transfer (pace : Nat → Nat) (site : Site) (source target : Operand)
    (w : Workspace) :
    Changes w.files ((Command.transfer pace site source target).run w).2.files := by
  cases source with
  | file path =>
    cases target with
    | object key => exact changes_upload pace site.root site.chunkSize path key w
    | file => exact .refl
  | object key =>
    cases target with
    | object other => exact changes_copyObject site.root key other w
    | file path => exact changes_download site.root key path w

end Store

namespace Command

open Store (Operand Site Workspace)

/-! ## Commands -/

theorem changes_runCopy (pace : Nat → Nat) (site : Site) (source target : Operand)
    (w : Workspace) : Changes w.files ((runCopy pace site source target).run w).2.files := by
  rw [runCopy, run_bind_ok (run_get w)]
  exact Store.changes_transfer ..

theorem changes_runRemove (site : Site) (target : Operand) (w : Workspace) :
    Changes w.files ((runRemove site target).run w).2.files := by
  cases target with
  | object key =>
    refine Store.bind_changes (Store.changes_askPath site.root key w) fun p w₁ => ?_
    refine Store.bind_changes .refl fun _ w₂ => ?_
    exact Store.changes_onFiles (.single (.removeFile p))
  | file path =>
    refine Store.bind_changes .refl fun _ w₁ => ?_
    exact Store.changes_onFiles (.single (.removeFile path))

theorem changes_runAt (pace : Nat → Nat) (site : Site) (c : Command) (w : Workspace) :
    Changes w.files ((runAt pace site c).run w).2.files := by
  cases c with
  | copy source target =>
    exact Store.bind_changes (changes_runCopy pace site source target w) fun _ _ => .refl
  | move source target =>
    exact Store.bind_changes (changes_runCopy pace site source target w) fun _ w₁ =>
      changes_runRemove site source w₁
  | remove target => exact changes_runRemove site target w
  | list stem =>
    refine .of_eq (Store.bind_files (Store.files_of_listKeys site.root stem w) fun _ => ?_)
    exact Store.files_of_say _

end Command

end CommandPool
