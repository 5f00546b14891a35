import CommandPool.Proofs.Store.Keys
import CommandPool.Proofs.Store.Transfers

/-!
# What requests leave alone

A transfer touches nothing but what is allowed for the path of its target, wherever it fails
(`touches_transfer`).  It writes to one file only, which the path names since that was opened.
A removal changes nothing, or the file is gone that the path of its operand names
(`remove_cases`), and a listing changes nothing (`files_of_listKeys`).
-/

namespace CommandPool.Store

open Files (FileSystem Place)
open Files.FileSystem

variable {α β : Type} {path : Option String} {p root key context : String} {w w' : Workspace}
  {place : Place} {source target : Operand}

/-! ## Parts of requests -/

/-- A part of a request and the rest touch what is allowed for the same path. -/
theorem bind_touches {x : Request α} {f : α → Request β}
    (first : Touches path w.files (x.run w).2.files)
    (rest : ∀ a w', x.run w = (.ok a, w') → Touches path w.files w'.files →
      Touches path w'.files ((f a).run w').2.files) :
    Touches path w.files ((x >>= f).run w).2.files := by
  refine bind_respects (R := fun w w' : Workspace => Touches path w.files w'.files)
    Touches.trans first ?_
  intro a w' ran
  rw [ran] at first
  exact rest a w' ran first

theorem touches_onFiles {act : Files.Act α} (touches : Touches path w.files (act.run w.files).2) :
    Touches path w.files ((onFiles context act).run w).2.files := by
  rw [run_onFiles]
  exact touches

theorem ok_of_onFiles {act : Files.Act α} {a : α}
    (ran : (onFiles context act).run w = (.ok a, w')) : act.run w.files = (.ok a, w'.files) := by
  rw [run_onFiles] at ran
  rcases ended : act.run w.files with ⟨_ | _, _⟩ <;> rw [ended] at ran <;> cases ran
  rfl

/-- Asking for the path of a key changes nothing. -/
theorem askPath_cases (root key : String) (w : Workspace) :
    (∃ p, Key.path? root key = some p ∧ (askPath root key).run w = (.ok p, w)) ∨
      ∃ e, (askPath root key).run w = (.error e, w) := by
  rw [askPath, pathOfKey]
  cases Key.path? root key with
  | none => exact Or.inr ⟨_, rfl⟩
  | some p => exact Or.inl ⟨p, rfl, rfl⟩

theorem touches_askPath (root key : String) (w : Workspace) :
    Touches path w.files ((askPath root key).run w).2.files := by
  rcases askPath_cases root key w with ⟨_, _, ran⟩ | ⟨_, ran⟩ <;> exact .of_eq (by rw [ran])

theorem path?_of_askPath (ran : (askPath root key).run w = (.ok p, w')) :
    Key.path? root key = some p := by
  rcases askPath_cases root key w with ⟨_, at_path, ran'⟩ | ⟨_, ran'⟩
  · cases ran.symm.trans ran'
    exact at_path
  · cases ran.symm.trans ran'

theorem touches_openRead (p : String) (fs : FileSystem) :
    Touches path fs ((openRead p).run fs).2 :=
  (touches_ask _ fs).bind fun _ fs' _ => .refl _ fs'

theorem touches_metadata (p : String) (fs : FileSystem) :
    Touches path fs ((metadata p).run fs).2 :=
  (touches_ask _ fs).bind fun _ fs' _ => .refl _ fs'

theorem touches_openForReading (root key : String) (w : Workspace) :
    Touches path w.files ((openForReading root key).run w).2.files := by
  refine bind_touches (touches_askPath root key w) fun p w₁ _ _ => ?_
  refine bind_touches (.refl _ w₁.files) fun _ w₂ _ _ => ?_
  exact touches_onFiles (touches_openRead p w₂.files)

/-! ## Targets -/

theorem touches_makeAbove (target : Operand) (p : String) (fs : FileSystem) :
    Touches (some p) fs ((target.makeAbove p).run fs).2 := by
  rcases target.makeAbove_cases p with nothing | ⟨above, parent, made⟩
  · rw [nothing]
    exact .refl _ fs
  · rw [made]
    exact touches_createDirAll (.parent parent) fs

theorem touches_openForWriting (root key : String) (w : Workspace) :
    Touches (Key.path? root key) w.files ((openForWriting root key).run w).2.files := by
  refine bind_touches (touches_askPath root key w) fun p w₁ asked _ => ?_
  rw [path?_of_askPath asked]
  refine bind_touches (.refl _ w₁.files) fun _ w₂ _ _ => ?_
  refine bind_touches (touches_onFiles (touches_makeAbove (.object key) p w₂.files))
    fun _ w₃ _ _ => ?_
  exact touches_onFiles (touches_create p w₃.files)

/-- What is opened for writing is made at the path of the key. -/
theorem create_of_openForWriting (ran : (openForWriting root key).run w = (.ok place, w')) :
    ∃ p fs, Key.path? root key = some p ∧ (create p).run fs = (.ok place, w'.files) := by
  obtain ⟨p, w₁, asked, ran⟩ := run_bind_eq_ok ran
  obtain ⟨_, w₂, _, ran⟩ := run_bind_eq_ok ran
  obtain ⟨_, w₃, _, ran⟩ := run_bind_eq_ok ran
  exact ⟨p, w₃.files, path?_of_askPath asked, ok_of_onFiles ran⟩

/-- The path of an object that is opened for writing names the place where that is. -/
theorem names_of_openForWriting (ran : (openForWriting root key).run w = (.ok place, w')) :
    ∃ p, Key.path? root key = some p ∧ Names w'.files p place := by
  obtain ⟨p, fs, at_path, created⟩ := create_of_openForWriting ran
  exact ⟨p, at_path, names_of_create created⟩

/-! ## Chunks -/

/-- Reading a chunk changes nothing. -/
theorem run_fillChunk_snd (pace : Nat → Nat) (place : Place) (offset want room : Nat)
    (fs : FileSystem) : ((fillChunk pace place offset want room).run fs).2 = fs := by
  induction room generalizing want offset fs with
  | zero => rfl
  | succ room ih =>
    cases want with
    | zero => rfl
    | succ want =>
      rw [fillChunk]
      refine bind_respects (R := fun fs fs' => fs' = fs) (fun one two => two.trans one)
        (run_readAt_snd ..) fun got fs' _ => ?_
      split
      next => rfl
      next =>
        exact bind_respects (R := fun fs fs' => fs' = fs) (fun one two => two.trans one)
          (ih _ _ fs') fun _ _ _ => rfl

/-- Chunks are sent to the one file that is open. -/
theorem touches_sendChunks (pace : Nat → Nat) (context key : String) (chunkSize : Nat)
    (source : Place) {target : Place} (names : Names w.files p target) (budget offset : Nat) :
    Touches (some p) w.files
      ((sendChunks pace context key chunkSize source target budget offset).run w).2.files := by
  induction budget generalizing w offset with
  | zero => exact .refl _ w.files
  | succ budget ih =>
    rw [sendChunks]
    refine bind_touches (touches_onFiles (.of_eq (run_fillChunk_snd ..))) fun chunk w₁ _ kept => ?_
    have names₁ := names.of_stays kept.toStays
    split
    next => exact .refl _ w₁.files
    next =>
      refine bind_touches (touches_onFiles (touches_append names₁ chunk)) fun _ w₂ _ sent => ?_
      exact bind_touches (ih (names₁.of_stays sent.toStays) _) fun _ w₃ _ _ => .refl _ w₃.files

/-! ## Transfers -/

theorem touches_upload (pace : Nat → Nat) (root : String) (chunkSize : Nat)
    (local_path key : String) (w : Workspace) :
    Touches (Key.path? root key) w.files
      ((upload pace root chunkSize local_path key).run w).2.files := by
  refine bind_touches (.refl _ w.files) fun _ w₁ _ _ => ?_
  refine bind_touches (touches_onFiles (touches_openRead local_path w₁.files))
    fun opened w₂ _ _ => ?_
  refine bind_touches (touches_openForWriting root key w₂) fun target w₃ ran _ => ?_
  obtain ⟨p, at_path, names⟩ := names_of_openForWriting ran
  rw [at_path]
  have asked : ((askBuffer chunkSize).run w₃).2 = w₃ := by
    unfold askBuffer
    split <;> rfl
  refine bind_touches (.of_eq (by rw [asked])) fun _ w₄ _ kept => ?_
  rw [run_bind_ok (run_get w₄)]
  exact touches_sendChunks pace local_path key chunkSize opened (names.of_stays kept.toStays) _ 0

theorem touches_download (root key local_path : String) (w : Workspace) :
    Touches (some local_path) w.files ((download root key local_path).run w).2.files := by
  refine bind_touches (touches_openForReading root key w) fun opened w₁ _ _ => ?_
  refine bind_touches (.refl _ w₁.files) fun _ w₂ _ _ => ?_
  refine bind_touches (touches_onFiles (touches_makeAbove (.file local_path) local_path w₂.files))
    fun _ w₃ _ _ => ?_
  refine bind_touches (touches_onFiles (touches_create local_path w₃.files))
    fun target w₄ created _ => ?_
  have names := names_of_create (ok_of_onFiles created)
  refine bind_touches (touches_onFiles (.of_eq (run_readAll_snd opened w₄.files)))
    fun bytes w₅ _ kept => ?_
  exact bind_touches (touches_onFiles (touches_append (names.of_stays kept.toStays) bytes))
    fun _ w₆ _ _ => .refl _ w₆.files

theorem touches_copyObject (root source target : String) (w : Workspace) :
    Touches (Key.path? root target) w.files ((copyObject root source target).run w).2.files := by
  refine bind_touches (touches_askPath root source w) fun src w₁ _ _ => ?_
  refine bind_touches (touches_askPath root target w₁) fun dst w₂ asked _ => ?_
  rw [path?_of_askPath asked]
  refine bind_touches (.refl _ w₂.files) fun _ w₃ _ _ => ?_
  refine bind_touches (touches_onFiles (touches_makeAbove (.object target) dst w₃.files))
    fun _ w₄ _ _ => ?_
  exact touches_onFiles (touches_copy src dst w₄.files)

/-- A transfer touches what is allowed for the path of its target. -/
theorem touches_transfer (pace : Nat → Nat) (site : Site) (source target : Operand)
    (w : Workspace) :
    Touches (target.path? site.root) w.files
      ((Command.transfer pace site source target).run w).2.files := by
  cases source with
  | file path =>
    cases target with
    | object key => exact touches_upload pace site.root site.chunkSize path key w
    | file other => exact .refl _ w.files
  | object key =>
    cases target with
    | object other => exact touches_copyObject site.root key other w
    | file path => exact touches_download site.root key path w

/-! ## Removals -/

/-- A removal changes no file, or it succeeds and the file is gone that the operand names. -/
theorem remove_cases (site : Site) (operand : Operand) (w : Workspace) :
    ((Command.runRemove site operand).run w).2.files = w.files ∨
      ∃ p place w', operand.path? site.root = some p ∧ Names w.files p place ∧
        (Command.runRemove site operand).run w = (.ok (), w') ∧
        Sets w.files w'.files place none := by
  cases operand with
  | object key =>
    simp only [Command.runRemove, removeObject, Operand.path?]
    cases at_path : Key.path? site.root key with
    | none =>
      rw [run_askPath_none at_path]
      exact Or.inl rfl
    | some p =>
      obtain ⟨w₁, files, _, _, counted⟩ := run_count .storageOp w
      rw [run_askPath_ok at_path, counted, run_onFiles, files]
      rcases removeFile_cases p w.files with kept | ⟨place, fs', names, ran, sets⟩
      · exact Or.inl kept
      · rw [ran]
        exact Or.inr ⟨p, place, _, rfl, names, rfl, sets⟩
  | file p =>
    obtain ⟨w₁, files, _, _, counted⟩ := run_count .fileOp w
    simp only [Command.runRemove, removeFile, Operand.path?]
    rw [counted, run_onFiles, files]
    rcases removeFile_cases p w.files with kept | ⟨place, fs', names, ran, sets⟩
    · exact Or.inl kept
    · rw [ran]
      exact Or.inr ⟨p, place, _, rfl, names, rfl, sets⟩

/-! ## Listings -/

/-- A part of a request and the rest leave the files as they are. -/
theorem bind_files {x : Request α} {f : α → Request β} (first : (x.run w).2.files = w.files)
    (rest : ∀ a w', ((f a).run w').2.files = w'.files) : ((x >>= f).run w).2.files = w.files :=
  bind_respects (R := fun w w' : Workspace => w'.files = w.files) (fun one two => two.trans one)
    first fun a w' _ => rest a w'

theorem run_readDir_snd (p : String) (fs : FileSystem) : ((readDir p).run fs).2 = fs := by
  rw [readDir]
  cases resolved : fs.resolve p with
  | error e => rw [run_ask_error resolved]
  | ok both =>
    rw [run_ask_ok resolved]
    rcases both with ⟨place, _ | _⟩ <;> rfl

theorem files_of_collectKeys (order : Order) (root : String) (budget : Nat)
    (pending : List String) (w : Workspace) :
    ((collectKeys order root budget pending).run w).2.files = w.files := by
  induction budget generalizing pending w with
  | zero => cases pending <;> rfl
  | succ budget ih =>
    cases pending with
    | nil => rfl
    | cons folder pending =>
      rw [collectKeys]
      refine bind_files ?_ fun entries w₁ => bind_files (ih _ w₁) fun _ _ => rfl
      rw [run_onFiles]
      exact run_readDir_snd folder w.files

theorem files_of_listKeys (root stem : String) (w : Workspace) :
    ((listKeys root stem).run w).2.files = w.files := by
  refine bind_files rfl fun _ w₁ => ?_
  rw [run_bind_ok (run_get w₁)]
  exact bind_files (files_of_collectKeys _ _ _ _ w₁) fun _ _ => rfl

theorem files_of_say (entries : List Log.Entry) (w : Workspace) :
    ((entries.forM say).run w).2.files = w.files := by
  induction entries generalizing w with
  | nil => rfl
  | cons entry entries ih => exact bind_files rfl fun _ => ih

end CommandPool.Store
