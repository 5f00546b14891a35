import CommandPool.Command.Run
import CommandPool.Proofs.Store.Chunks

/-!
# What becomes of a transfer

A transfer opens its source and its target, which makes the directories above the target
and empties it, and then copies.  `Lands` says at which place the target is opened, and
`Opens` at which place the source is.  If both are opened, the target gets what can be
read at the place of the source by then, or nothing if nothing can be read.  `TransferEnd`
lists these ends, and `ends_transfer` shows that uploads, downloads and copies within
the store have no other one.
-/

namespace CommandPool.Store

open Files (FileSystem Place)
open Files.FileSystem

variable {root path : String} {fs fs₁ fs₂ fs' : FileSystem} {source target : Operand}
  {place : Place} {w : Workspace}

/-! ## Opening both sides -/

/-- The path of what an operand names, if it names anything. -/
def Operand.path? (root : String) : Operand → Option String
  | .object key => Key.path? root key
  | .file path => some path

/-- Makes the directories above the path of a target. -/
def Operand.makeAbove : Operand → String → Files.Act Unit
  | .object _, path => makeParents path
  | .file _, path => makeLocalParents path

/-- With the directories above it made, in `fs₁`, the target is opened at this place,
empty, in `fs₂`. -/
def Lands (root : String) (fs : FileSystem) (target : Operand) (fs₁ fs₂ : FileSystem)
    (place : Place) : Prop :=
  ∃ path, target.path? root = some path ∧ (target.makeAbove path).run fs = (.ok (), fs₁) ∧
    (create path).run fs₁ = (.ok place, fs₂)

/-- The source is opened at this place.  A copy within the store opens it after the
directories for the target were made, in `fs₁`, and only if it is a file. -/
def Opens (root : String) (fs fs₁ : FileSystem) (source target : Operand) (place : Place) :
    Prop :=
  ∃ path, source.path? root = some path ∧
    if source.isObject && target.isObject then
      ∃ bytes, fs₁.resolve path = .ok (place, .file bytes)
    else ∃ node, fs.resolve path = .ok (place, node)

/-- How a transfer ends, from the files `fs` with the files `fs'`. -/
inductive TransferEnd (root : String) (fs : FileSystem) (source target : Operand)
    (fs' : FileSystem) : Except Failure Nat → Prop where
  /-- The source or the target is not opened. -/
  | unopened (e : StoreError)
      (closed : ∀ fs₁ fs₂ place opened, Lands root fs target fs₁ fs₂ place →
        ¬ Opens root fs fs₁ source target opened)
      (grown : Grown fs fs') : TransferEnd root fs source target fs' (.error (.error e))
  /-- Both are opened, and there is no buffer for a chunk. -/
  | noBuffer (fs₁ fs₂ : FileSystem) (place : Place)
      (lands : Lands root fs target fs₁ fs₂ place)
      (writes : Sets fs₁ fs' place (some [])) :
      TransferEnd root fs source target fs' (.error .noBuffer)
  /-- Both are opened, and of the source nothing can be read. -/
  | unread (e : StoreError) (fs₁ fs₂ : FileSystem) (place opened : Place)
      (lands : Lands root fs target fs₁ fs₂ place)
      (opens : Opens root fs fs₁ source target opened)
      (kinds : source.isObject ≠ target.isObject)
      (missing : fs₂.fileAt? opened = none)
      (writes : Sets fs₁ fs' place (some [])) :
      TransferEnd root fs source target fs' (.error (.error e))
  /-- Both are opened, and what can be read is copied. -/
  | copied (fs₁ fs₂ : FileSystem) (place opened : Place) (bytes : List UInt8)
      (lands : Lands root fs target fs₁ fs₂ place)
      (opens : Opens root fs fs₁ source target opened)
      (found : fs₂.fileAt? opened = some bytes)
      (writes : Sets fs₁ fs' place (some bytes)) :
      TransferEnd root fs source target fs' (.ok bytes.length)

/-- For a target the directories are made from its parent on, or none are. -/
theorem Operand.makeAbove_cases (target : Operand) (path : String) :
    target.makeAbove path = pure () ∨ ∃ above, Files.Path.parent? path = some above ∧
      target.makeAbove path = createDirAll above := by
  cases target with
  | object key =>
    simp only [makeAbove, makeParents]
    split
    next above parent => exact Or.inr ⟨above, parent, rfl⟩
    next => exact Or.inl rfl
  | file local_ =>
    simp only [makeAbove, makeLocalParents]
    split
    next => exact Or.inl rfl
    next above parent =>
      split
      next => exact Or.inl rfl
      next => exact Or.inr ⟨above, parent, rfl⟩

theorem Operand.grows_makeAbove (target : Operand) (path : String) :
    Grows (target.makeAbove path) := by
  rcases target.makeAbove_cases path with nothing | ⟨above, _, made⟩
  · rw [nothing]
    exact grows_pure ()
  · rw [made]
    exact grows_createDirAll above

theorem Lands.grown (lands : Lands root fs target fs₁ fs₂ place) : Grown fs fs₁ := by
  obtain ⟨path, _, made, _⟩ := lands
  have grown := target.grows_makeAbove path fs
  rw [made] at grown
  exact grown

/-- The path of the target names the place where it is opened. -/
theorem Lands.names (lands : Lands root fs target fs₁ fs₂ place) :
    ∃ path, target.path? root = some path ∧ Names fs₁ path place := by
  obtain ⟨path, at_path, _, created⟩ := lands
  exact ⟨path, at_path, (create_sets created).1⟩

theorem Lands.writes (lands : Lands root fs target fs₁ fs₂ place) :
    Sets fs₁ fs₂ place (some []) := by
  obtain ⟨path, _, _, created⟩ := lands
  exact (create_sets created).2

/-- There is one way to open a target. -/
theorem Lands.unique {fs₁' fs₂' : FileSystem} {other : Place}
    (lands : Lands root fs target fs₁ fs₂ place)
    (lands' : Lands root fs target fs₁' fs₂' other) :
    fs₁ = fs₁' ∧ fs₂ = fs₂' ∧ place = other := by
  obtain ⟨path, at_path, made, created⟩ := lands
  obtain ⟨path', at_path', made', created'⟩ := lands'
  rw [at_path] at at_path'
  cases at_path'
  rw [made] at made'
  cases made'
  rw [created] at created'
  cases created'
  exact ⟨rfl, rfl, rfl⟩

/-- Opening a target fails and makes directories at most, or it lands. -/
theorem run_open_cases (target : Operand) (at_path : target.path? root = some path)
    (context : String) (w : Workspace) :
    (∃ e fs', Grown w.files fs' ∧ (∀ fs₁ fs₂ place, ¬ Lands root w.files target fs₁ fs₂ place) ∧
      ∀ {β : Type} (f : Place → Request β),
        (onFiles context (target.makeAbove path) >>= fun _ =>
          onFiles context (create path) >>= f).run w =
            (.error (.error e), { w with files := fs' })) ∨
    ∃ fs₁ fs₂ place, Lands root w.files target fs₁ fs₂ place ∧
      ∀ {β : Type} (f : Place → Request β),
        (onFiles context (target.makeAbove path) >>= fun _ =>
          onFiles context (create path) >>= f).run w = (f place).run { w with files := fs₂ } := by
  have grown := target.grows_makeAbove path w.files
  rcases made : (target.makeAbove path).run w.files with ⟨e | _, fs₁⟩
  · rw [made] at grown
    refine Or.inl ⟨_, fs₁, grown, ?_, fun f => run_onFiles_error made _⟩
    rintro _ _ _ ⟨path', at_path', made', _⟩
    rw [at_path] at at_path'
    cases at_path'
    rw [made] at made'
    cases made'
  · rw [made] at grown
    rcases created : (create path).run fs₁ with ⟨e | place, fs₂⟩
    · obtain rfl := create_failed created
      refine Or.inl ⟨.ofFault context e, fs₂, grown, ?_, fun f => ?_⟩
      · rintro _ _ _ ⟨path', at_path', made', created'⟩
        rw [at_path] at at_path'
        cases at_path'
        rw [made] at made'
        cases made'
        rw [created] at created'
        cases created'
      · rw [run_onFiles_ok made]
        exact run_onFiles_error created f
    · refine Or.inr ⟨fs₁, fs₂, place, ⟨path, at_path, made, created⟩, fun f => ?_⟩
      rw [run_onFiles_ok made]
      exact run_onFiles_ok created f

/-! ## Uploads, downloads and copies within the store -/

theorem run_askPath_ok {β : Type} {key : String} (at_path : Key.path? root key = some path)
    (f : String → Request β) : (askPath root key >>= f).run w = (f path).run w := by
  simp only [askPath, pathOfKey, at_path]
  rfl

theorem run_askPath_none {β : Type} {key : String} (invalid : Key.path? root key = none)
    (f : String → Request β) :
    (askPath root key >>= f).run w = (.error (.error (.invalidKey key)), w) := by
  simp only [askPath, pathOfKey, invalid]
  rfl

theorem sizeAt_eq {bytes : List UInt8} (found : w.files.fileAt? place = some bytes) :
    sizeAt w place = bytes.length := by
  rw [fileAt?_eq_some_iff] at found
  rw [sizeAt, found]

/-- An operand that names nothing is not opened. -/
theorem not_lands_of_none (nothing : target.path? root = none) :
    ¬ Lands root fs target fs₁ fs₂ place := by
  rintro ⟨path, at_path, _⟩
  rw [nothing] at at_path
  cases at_path

theorem not_opens_of_none {opened : Place} (nothing : source.path? root = none) :
    ¬ Opens root fs fs₁ source target opened := by
  rintro ⟨path, at_path, _⟩
  rw [nothing] at at_path
  cases at_path

/-- What is left of an upload when both sides are opened. -/
def send (pace : Nat → Nat) (path key : String) (chunkSize : Nat) (opened place : Place) :
    Request Nat := do
  askBuffer chunkSize
  let w ← get
  sendChunks pace path key chunkSize opened place (sizeAt w opened + 1) 0

/-- However long the chunks are, what can be read of the source is sent. -/
theorem run_send (pace : Nat → Nat) (path key : String) {chunkSize : Nat} {opened : Place}
    {t : Files.Tree} (positive : 0 < chunkSize) (fits : chunkSize ≤ greatestBuffer)
    (below : place ≠ []) (emptied : w.files.tree = t.put place (.file [])) :
    (send pace path key chunkSize opened place).run w =
      match w.files.fileAt? opened with
      | none => (.error (.error (.ofFault path .isDirectory)), w)
      | some bytes => (.ok bytes.length, w.withTree (t.put place (.file bytes))) := by
  have asked : (askBuffer chunkSize).run w = (.ok (), w) := by
    rw [askBuffer, if_pos fits]
    rfl
  rw [send, run_bind_ok asked, run_bind_ok (run_get w)]
  cases found : w.files.fileAt? opened with
  | none => exact run_sendChunks_of_none pace path key positive found place _ 0
  | some bytes =>
    have apart : opened = place → bytes = [] := by
      rintro rfl
      rw [fileAt?_eq_some_iff, emptied, Files.Tree.find?_put, if_pos ⟨rfl, below⟩] at found
      cases found
      rfl
    have enough : bytes.length - 0 < sizeAt w opened + 1 := by
      rw [sizeAt_eq found]
      omega
    exact run_sendChunks pace path key positive apart enough found below emptied

theorem run_send_long (pace : Nat → Nat) (path key : String) {chunkSize : Nat} (opened : Place)
    (long : ¬ chunkSize ≤ greatestBuffer) :
    (send pace path key chunkSize opened place).run w = (.error .noBuffer, w) := by
  have refused : (askBuffer chunkSize).run w = (.error .noBuffer, w) := by
    rw [askBuffer, if_neg long]
    rfl
  rw [send, run_bind_error refused]

/-- With both sides opened an upload asks for a buffer and sends the file. -/
theorem ends_send (pace : Nat → Nat) {path key : String} {chunkSize : Nat} {opened : Place}
    (positive : 0 < chunkSize) (lands : Lands root fs (.object key) fs₁ w.files place)
    (opens : Opens root fs fs₁ (.file path) (.object key) opened) :
    TransferEnd root fs (.file path) (.object key)
      ((send pace path key chunkSize opened place).run w).2.files
      ((send pace path key chunkSize opened place).run w).1 := by
  by_cases fits : chunkSize ≤ greatestBuffer
  · have ⟨_, _, _, created⟩ := lands
    obtain ⟨names, before, emptied⟩ := create_eq created
    rw [run_send pace path key positive fits names.below (congrArg FileSystem.tree emptied)]
    cases found : w.files.fileAt? opened with
    | none => exact .unread _ fs₁ w.files place opened lands opens nofun found lands.writes
    | some bytes =>
      refine .copied fs₁ w.files place opened bytes lands opens found ?_
      have same : (w.withTree (fs₁.tree.put place (.file bytes))).files =
          { fs₁ with tree := fs₁.tree.put place (.file bytes) } := by
        simp only [Workspace.withTree, emptied]
      rw [same]
      exact sets_put names.below before bytes
  · rw [run_send_long pace path key opened fits]
    exact .noBuffer fs₁ w.files place lands lands.writes

theorem ends_upload (pace : Nat → Nat) (root : String) {chunkSize : Nat}
    (positive : 0 < chunkSize) (path key : String) (w : Workspace) :
    TransferEnd root w.files (.file path) (.object key)
      ((upload pace root chunkSize path key).run w).2.files
      ((upload pace root chunkSize path key).run w).1 := by
  obtain ⟨w₁, files, _, _, counted⟩ := run_count .fileOp w
  rw [upload, counted, ← files]
  cases resolved : w₁.files.resolve path with
  | error e =>
    rw [run_onFiles_error (run_openRead_error resolved)]
    refine .unopened _ ?_ (.refl _)
    rintro fs₁ fs₂ place opened _ ⟨_, at_path, node, found⟩
    cases at_path
    rw [resolved] at found
    cases found
  | ok reached =>
    obtain ⟨opened, node⟩ := reached
    rw [run_onFiles_ok (run_openRead_ok resolved)]
    simp only [openForWriting, bind_assoc]
    cases at_path : Key.path? root key with
    | none =>
      rw [run_askPath_none at_path]
      exact .unopened _ (fun _ _ _ _ lands => absurd lands (not_lands_of_none at_path)) (.refl _)
    | some objectPath =>
      obtain ⟨w₂, files, _, _, counted⟩ := run_count .storageOp w₁
      rw [run_askPath_ok at_path, counted, ← files]
      rcases run_open_cases (.object key) at_path key w₂ with
        ⟨e, fs', grown, closed, ran⟩ | ⟨fs₁, fs₂, place, lands, ran⟩
      · simp only [Operand.makeAbove] at ran
        rw [ran]
        exact .unopened e (fun _ _ _ _ lands => absurd lands (closed _ _ _)) grown
      · simp only [Operand.makeAbove] at ran
        rw [ran]
        have opens : Opens root w₂.files fs₁ (.file path) (.object key) opened :=
          ⟨path, rfl, node, files ▸ resolved⟩
        exact ends_send (w := { w₂ with files := fs₂ }) pace positive lands opens

/-- With both sides opened a download reads all and writes it. -/
theorem ends_download (root key path : String) (w : Workspace) :
    TransferEnd root w.files (.object key) (.file path) ((download root key path).run w).2.files
      ((download root key path).run w).1 := by
  simp only [download, openForReading, bind_assoc]
  cases at_path : Key.path? root key with
  | none =>
    rw [run_askPath_none at_path]
    exact .unopened _ (fun _ _ _ _ _ => not_opens_of_none at_path) (.refl _)
  | some objectPath =>
    obtain ⟨w₁, files, _, _, counted⟩ := run_count .storageOp w
    rw [run_askPath_ok at_path, counted, ← files]
    cases resolved : w₁.files.resolve objectPath with
    | error e =>
      rw [run_onFiles_error (run_openRead_error resolved)]
      refine .unopened _ ?_ (.refl _)
      rintro fs₁ fs₂ place opened _ ⟨_, at_path', node, found⟩
      cases at_path.symm.trans at_path'
      cases resolved.symm.trans found
    | ok reached =>
      obtain ⟨opened, node⟩ := reached
      rw [run_onFiles_ok (run_openRead_ok resolved)]
      obtain ⟨w₂, files, _, _, counted⟩ := run_count .fileOp w₁
      rw [counted, ← files]
      rcases run_open_cases (.file path) rfl path w₂ with
        ⟨e, fs', grown, closed, ran⟩ | ⟨fs₁, fs₂, place, lands, ran⟩
      · simp only [Operand.makeAbove] at ran
        rw [ran]
        exact .unopened e (fun _ _ _ _ lands => absurd lands (closed _ _ _)) grown
      · simp only [Operand.makeAbove] at ran
        rw [ran]
        have opens : Opens root w₂.files fs₁ (.object key) (.file path) opened :=
          ⟨objectPath, at_path, node, files ▸ resolved⟩
        have emptied := lands.writes
        cases found : fs₂.fileAt? opened with
        | none =>
          have failed : (readAll opened).run fs₂ = (.error .isDirectory, fs₂) := by
            rw [run_readAll, found]
          rw [run_onFiles_error (w := { w₂ with files := fs₂ }) failed]
          exact .unread _ fs₁ fs₂ place opened lands opens nofun found emptied
        | some bytes =>
          have all : (readAll opened).run fs₂ = (.ok bytes, fs₂) := by
            rw [run_readAll, found]
          obtain ⟨fs₃, appended, writes⟩ := run_append emptied.fileAt?_self bytes
          rw [run_onFiles_ok (w := { w₂ with files := fs₂ }) all,
            run_onFiles_ok (w := { w₂ with files := fs₂ }) appended]
          exact .copied fs₁ fs₂ place opened bytes lands opens found (emptied.trans writes)

theorem ends_copyObject (root source target : String) (w : Workspace) :
    TransferEnd root w.files (.object source) (.object target)
      ((copyObject root source target).run w).2.files
      ((copyObject root source target).run w).1 := by
  rw [copyObject]
  cases at_source : Key.path? root source with
  | none =>
    rw [run_askPath_none at_source]
    exact .unopened _ (fun _ _ _ _ _ => not_opens_of_none at_source) (.refl _)
  | some sourcePath =>
    rw [run_askPath_ok at_source]
    cases at_target : Key.path? root target with
    | none =>
      rw [run_askPath_none at_target]
      exact .unopened _ (fun _ _ _ _ lands => absurd lands (not_lands_of_none at_target)) (.refl _)
    | some targetPath =>
      obtain ⟨w₁, files, _, _, counted⟩ := run_count .storageOp w
      rw [run_askPath_ok at_target, counted, ← files]
      have grown : Grown w₁.files ((makeParents targetPath).run w₁.files).2 :=
        (Operand.object target).grows_makeAbove targetPath w₁.files
      rcases made : (makeParents targetPath).run w₁.files with ⟨e | _, fs₁⟩
      · rw [made] at grown
        rw [run_onFiles_error made]
        refine .unopened _ ?_ grown
        rintro _ _ _ _ ⟨_, at_path, made', _⟩
        cases at_target.symm.trans at_path
        cases made.symm.trans made'
      · rw [made] at grown
        rw [run_onFiles_ok made, run_onFiles]
        rcases run_copy_cases sourcePath targetPath fs₁ with
          ⟨f, ran, closed⟩ | ⟨opened, bytes, fs₂, place, found, fs₃, resolved, created, readable,
            writes, ran⟩
        · simp only [ran]
          refine .unopened _ ?_ grown
          rintro _ fs₂ place opened ⟨_, at_path, made', created⟩ ⟨_, at_path', bytes, resolved⟩
          cases at_target.symm.trans at_path
          cases at_source.symm.trans at_path'
          cases made.symm.trans made'
          exact closed opened bytes resolved fs₂ place created
        · simp only [ran]
          exact .copied fs₁ fs₂ place opened found ⟨targetPath, at_target, made, created⟩
            ⟨sourcePath, at_source, bytes, resolved⟩ readable writes

/-- Every transfer that a command can ask for ends in one of these ways. -/
theorem ends_transfer (pace : Nat → Nat) (site : Site) (positive : 0 < site.chunkSize)
    (source target : Operand) (kinds : source.isObject = true ∨ target.isObject = true)
    (w : Workspace) :
    TransferEnd site.root w.files source target
      ((Command.transfer pace site source target).run w).2.files
      ((Command.transfer pace site source target).run w).1 := by
  cases source with
  | file path =>
    cases target with
    | object key => exact ends_upload pace site.root positive path key w
    | file other => cases kinds <;> contradiction
  | object key =>
    cases target with
    | object other => exact ends_copyObject site.root key other w
    | file path => exact ends_download site.root key path w

end CommandPool.Store
