import CommandPool.Command.Line
import CommandPool.Proofs.Store.Transfers

/-!
# Keys that are refused

A request checks its keys before it does anything else.  But a command may be more than one
request, and before it asks for an object an upload counts a file and opens it, which may fail.
So what is refused depends on the other operand, while what is left behind does not: the files,
the log and the count of storage operations are as they were.
-/

namespace CommandPool.Command

open Store (Operand Site StoreError Workspace)
open Files (FileSystem)
open Files.FileSystem

variable {α : Type} {root key path : String} {source target : Operand} {c : Command}
  {pace : Nat → Nat} {site : Site} {w w' : Workspace} {fs : FileSystem} {e : StoreError}

/-- What a command works on: its source, and its target as that is resolved. -/
def worksOn (fs : FileSystem) : Command → List Operand
  | .copy source target => [source, target.resolveTarget fs source]
  | .move source target => [source, target.resolveTarget fs source]
  | .remove target => [target]
  | .list _ => []

/-- Why operands are refused.  A local source is opened before the key of the target is looked at,
and the key of a source comes before that of the target. -/
inductive Refusal (root : String) (fs : FileSystem) : List Operand → StoreError → Prop where
  /-- The local source cannot be opened. -/
  | unopened {path : String} {target : Operand} {fault : Files.Fault} :
      fs.resolve path = .error fault → Refusal root fs [.file path, target] (.ofFault path fault)
  /-- The first operand is no key. -/
  | first {key : String} {rest : List Operand} : Store.Key.path? root key = none →
      Refusal root fs (.object key :: rest) (.invalidKey key)
  /-- The target of an upload is no key. -/
  | upload {path key : String} {reached : Files.Place × Files.Node} :
      fs.resolve path = .ok reached → Store.Key.path? root key = none →
      Refusal root fs [.file path, .object key] (.invalidKey key)
  /-- The target of a copy within the store is no key. -/
  | copy {one key : String} : Store.Key.path? root one ≠ none →
      Store.Key.path? root key = none →
      Refusal root fs [.object one, .object key] (.invalidKey key)

/-- Nothing was changed, and the store was asked for nothing. -/
structure Unasked (w w' : Workspace) : Prop where
  files : w'.files = w.files
  log : w'.log = w.log
  storageOp : w'.counters.storageOp = w.counters.storageOp

theorem Unasked.refl (w : Workspace) : Unasked w w := ⟨rfl, rfl, rfl⟩

/-- A request is refused for its operands, and changes nothing. -/
def Refuses (root : String) (request : Store.Request α) (operands : List Operand)
    (w : Workspace) : Prop :=
  ∃ e w', request.run w = (.error (.error e), w') ∧ Refusal root w.files operands e ∧ Unasked w w'

/-! ## Requests -/

theorem path?_of_pathOfKey (rejected : Store.pathOfKey root key = .error e) :
    Store.Key.path? root key = none := by
  rw [Store.pathOfKey] at rejected
  cases at_path : Store.Key.path? root key with
  | none => rfl
  | some p =>
    rw [at_path] at rejected
    cases rejected

theorem refuses_upload (pace : Nat → Nat) (root : String) (chunkSize : Nat) (path : String)
    (rejected : Store.Key.path? root key = none) (w : Workspace) :
    Refuses root (Store.upload pace root chunkSize path key) [.file path, .object key] w := by
  let w₁ : Workspace := { w with counters := w.counters.bump .fileOp }
  have counted : (Store.count .fileOp).run w = (.ok (), w₁) := rfl
  rw [Refuses, Store.upload, run_bind_ok counted]
  cases resolved : w.files.resolve path with
  | error fault =>
    have failed : (openRead path).run w₁.files = (.error fault, w.files) :=
      run_openRead_error resolved
    rw [Store.run_onFiles_error failed]
    exact ⟨_, _, rfl, .unopened resolved, rfl, rfl, rfl⟩
  | ok reached =>
    have opened : (openRead path).run w₁.files = (.ok reached.1, w.files) :=
      run_openRead_ok resolved
    rw [Store.run_onFiles_ok opened, Store.openForWriting, bind_assoc,
      Store.run_askPath_none rejected]
    exact ⟨_, _, rfl, .upload resolved rejected, rfl, rfl, rfl⟩

theorem refuses_download (root path : String) (rejected : Store.Key.path? root key = none)
    (w : Workspace) : Refuses root (Store.download root key path) [.object key, .file path] w := by
  rw [Refuses, Store.download, Store.openForReading, bind_assoc, Store.run_askPath_none rejected]
  exact ⟨_, w, rfl, .first rejected, .refl w⟩

theorem refuses_copyObject (root one other : String)
    (rejected : Store.Key.path? root one = none ∨ Store.Key.path? root other = none)
    (w : Workspace) :
    Refuses root (Store.copyObject root one other) [.object one, .object other] w := by
  rw [Refuses, Store.copyObject]
  cases at_source : Store.Key.path? root one with
  | none =>
    rw [Store.run_askPath_none at_source]
    exact ⟨_, w, rfl, .first at_source, .refl w⟩
  | some p =>
    have at_target : Store.Key.path? root other = none := by simpa [at_source] using rejected
    rw [Store.run_askPath_ok at_source, Store.run_askPath_none at_target]
    exact ⟨_, w, rfl, .copy (by simp [at_source]) at_target, .refl w⟩

theorem refuses_removeObject (root : String) (rejected : Store.Key.path? root key = none)
    (w : Workspace) : Refuses root (Store.removeObject root key) [.object key] w := by
  rw [Refuses, Store.removeObject, Store.run_askPath_none rejected]
  exact ⟨_, w, rfl, .first rejected, .refl w⟩

/-! ## Commands -/

theorem refuses_transfer (pace : Nat → Nat) (site : Site) (member : .object key ∈ [source, target])
    (rejected : Store.Key.path? site.root key = none) (w : Workspace) :
    Refuses site.root (transfer pace site source target) [source, target] w := by
  cases source with
  | file path =>
    cases target with
    | object other =>
      obtain rfl : key = other := by simpa using member
      exact refuses_upload pace site.root site.chunkSize path rejected w
    | file path' => simp at member
  | object one =>
    cases target with
    | object other =>
      refine refuses_copyObject site.root one other ?_ w
      have either : key = one ∨ key = other := by simpa using member
      rcases either with rfl | rfl
      · exact Or.inl rejected
      · exact Or.inr rejected
    | file path =>
      obtain rfl : key = one := by simpa using member
      exact refuses_download site.root path rejected w

/-- What comes after a part that is refused does not happen. -/
theorem Refuses.bind {β : Type} {request : Store.Request α} {operands : List Operand}
    (refuses : Refuses root request operands w) (f : α → Store.Request β) :
    Refuses root (request >>= f) operands w := by
  obtain ⟨e, w', ran, refusal, unasked⟩ := refuses
  exact ⟨e, w', run_bind_error ran f, refusal, unasked⟩

theorem refuses_runCopy (pace : Nat → Nat) (site : Site)
    (member : .object key ∈ [source, target.resolveTarget w.files source])
    (rejected : Store.Key.path? site.root key = none) :
    Refuses site.root (runCopy pace site source target)
      [source, target.resolveTarget w.files source] w := by
  rw [Refuses, runCopy, run_bind_ok (run_get w)]
  exact refuses_transfer pace site member rejected w

theorem refuses_runAt (pace : Nat → Nat) (site : Site) (member : .object key ∈ c.worksOn w.files)
    (rejected : Store.Key.path? site.root key = none) :
    Refuses site.root (runAt pace site c) (c.worksOn w.files) w := by
  cases c with
  | copy source target => exact (refuses_runCopy pace site member rejected).bind _
  | move source target => exact (refuses_runCopy pace site member rejected).bind _
  | remove target =>
    obtain rfl : .object key = target := by simpa [worksOn] using member
    exact refuses_removeObject site.root rejected w
  | list stem => cases member

/-- A command one of whose operands is an object with an invalid key fails, for its local source if
that cannot be opened, and otherwise for the first such key.  The files, the log and the count of
storage operations are as they were, so that the source of a move is still there. -/
theorem invalid_keys_have_no_effect {result : Except Store.Failure Unit}
    (member : .object key ∈ c.worksOn w.files)
    (rejected : Store.pathOfKey site.root key = .error e)
    (ran : (runAt pace site c).run w = (result, w')) :
    (∃ e, result = .error (.error e) ∧ Refusal site.root w.files (c.worksOn w.files) e ∧
      ∀ key, e = .invalidKey key →
        e.toJobError = .other ("invalid object key: " ++ Text.quoted key) []) ∧
      w'.files = w.files ∧ w'.log = w.log ∧
      w'.counters.storageOp = w.counters.storageOp := by
  obtain ⟨e, w₁, refused, refusal, unasked⟩ :=
    refuses_runAt pace site member (path?_of_pathOfKey rejected)
  cases refused.symm.trans ran
  refine ⟨⟨e, rfl, refusal, ?_⟩, unasked.files, unasked.log, unasked.storageOp⟩
  rintro key rfl
  rfl

/-- A directory for a store, and a file beside it. -/
def doorstep : Workspace :=
  ⟨⟨⟨[(["store"], .dir), (["x"], .file [97])]⟩, [], none⟩, .zero, []⟩

/-- The move of the file to a place above the store, by a key that is complete only with its
name. -/
def smuggle : Command := .move (.file "x") (.object "../")

/-- How it ends. -/
def smuggled : Except Store.Failure Unit × Workspace := (run ⟨"store", 4⟩ smuggle).run doorstep

theorem invalid_keys_have_no_effect_smuggle :
    parse "mv x store://../" = .ok smuggle ∧
      smuggle.worksOn doorstep.files = [.file "x", .object "../x"] ∧
      Store.pathOfKey "store" "../x" = .error (.invalidKey "../x") ∧
      (∃ e, smuggled.1 = .error (.error e) ∧
        Refusal "store" doorstep.files (smuggle.worksOn doorstep.files) e ∧
        ∀ key, e = .invalidKey key →
          e.toJobError = .other ("invalid object key: " ++ Text.quoted key) []) ∧
      smuggled.2.files = doorstep.files := by
  have works : smuggle.worksOn doorstep.files = [.file "x", .object "../x"] := by decide +kernel
  have rejected : Store.pathOfKey "store" "../x" = .error (.invalidKey "../x") := by
    decide +kernel
  have member : .object "../x" ∈ smuggle.worksOn doorstep.files := by simp [works]
  have ran : (runAt fullPace ⟨"store", 4⟩ smuggle).run doorstep = (smuggled.1, smuggled.2) := rfl
  obtain ⟨refused, kept, _, _⟩ := invalid_keys_have_no_effect member rejected ran
  exact ⟨by decide +kernel, works, rejected, refused, kept⟩

end CommandPool.Command
