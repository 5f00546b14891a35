import CommandPool.Proofs.Store.Chunks

/-!
# Whose key is refused

A key that a request refuses is one that it was given: nothing that happens to a file is a fault of
a key.  `RefusesOnly P` says of a request that every key it refuses has the property `P`, so that a
request is taken apart part by part and only the keys are asked about.
-/

namespace CommandPool.Store

/-- The keys that the request refuses have `P`. -/
def RefusesOnly {α : Type} (P : String → Prop) (request : Request α) : Prop :=
  ∀ w key, (request.run w).1 = .error (.error (.invalidKey key)) → P key

variable {α β : Type} {P : String → Prop} {request : Request α}
  {root source target key : String}

/-! ## Parts of requests -/

theorem RefusesOnly.bind {rest : α → Request β} (first : RefusesOnly P request)
    (onward : ∀ a, RefusesOnly P (rest a)) : RefusesOnly P (request >>= rest) := by
  intro w key refused
  rcases ran : request.run w with ⟨failure | a, w'⟩
  · rw [run_bind_error ran] at refused
    cases refused
    exact first w key (congrArg Prod.fst ran)
  · rw [run_bind_ok ran] at refused
    exact onward a w' key refused

theorem refusesOnly_pure (a : α) : RefusesOnly P (pure a : Request α) := nofun

theorem refusesOnly_get : RefusesOnly P (get : Request Workspace) := nofun

theorem refusesOnly_count (c : Counter) : RefusesOnly P (count c) := nofun

theorem refusesOnly_askBuffer (length : Nat) : RefusesOnly P (askBuffer length) := by
  unfold askBuffer
  split <;> exact nofun

/-- A fault of a file is none of a key. -/
theorem refusesOnly_onFiles (context : String) (act : Files.Act α) :
    RefusesOnly P (onFiles context act) := by
  intro w key refused
  rw [run_onFiles] at refused
  cases answer : (act.run w.files).1 with
  | error fault =>
    rw [answer] at refused
    have other : StoreError.ofFault context fault ≠ .invalidKey key := by
      unfold StoreError.ofFault
      split <;> exact nofun
    cases other (Failure.error.inj (Except.error.inj refused))
  | ok a =>
    rw [answer] at refused
    cases refused

theorem refusesOnly_askPath (given : P key) : RefusesOnly P (askPath root key) := by
  intro w other refused
  unfold askPath pathOfKey at refused
  cases at_path : Key.path? root key with
  | none =>
    rw [at_path] at refused
    cases refused
    exact given
  | some p =>
    rw [at_path] at refused
    cases refused

/-! ## Single objects -/

theorem refusesOnly_openForReading (given : P key) : RefusesOnly P (openForReading root key) :=
  (refusesOnly_askPath given).bind fun _ => (refusesOnly_count _).bind fun _ =>
    refusesOnly_onFiles _ _

theorem refusesOnly_openForWriting (given : P key) : RefusesOnly P (openForWriting root key) :=
  (refusesOnly_askPath given).bind fun _ => (refusesOnly_count _).bind fun _ =>
    (refusesOnly_onFiles _ _).bind fun _ => refusesOnly_onFiles _ _

theorem refusesOnly_copyObject (one : P source) (other : P target) :
    RefusesOnly P (copyObject root source target) :=
  (refusesOnly_askPath one).bind fun _ => (refusesOnly_askPath other).bind fun _ =>
    (refusesOnly_count _).bind fun _ => (refusesOnly_onFiles _ _).bind fun _ =>
      refusesOnly_onFiles _ _

theorem refusesOnly_removeObject (given : P key) : RefusesOnly P (removeObject root key) :=
  (refusesOnly_askPath given).bind fun _ => (refusesOnly_count _).bind fun _ =>
    refusesOnly_onFiles _ _

/-! ## Local files -/

theorem refusesOnly_removeFile (path : String) : RefusesOnly P (removeFile path) :=
  (refusesOnly_count _).bind fun _ => refusesOnly_onFiles _ _

/-- Chunks are sent to a file that is open, and no key is looked at again. -/
theorem refusesOnly_sendChunks (pace : Nat → Nat) (context key : String) (chunkSize : Nat)
    (source target : Files.Place) (budget offset : Nat) :
    RefusesOnly P (sendChunks pace context key chunkSize source target budget offset) := by
  induction budget generalizing offset with
  | zero => exact refusesOnly_pure 0
  | succ budget ih =>
    refine (refusesOnly_onFiles _ _).bind fun chunk => ?_
    split
    next => exact refusesOnly_pure 0
    next =>
      exact (refusesOnly_onFiles _ _).bind fun _ => (ih _).bind fun _ => refusesOnly_pure _

theorem refusesOnly_upload (pace : Nat → Nat) (chunkSize : Nat) (path : String) (given : P key) :
    RefusesOnly P (upload pace root chunkSize path key) :=
  (refusesOnly_count _).bind fun _ => (refusesOnly_onFiles _ _).bind fun _ =>
    (refusesOnly_openForWriting given).bind fun _ => (refusesOnly_askBuffer _).bind fun _ =>
      refusesOnly_get.bind fun _ => refusesOnly_sendChunks _ _ _ _ _ _ _ _

theorem refusesOnly_download (path : String) (given : P key) :
    RefusesOnly P (download root key path) :=
  (refusesOnly_openForReading given).bind fun _ => (refusesOnly_count _).bind fun _ =>
    (refusesOnly_onFiles _ _).bind fun _ => (refusesOnly_onFiles _ _).bind fun _ =>
      (refusesOnly_onFiles _ _).bind fun _ => (refusesOnly_onFiles _ _).bind fun _ =>
        refusesOnly_pure _

end CommandPool.Store
