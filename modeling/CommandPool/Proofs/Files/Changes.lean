import CommandPool.Proofs.Files.Touches
import Mathlib.Logic.Relation

/-!
# Changes of the files

Commands that run at the same time change the files by turns, one operation after the other.  What
all operations have in common is what they leave of a file that is held open: it stays held, and
until it is removed it is the one that was opened.  So what was opened as a file can be read to its
end, whatever happens to it (`heldBytes?_isSome_of_changes`).
-/

namespace CommandPool.Files.FileSystem

variable {α β : Type} {fs fs' : FileSystem} {p : String} {place : Place} {bytes : List UInt8}

/-! ## Operations -/

/-- An operation that changes the files, whatever its answer. -/
inductive Change (fs : FileSystem) : FileSystem → Prop where
  | create (p : String) : Change fs ((create p).run fs).2
  | append (place : Place) (bytes : List UInt8) : Change fs ((append place bytes).run fs).2
  | createDir (p : String) : Change fs ((createDir p).run fs).2
  | removeFile (p : String) : Change fs ((removeFile p).run fs).2

/-- Several operations after each other. -/
abbrev Changes : FileSystem → FileSystem → Prop := Relation.ReflTransGen Change

theorem Changes.of_eq (same : fs' = fs) : Changes fs fs' := same ▸ .refl

theorem Changes.bind {act : Act α} {f : α → Act β} (first : Changes fs (act.run fs).2)
    (rest : ∀ a fs', Changes fs' ((f a).run fs').2) : Changes fs ((act >>= f).run fs).2 :=
  bind_respects (R := Changes) Relation.ReflTransGen.trans first fun a fs' _ => rest a fs'

theorem changes_ask (question : FileSystem → Except Fault α) (fs : FileSystem) :
    Changes fs ((ask question).run fs).2 :=
  .of_eq (by rw [run_ask])

theorem changes_createDirAll (p : String) (fs : FileSystem) :
    Changes fs ((createDirAll p).run fs).2 :=
  createDirs_respects (R := Changes) (P := fun _ => True) (fun _ => .refl)
    Relation.ReflTransGen.trans (fun _ _ => trivial) (fun _ _ => .single (.createDir _)) p.length
    trivial fs

theorem changes_copy (source target : String) (fs : FileSystem) :
    Changes fs ((copy source target).run fs).2 := by
  refine (changes_ask _ fs).bind fun ⟨opened, node⟩ fs' => ?_
  cases node with
  | dir => exact .refl
  | file bytes =>
    refine Changes.bind (.single (.create target)) fun place fs₁ => ?_
    refine Changes.bind (.of_eq (run_readAll_snd opened fs₁)) fun read fs₂ => ?_
    exact Changes.bind (.single (.append place read)) fun _ fs₃ => .refl

/-! ## What an operation changes -/

/-- The files after an operation: a file was written where no directory was, a directory was made
where nothing was, a file was removed, or nothing has changed. -/
inductive Changed (fs : FileSystem) : FileSystem → Prop where
  | same : Changed fs fs
  | written {place : Place} (bytes : List UInt8) : place ≠ [] → fs.tree.find? place ≠ some .dir →
      Changed fs { fs with tree := fs.tree.put place (.file bytes) }
  | made {place : Place} : fs.tree.find? place = none →
      Changed fs { fs with tree := fs.tree.put place .dir }
  | removed {place : Place} {bytes : List UInt8} : place ≠ [] → fs.fileAt? place = some bytes →
      Changed fs { fs with tree := fs.tree.erase place
                           held := fs.held.map (Held.afterRemoval place bytes) }

theorem changed_createDir (p : String) (fs : FileSystem) :
    Changed fs ((createDir p).run fs).2 := by
  rw [createDir]
  cases reached : fs.reach p with
  | error f => rw [run_ask_error reached]; exact .same
  | ok r =>
    rw [run_ask_ok reached]
    cases ending : r.ending with
    | dots => exact .same
    | name name =>
      simp only
      by_cases long : name.utf8ByteSize > longestName
      · rw [run_ask_error (if_pos long)]
        exact .same
      · rw [run_ask_ok (lookup_ok long)]
        cases found : fs.tree.find? (r.dir ++ [name]) with
        | some node => exact .same
        | none => exact .made found

theorem changed_removeFile (p : String) (fs : FileSystem) :
    Changed fs ((removeFile p).run fs).2 := by
  rw [removeFile]
  cases reached : fs.reach p with
  | error f => rw [run_ask_error reached]; exact .same
  | ok r =>
    rw [run_ask_ok reached]
    cases ending : r.ending with
    | dots => exact .same
    | name name =>
      simp only
      by_cases long : name.utf8ByteSize > longestName
      · rw [run_ask_error (if_pos long)]
        exact .same
      · rw [run_ask_ok (lookup_ok long)]
        rcases found : fs.tree.find? (r.dir ++ [name]) with _ | (bytes | _)
        · exact .same
        · by_cases slash : r.slash = true
          · simp only [if_pos slash]
            exact .same
          · simp only [if_neg slash]
            exact .removed (by simp) (fileAt?_eq_some_iff.mpr found)
        · exact .same

theorem Change.changed (change : Change fs fs') : Changed fs fs' := by
  cases change with
  | create p =>
    rcases create_cases p fs with ⟨f, ran⟩ | ⟨place, names, before, ran⟩
    · rw [ran]
      exact .same
    · rw [ran]
      exact .written [] names.below before
  | append place new =>
    cases found : fs.fileAt? place with
    | some bytes =>
      rw [run_append_eq found]
      exact .written _ (below_of_fileAt? found) (by simp [fileAt?_eq_some_iff.mp found])
    | none =>
      rw [run_append_of_none found]
      exact .same
  | createDir p => exact changed_createDir p fs
  | removeFile p => exact changed_removeFile p fs

/-! ## What is held -/

/-- The bytes of the file that is held open. -/
def heldBytes? (fs : FileSystem) : Option (List UInt8) :=
  match fs.held with
  | some (.present place) => fs.fileAt? place
  | some (.removed bytes) => some bytes
  | none => none

theorem heldBytes?_present (held : fs.held = some (.present place)) :
    fs.heldBytes? = fs.fileAt? place := by
  rw [heldBytes?, held]

theorem heldBytes?_removed (held : fs.held = some (.removed bytes)) :
    fs.heldBytes? = some bytes := by
  rw [heldBytes?, held]

theorem run_readHeld_present (held : fs.held = some (.present place)) (offset count : Nat) :
    (readHeld offset count).run fs = (readAt place offset count).run fs := by
  rw [readHeld, run_bind_ok (run_get fs), held]

/-- The bytes that are held are read from the offset on. -/
theorem run_readHeld (held : fs.heldBytes? = some bytes) (offset count : Nat) :
    (readHeld offset count).run fs = (.ok ((bytes.drop offset).take count), fs) := by
  rcases at_held : fs.held with _ | (place | old)
  · rw [heldBytes?, at_held] at held
    cases held
  · rw [heldBytes?_present at_held] at held
    rw [run_readHeld_present at_held, run_readAt, held]
  · cases (heldBytes?_removed at_held).symm.trans held
    rw [readHeld, run_bind_ok (run_get fs), at_held]
    rfl

/-- If what is held is no file, no read of it succeeds, or nothing is held. -/
theorem run_readHeld_of_none (held : fs.heldBytes? = none) (offset count : Nat) :
    (readHeld offset count).run fs =
      (if fs.held.isSome then .error .isDirectory else .ok [], fs) := by
  rcases at_held : fs.held with _ | (place | old)
  · rw [readHeld, run_bind_ok (run_get fs), at_held]
    rfl
  · rw [heldBytes?_present at_held] at held
    rw [run_readHeld_present at_held, run_readAt, held]
    rfl
  · cases (heldBytes?_removed at_held).symm.trans held

theorem heldBytes?_isSome_of_files (held : fs.heldBytes?.isSome = true)
    (kept : fs'.held = fs.held)
    (files : ∀ place, (fs.fileAt? place).isSome = true → (fs'.fileAt? place).isSome = true) :
    fs'.heldBytes?.isSome = true := by
  unfold heldBytes? at held ⊢
  rw [kept]
  generalize fs.held = now at held
  rcases now with _ | (place | old)
  · cases held
  · exact files place held
  · rfl

/-- A file that is held stays one, with these bytes or others. -/
theorem Changed.heldBytes?_isSome (changed : Changed fs fs') (held : fs.heldBytes?.isSome = true) :
    fs'.heldBytes?.isSome = true := by
  cases changed with
  | same => exact held
  | written bytes below before =>
    refine heldBytes?_isSome_of_files held rfl fun other found => ?_
    rw [(sets_put below before bytes).fileAt?]
    split
    next => rfl
    next => exact found
  | made absent =>
    refine heldBytes?_isSome_of_files held rfl fun other found => ?_
    rw [(grown_put absent).files]
    exact found
  | @removed place bytes below found =>
    have before : fs.tree.find? place ≠ some .dir := by simp [fileAt?_eq_some_iff.mp found]
    have after := (sets_erase below before (fs.held.map (Held.afterRemoval place bytes))).fileAt?
    generalize ended : ({ fs with tree := _, held := _ } : FileSystem) = fs' at after ⊢
    have now : fs'.held = fs.held.map (Held.afterRemoval place bytes) := ended ▸ rfl
    unfold heldBytes? at held ⊢
    rw [now]
    generalize fs.held = before at held
    rcases before with _ | (other | old)
    · cases held
    · by_cases here : other = place
      · simp [Held.afterRemoval, here]
      · have same := (after other).trans (if_neg here)
        simp only [Option.map_some, Held.afterRemoval, if_neg here, same]
        exact held
    · rfl

theorem Changed.held_isSome (changed : Changed fs fs') : fs'.held.isSome = fs.held.isSome := by
  cases changed with
  | removed => exact Option.isSome_map
  | _ => rfl

/-- What is held stays held. -/
theorem held_isSome_of_changes (changes : Changes fs fs') : fs'.held.isSome = fs.held.isSome := by
  induction changes with
  | refl => rfl
  | tail _ change ih => exact change.changed.held_isSome.trans ih

/-- What was opened as a file can be read to its end, whatever commands do to it. -/
theorem heldBytes?_isSome_of_changes (changes : Changes fs fs')
    (held : fs.heldBytes?.isSome = true) : fs'.heldBytes?.isSome = true := by
  induction changes with
  | refl => exact held
  | tail _ change ih => exact change.changed.heldBytes?_isSome ih

end CommandPool.Files.FileSystem
