import CommandPool.Proofs.Files.Operations
import CommandPool.Store.LocalFile

/-!
# Sending a file in chunks

However short the reads are, a chunk is what is left of the file up to the chunk size,
and the chunks that are sent add up to the file.  This holds as long as the target is
another file.  A target that is the source itself was emptied when it was opened, and
then there is nothing to send.
-/

namespace CommandPool.Store

open Files (Place)
open Files.FileSystem

variable {α β : Type} {w : Workspace} {fs : Files.FileSystem} {t : Files.Tree}
  {bytes old : List UInt8}

/-! ## Requests -/

theorem run_onFiles (context : String) (act : Files.Act α) (w : Workspace) :
    (onFiles context act).run w =
      ((act.run w.files).1.mapError fun e => .error (.ofFault context e),
        { w with files := (act.run w.files).2 }) := by
  rw [onFiles, run_bind_ok (run_get w)]
  rcases act.run w.files with ⟨_ | _, fs⟩ <;> rfl

theorem run_onFiles_ok {context : String} {act : Files.Act α} {a : α}
    (ran : act.run w.files = (.ok a, fs)) (f : α → Request β) :
    (onFiles context act >>= f).run w = (f a).run { w with files := fs } := by
  rw [run_bind, run_onFiles, ran]
  rfl

theorem run_onFiles_error {context : String} {act : Files.Act α} {e : Files.Fault}
    (ran : act.run w.files = (.error e, fs)) (f : α → Request β) :
    (onFiles context act >>= f).run w =
      (.error (.error (.ofFault context e)), { w with files := fs }) := by
  rw [run_bind, run_onFiles, ran]
  rfl

/-- Counting leaves the files and the log alone. -/
theorem run_count (c : Counter) (w : Workspace) :
    ∃ w', w'.files = w.files ∧ w'.counters = w.counters.bump c ∧ w'.log = w.log ∧
      ∀ {β : Type} (f : Unit → Request β), (count c >>= f).run w = (f ()).run w' :=
  ⟨{ w with counters := w.counters.bump c }, rfl, rfl, rfl,
    fun f => run_bind_ok (run_modify _ w) f⟩

/-- The workspace with another tree. -/
def Workspace.withTree (w : Workspace) (t : Files.Tree) : Workspace :=
  { w with files := { w.files with tree := t } }

/-! ## One chunk -/

theorem take_length_take (l : List α) (k : Nat) : l.take (l.take k).length = l.take k := by
  rw [List.take_eq_take_iff, List.length_take]
  omega

/-- What a first read gives, and what is read behind it, is what was wanted. -/
theorem take_append_take_drop (l : List α) {k n : Nat} (less : k ≤ n) :
    l.take k ++ (l.drop (l.take k).length).take (n - (l.take k).length) = l.take n := by
  have short : (l.take k).length ≤ n := Nat.le_trans (List.length_take_le k l) less
  calc l.take k ++ (l.drop (l.take k).length).take (n - (l.take k).length)
      = l.take (l.take k).length ++
          (l.drop (l.take k).length).take (n - (l.take k).length) := by rw [take_length_take]
    _ = l.take ((l.take k).length + (n - (l.take k).length)) := (List.take_add ..).symm
    _ = l.take n := by rw [Nat.add_sub_cancel' short]

/-- A chunk and what is left behind it is what was left before. -/
theorem take_append_drop_length (l : List α) (k : Nat) :
    l.take k ++ l.drop (l.take k).length = l := by
  calc l.take k ++ l.drop (l.take k).length
      = l.take (l.take k).length ++ l.drop (l.take k).length := by rw [take_length_take]
    _ = l := List.take_append_drop _ l

/-- A chunk is what is left of a file, up to its length. -/
theorem run_fillChunk (pace : Nat → Nat) {place : Place}
    (found : fs.fileAt? place = some bytes) {want room : Nat} (enough : want ≤ room)
    (offset : Nat) :
    (fillChunk pace place offset want room).run fs =
      (.ok ((bytes.drop offset).take want), fs) := by
  induction room generalizing want offset with
  | zero =>
    obtain rfl := Nat.le_zero.mp enough
    rfl
  | succ room ih =>
    cases want with
    | zero => rfl
    | succ want =>
      have read : (readAt place offset (min (want + 1) (pace offset + 1))).run fs =
          (.ok ((bytes.drop offset).take (min (want + 1) (pace offset + 1))), fs) := by
        rw [run_readAt, found]
      rw [fillChunk, run_bind_ok read]
      split
      next nothing =>
        rw [List.take_eq_nil_iff] at nothing
        have ended : bytes.drop offset = [] := nothing.resolve_left (by omega)
        rw [ended]
        rfl
      next something =>
        have positive := List.length_pos_iff.mpr something
        have less := Nat.min_le_left (want + 1) (pace offset + 1)
        rw [run_bind_ok (ih (by omega) _), ← List.drop_drop,
          ← take_append_take_drop (bytes.drop offset) less]
        rfl

/-- Of what is no file nothing can be read. -/
theorem run_fillChunk_of_none (pace : Nat → Nat) {place : Place}
    (missing : fs.fileAt? place = none) {want : Nat} (positive : 0 < want) (offset : Nat) :
    (fillChunk pace place offset want want).run fs = (.error .isDirectory, fs) := by
  cases want with
  | zero => cases positive
  | succ want =>
    rw [fillChunk, run_bind_error]
    rw [run_readAt, missing]

/-! ## All chunks -/

/-- What is left of the source is added to the target. -/
theorem run_sendChunks (pace : Nat → Nat) (context key : String) {chunkSize : Nat}
    (positive : 0 < chunkSize) {source target : Place} (apart : source = target → bytes = [])
    {budget offset : Nat} (enough : bytes.length - offset < budget)
    (found : w.files.fileAt? source = some bytes) (below : target ≠ [])
    (opened : w.files.tree = t.put target (.file old)) :
    (sendChunks pace context key chunkSize source target budget offset).run w =
      (.ok (bytes.length - offset),
        w.withTree (t.put target (.file (old ++ bytes.drop offset)))) := by
  induction budget generalizing w old offset with
  | zero => omega
  | succ budget ih =>
    rw [sendChunks, run_onFiles_ok (run_fillChunk pace found (Nat.le_refl _) offset)]
    split
    next nothing =>
      rw [List.take_eq_nil_iff] at nothing
      have ended : bytes.drop offset = [] := nothing.resolve_left (by omega)
      rw [ended, List.append_nil, ← opened, Nat.sub_eq_zero_of_le (List.drop_eq_nil_iff.mp ended)]
      rfl
    next something =>
      have different : source ≠ target := by
        intro same
        rw [apart same] at something
        simp at something
      have at_target : w.files.fileAt? target = some old := by
        rw [fileAt?_eq_some_iff, opened, Files.Tree.find?_put, if_pos ⟨rfl, below⟩]
      rw [run_onFiles_ok (run_append_eq at_target ((bytes.drop offset).take chunkSize))]
      have sent := List.length_pos_iff.mpr something
      rw [List.length_take, List.length_drop] at sent
      have still : (w.withTree (w.files.tree.put target
          (.file (old ++ (bytes.drop offset).take chunkSize)))).files.fileAt? source =
            some bytes := by
        rw [fileAt?_eq_some_iff] at found ⊢
        exact (Files.Tree.find?_put ..).trans ((if_neg fun both => different both.1).trans found)
      have length : ((bytes.drop offset).take chunkSize).length =
          min chunkSize (bytes.length - offset) := by
        rw [List.length_take, List.length_drop]
      have less : bytes.length - (offset + ((bytes.drop offset).take chunkSize).length) <
          budget := by
        rw [length]
        omega
      have total : ((bytes.drop offset).take chunkSize).length +
          (bytes.length - (offset + ((bytes.drop offset).take chunkSize).length)) =
            bytes.length - offset := by
        rw [length]
        omega
      have rest := ih less still (by rw [opened]; exact Files.Tree.put_put ..)
      rw [← List.drop_drop, List.append_assoc, take_append_drop_length] at rest
      refine (run_bind_ok rest _).trans ?_
      rw [total]
      rfl

/-- A source that is no file sends nothing. -/
theorem run_sendChunks_of_none (pace : Nat → Nat) (context key : String) {chunkSize : Nat}
    (positive : 0 < chunkSize) {source : Place} (missing : w.files.fileAt? source = none)
    (target : Place) (budget offset : Nat) :
    (sendChunks pace context key chunkSize source target (budget + 1) offset).run w =
      (.error (.error (.ofFault context .isDirectory)), w) := by
  rw [sendChunks, run_onFiles_error (run_fillChunk_of_none pace missing positive offset)]

end CommandPool.Store
