import CommandPool.Proofs.Command.Copies
import CommandPool.Proofs.Store.Refusals
import CommandPool.Proofs.Store.Targets
import CommandPool.Proofs.Text.Tidy

/-!
# Directions of transfers

Which way a copy goes is told by its two operands as they are written, though where it goes is found
out only when it is made: a target that is resolved stays an object or a file.  So the kinds that
the parser lets pass are those that the transfer meets, and it is never one from file to file.

That there is no such transfer can be seen in the answer.  The error of one names a path and then
says what is wrong, with blanks, as if this were a key.  The keys of a command have none, since it
is read from words, and a command refuses no other keys.
-/

namespace CommandPool.Command

open Store (Operand Request RefusesOnly Site Workspace)

variable {text s t : String} {source target : Operand} {c : Command}
  {pace : Nat → Nat} {site : Site} {P : String → Prop}

/-! ## Operands as they are written -/

theorem isObject_ofText (s : String) :
    (Operand.ofText s).isObject = Text.startsWith Store.scheme s := by
  unfold Operand.ofText Text.startsWith
  split
  next found => rw [found]; rfl
  next missing => rw [missing]; rfl

/-! ## Directions -/

/-- What a copy from `s` to `t` asks for, by what the two words are marked as.  The source and the
target are an object or a file as these say. -/
inductive Directed (pace : Nat → Nat) (site : Site) (s t : String) :
    Operand → Operand → Request Nat → Prop where
  | upload {path key : String} : Text.startsWith Store.scheme s = false →
      Text.startsWith Store.scheme t = true →
      Directed pace site s t (.file path) (.object key)
        (Store.upload pace site.root site.chunkSize path key)
  | download {key path : String} : Text.startsWith Store.scheme s = true →
      Text.startsWith Store.scheme t = false →
      Directed pace site s t (.object key) (.file path) (Store.download site.root key path)
  | within {key key' : String} : Text.startsWith Store.scheme s = true →
      Text.startsWith Store.scheme t = true →
      Directed pace site s t (.object key) (.object key') (Store.copyObject site.root key key')

/-- A transfer goes the way its operands are written, if they are not both local. -/
theorem directed_transfer (pace : Nat → Nat) (site : Site)
    (first : source.isObject = Text.startsWith Store.scheme s)
    (second : target.isObject = Text.startsWith Store.scheme t)
    (kinds : source.isObject = true ∨ target.isObject = true) :
    Directed pace site s t source target (transfer pace site source target) := by
  cases source with
  | file path =>
    cases target with
    | object key => exact .upload first.symm second.symm
    | file path' => cases kinds <;> contradiction
  | object key =>
    cases target with
    | object key' => exact .within first.symm second.symm
    | file path => exact .download first.symm second.symm

/-- A command that has been read and copies does so as its second and its third word say. -/
theorem exists_directed (parsed : parse text = .ok c) (ends : c.ends? = some (source, target)) :
    ∃ name s t, Text.words text = [name, s, t] ∧ source = .ofText s ∧ target = .ofText t ∧
      ∀ pace site fs, Directed pace site s t source (target.resolveTarget fs source)
        (transfer pace site source (target.resolveTarget fs source)) := by
  obtain ⟨name, s, t, words, read⟩ := exists_readPair parsed ends
  obtain ⟨rfl, rfl⟩ := Prod.mk.inj (eq_of_readPair read)
  refine ⟨name, s, t, words, rfl, rfl, fun pace site fs => ?_⟩
  have second := resolveTarget_isObject fs (.ofText t) (.ofText s)
  refine directed_transfer pace site (isObject_ofText s) (second.trans (isObject_ofText t)) ?_
  rw [second]
  exact kinds_of_parse parsed ends

/-! ## Keys that are refused -/

/-- A copy refuses no keys but those of its source and its target. -/
theorem Directed.refusesOnly {request : Request Nat}
    (directed : Directed pace site s t source target request)
    (first : ∀ key, source = .object key → P key) (second : ∀ key, target = .object key → P key) :
    RefusesOnly P request := by
  cases directed with
  | upload => exact Store.refusesOnly_upload _ _ _ (second _ rfl)
  | download => exact Store.refusesOnly_download _ (first _ rfl)
  | within => exact Store.refusesOnly_copyObject (first _ rfl) (second _ rfl)

theorem refusesOnly_runRemove (first : ∀ key, source = .object key → P key) :
    RefusesOnly P (runRemove site source) := by
  cases source with
  | file path => exact Store.refusesOnly_removeFile path
  | object key => exact Store.refusesOnly_removeObject (first key rfl)

/-- A command with two ends refuses what its copy refuses, and then the key of its source. -/
theorem refusesOnly_runAt (ends : c.ends? = some (source, target))
    (copies : RefusesOnly P (runCopy pace site source target))
    (first : ∀ key, source = .object key → P key) : RefusesOnly P (runAt pace site c) := by
  cases c with
  | copy => cases ends; exact copies.bind fun _ => Store.refusesOnly_pure ()
  | move => cases ends; exact copies.bind fun _ => refusesOnly_runRemove first
  | remove => cases ends
  | list => cases ends

/-! ## Keys without blanks -/

/-- The text has no blanks. -/
def Unbroken (s : String) : Prop := ∀ char ∈ s.toList, Text.isBlank char = false

/-- A transfer from a file to a file fails as if its source were a key that has blanks. -/
theorem broken_of_local {path path' : String} {w : Workspace} {failure : Store.Failure}
    (failed : ((transfer pace site (.file path) (.file path')).run w).1 = .error failure) :
    ∃ key, failure = .error (.invalidKey key) ∧ ¬ Unbroken key := by
  cases failed
  refine ⟨_, rfl, fun unbroken => ?_⟩
  have blank : ' ' ∈ (path ++ ": local to local copies are not supported").toList := by
    rw [String.toList_append]
    exact List.mem_append_right _ (by decide)
  cases unbroken ' ' blank

/-- The keys of a command that is read have no blanks, and so those that it refuses have none. -/
theorem refusesOnly_unbroken (pace : Nat → Nat) (site : Site) (parsed : parse text = .ok c)
    (ends : c.ends? = some (source, target)) :
    RefusesOnly Unbroken (runCopy pace site source target) ∧
      RefusesOnly Unbroken (runAt pace site c) := by
  obtain ⟨name, s, t, words, rfl, rfl, directed⟩ := exists_directed parsed ends
  have unbroken : Unbroken (Operand.ofText s).text ∧ Unbroken (Operand.ofText t).text := by
    rw [Operand.text_ofText, Operand.text_ofText]
    constructor
    all_goals exact (Text.isWord_of_mem (s := text) (by simp [words])).full
  have first : ∀ key, .ofText s = Operand.object key → Unbroken key := by
    intro key object char inside
    exact unbroken.1 char (object ▸ Operand.mem_text_object inside)
  have copies : RefusesOnly Unbroken (runCopy pace site (.ofText s) (.ofText t)) := by
    refine Store.refusesOnly_get.bind fun w => ?_
    refine (directed pace site w.files).refusesOnly first fun key resolves char inside => ?_
    exact (Operand.mem_of_resolveTarget resolves inside).elim (unbroken.2 char) (unbroken.1 char)
  exact ⟨copies, refusesOnly_runAt ends copies first⟩

/-! ## Commands -/

/-- However the files are, the target of a command that has been read is resolved to an object if it
is written as one, and else to a file.  So the command uploads, downloads or copies within the store
as its second and third word say, and it never fails as a copy from a file to a file does.  The key
of a target whose source has a name at its end is resolved to one that is not empty and does not end
with a slash: to itself if it is such a key, and else to itself with that name behind it.  This is
not changed by resolving it again. -/
theorem transfers_keep_their_direction (parsed : parse text = .ok c)
    (ends : c.ends? = some (source, target)) :
    ∃ name s t, Text.words text = [name, s, t] ∧ source = .ofText s ∧ target = .ofText t ∧
      (∀ fs, (target.resolveTarget fs source).isObject = Text.startsWith Store.scheme t) ∧
      (∀ pace site w, ∃ request,
        Directed pace site s t source (target.resolveTarget w.files source) request ∧
        (runCopy pace site source target).run w = request.run w) ∧
      (∀ pace site w w' path path' failure,
        ((transfer pace site (.file path) (.file path')).run w').1 = .error failure →
        ((runCopy pace site source target).run w).1 ≠ .error failure ∧
        ((runAt pace site c).run w).1 ≠ .error failure) ∧
      ∀ fs key leaf, target = .object key → source.leafName? = some leaf →
        ∃ resolved, target.resolveTarget fs source = .object resolved ∧
          resolved ≠ "" ∧ Files.Path.endsWithSlash resolved = false ∧
          resolved =
            (if key = "" ∨ Files.Path.endsWithSlash key = true then key ++ leaf else key) ∧
          ∀ fs', (Operand.object resolved).resolveTarget fs' source = .object resolved := by
  obtain ⟨name, s, t, words, rfl, rfl, directed⟩ := exists_directed parsed ends
  refine ⟨name, s, t, words, rfl, rfl, fun fs => ?_, fun pace site w => ?_, ?_, ?_⟩
  · rw [resolveTarget_isObject, isObject_ofText]
  · exact ⟨_, directed pace site w.files, by rw [runCopy, run_bind_ok (run_get w)]⟩
  · intro pace site w w' path path' failure failed
    obtain ⟨key, rfl, broken⟩ := broken_of_local failed
    obtain ⟨copies, runs⟩ := refusesOnly_unbroken pace site parsed ends
    exact ⟨fun refused => broken (copies w key refused), fun refused => broken (runs w key refused)⟩
  · intro fs key leaf object leafed
    rw [object]
    obtain ⟨resolved, resolves, complete, equal⟩ := Operand.resolveTarget_object leafed fs key
    have whole := mt Operand.isFolderKey_iff.mpr (Bool.eq_false_iff.mp complete)
    simp only [not_or, Bool.not_eq_true] at whole
    simp only [Operand.isFolderKey_iff] at equal
    exact ⟨resolved, resolves, whole.1, whole.2, equal,
      fun fs' => Operand.resolveTarget_complete complete fs' _⟩

/-- The move of a file to where the store has a folder, as it is written. -/
def keepNotes : Command := .move (.file "notes/./a.txt/") (.object "kept/")

theorem transfers_keep_their_direction_keepNotes :
    parse "mv  notes/./a.txt/\tstore://kept/" = .ok keepNotes ∧
      ∀ pace site w,
        (runCopy pace site (.file "notes/./a.txt/") (.object "kept/")).run w =
          (Store.upload pace site.root site.chunkSize "notes/./a.txt/" "kept/a.txt").run w ∧
        ∀ fs, (Operand.object "kept/a.txt").resolveTarget fs (.file "notes/./a.txt/") =
          .object "kept/a.txt" := by
  have parsed : parse "mv  notes/./a.txt/\tstore://kept/" = .ok keepNotes := by decide +kernel
  refine ⟨parsed, fun pace site w => ?_⟩
  obtain ⟨_, s, t, _, _, _, _, runs, _, keys⟩ := transfers_keep_their_direction parsed rfl
  obtain ⟨resolved, resolves, _, _, equal, again⟩ :=
    keys w.files "kept/" "a.txt" rfl (by decide +kernel)
  obtain rfl : resolved = "kept/a.txt" := equal.trans (by decide +kernel)
  obtain ⟨request, directed, same⟩ := runs pace site w
  rw [resolves] at directed
  cases directed
  exact ⟨same, again⟩

end CommandPool.Command
