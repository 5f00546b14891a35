import CommandPool.Proofs.Files.Paths
import CommandPool.Store.Operand

/-!
# Targets that take the name of their source

There are two kinds of names at the end of an operand: that of an object is what is behind the last
slash of its key, and that of a file is its last part, whatever stands for nothing behind it.
Either way the name is a segment (`leafName?_eq_some`), so a key that has taken it is complete.  It
takes no name again.  A local path may, since where it leads there can be a directory already.
-/

namespace CommandPool.Store.Operand

open Files

variable {source : Operand} {name key : String} {fs : FileSystem}

/-- The characters of a key are some of what is written of the object. -/
theorem mem_text_object {c : Char} (inside : c ∈ key.toList) : c ∈ (object key).text.toList := by
  rw [text, String.toList_append]
  exact List.mem_append_right _ inside

/-! ## Names at the end -/

/-- The name at the end of an operand is a segment of its text. -/
theorem leafName?_eq_some (leaf : source.leafName? = some name) :
    name ≠ "" ∧ '/' ∉ name.toList ∧ ∀ c ∈ name.toList, c ∈ source.text.toList := by
  cases source with
  | object key =>
    obtain ⟨last, given⟩ := Option.filter_eq_some_iff.mp leaf
    have segment := List.mem_of_getLast? last
    exact ⟨by simpa using given, Path.slash_not_mem_of_segment segment,
      fun _ inside => mem_text_object (Path.mem_of_segment segment inside)⟩
  | file path =>
    rw [leafName?, Files.Path.leafName?] at leaf
    split at leaf
    next last =>
      cases leaf
      obtain ⟨segment, given⟩ := Path.segment_of_part (List.mem_of_getLast? last)
      exact ⟨given, Path.slash_not_mem_of_segment segment,
        fun _ => Path.mem_of_segment segment⟩
    next => cases leaf

/-! ## Keys that are resolved -/

theorem isFolderKey_iff : isFolderKey key = true ↔ key = "" ∨ Path.endsWithSlash key = true := by
  rw [isFolderKey, Bool.or_eq_true, decide_eq_true_iff]

/-- A key with the name of a source at its end is complete. -/
theorem isFolderKey_append (leaf : source.leafName? = some name) (key : String) :
    isFolderKey (key ++ name) = false := by
  obtain ⟨given, whole, _⟩ := leafName?_eq_some leaf
  rw [Bool.eq_false_iff, ne_eq, isFolderKey_iff, Path.endsWithSlash_append_whole given whole]
  simp [given]

/-- A complete key is what it is resolved to, whatever the source and the files are. -/
theorem resolveTarget_complete (complete : isFolderKey key = false) (fs : FileSystem)
    (source : Operand) : (object key).resolveTarget fs source = .object key := by
  unfold resolveTarget
  split
  next => rfl
  next => simp [complete]

/-- A key takes the name of a source if it is not complete, and then it is. -/
theorem resolveTarget_object (leaf : source.leafName? = some name) (fs : FileSystem)
    (key : String) :
    ∃ resolved, (object key).resolveTarget fs source = .object resolved ∧
      isFolderKey resolved = false ∧
      resolved = if isFolderKey key then key ++ name else key := by
  rw [resolveTarget, leaf]
  by_cases folder : isFolderKey key = true
  · simp only [folder, if_true]
    exact ⟨_, rfl, isFolderKey_append leaf key, rfl⟩
  · simp only [folder]
    exact ⟨_, rfl, Bool.eq_false_iff.mpr folder, rfl⟩

/-- The characters of a key that is resolved are those of the target and of the source. -/
theorem mem_of_resolveTarget {target : Operand} {c : Char}
    (resolved : target.resolveTarget fs source = .object key) (inside : c ∈ key.toList) :
    c ∈ target.text.toList ∨ c ∈ source.text.toList := by
  unfold resolveTarget at resolved
  split at resolved
  next =>
    subst resolved
    exact .inl (mem_text_object inside)
  next name leaf =>
    split at resolved
    next =>
      split at resolved
      next =>
        cases resolved
        rw [String.toList_append] at inside
        rcases List.mem_append.mp inside with front | back
        · exact .inl (mem_text_object front)
        · exact .inr ((leafName?_eq_some leaf).2.2 c back)
      next =>
        cases resolved
        exact .inl (mem_text_object inside)
    next => split at resolved <;> cases resolved

end CommandPool.Store.Operand
