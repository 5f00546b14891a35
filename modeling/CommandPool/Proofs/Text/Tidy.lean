import CommandPool.Proofs.Text.Words

/-!
# Tidy texts

A text is tidy if its only blanks are spaces, one at a time and each with other characters on both
sides.  So it is on one line (`OnOneLine`), and nothing at its ends could be trimmed.  What is put
together from words is tidy (`isTidy_unwords`), whatever was between the words before.
-/

namespace CommandPool.Text

/-- Every blank is a space between two other characters. -/
def IsTidy (cs : List Char) : Prop :=
  ∀ before c after, cs = before ++ c :: after → isBlank c = true →
    c = ' ' ∧ (∃ d ∈ before.getLast?, isBlank d = false) ∧ ∃ d ∈ after.head?, isBlank d = false

variable {w cs : List Char} {ws : List String}

/-- All blanks are spaces.  Line breaks and tabs are other ones. -/
def OnOneLine (s : String) : Prop := ∀ c ∈ s.toList, isBlank c = true → c = ' '

instance decidableOnOneLine (s : String) : Decidable (OnOneLine s) :=
  List.decidableBAll (fun c => isBlank c = true → c = ' ') s.toList

theorem OnOneLine.append {s t : String} (first : OnOneLine s) (second : OnOneLine t) :
    OnOneLine (s ++ t) := by
  intro c member
  rw [String.toList_append] at member
  exact (List.mem_append.mp member).elim (first c) (second c)

theorem IsTidy.onOneLine {s : String} (tidy : IsTidy s.toList) : OnOneLine s := by
  intro c member blank
  obtain ⟨before, after, split⟩ := List.append_of_mem member
  exact (tidy before c after split blank).1

theorem IsWord.isTidy (word : IsWord w) : IsTidy w := by
  rintro before c after rfl blank
  have full : isBlank c = false := word.full c (by simp)
  cases full.symm.trans blank

/-- A word in front of a tidy text that starts with another one, and a space between them. -/
theorem IsTidy.cons (word : IsWord w) (tidy : IsTidy cs)
    (starts : ∃ d ∈ cs.head?, isBlank d = false) : IsTidy (w ++ ' ' :: cs) := by
  have ends : ∃ d ∈ w.getLast?, isBlank d = false :=
    ⟨w.getLast word.some, List.getLast?_eq_some_getLast word.some,
      word.full _ (List.getLast_mem word.some)⟩
  intro before c after split blank
  rcases List.append_eq_append_iff.mp split with ⟨inside, rfl, rest⟩ | ⟨inside, rfl, rest⟩
  · cases inside with
    | nil =>
      obtain ⟨rfl, rfl⟩ := List.cons.inj rest
      rw [List.append_nil]
      exact ⟨rfl, ends, starts⟩
    | cons space inside =>
      obtain ⟨rfl, behind⟩ := List.cons.inj rest
      obtain ⟨equal, ⟨d, last, full⟩, onward⟩ := tidy inside c after behind blank
      refine ⟨equal, ⟨d, ?_, full⟩, onward⟩
      rw [List.getLast?_append, List.getLast?_cons, Option.mem_def.mp last]
      rfl
  · cases inside with
    | nil =>
      obtain ⟨rfl, rfl⟩ := List.cons.inj rest
      rw [List.append_nil] at ends
      exact ⟨rfl, ends, starts⟩
    | cons first inside =>
      obtain ⟨rfl, _⟩ := List.cons.inj rest
      have full : isBlank c = false := word.full c (by simp)
      cases full.symm.trans blank

/-- What is put together from words starts with one. -/
theorem exists_head_unwords {v : String} (word : IsWord v.toList) (ws : List String) :
    ∃ d ∈ (unwords (v :: ws)).toList.head?, isBlank d = false := by
  obtain ⟨d, rest, chars⟩ := List.exists_cons_of_ne_nil word.some
  refine ⟨d, ?_, word.full d (chars ▸ List.mem_cons_self)⟩
  cases ws with
  | nil => simp [unwords, chars]
  | cons => simp [unwords, String.intercalate_cons_cons, chars]

/-- Words with single spaces between them are tidy. -/
theorem isTidy_unwords (words : ∀ w ∈ ws, IsWord w.toList) : IsTidy (unwords ws).toList := by
  induction ws with
  | nil => intro before c after split; simp [unwords] at split
  | cons w ws ih =>
    obtain ⟨word, rest⟩ := List.forall_mem_cons.mp words
    cases ws with
    | nil => simpa [unwords] using word.isTidy
    | cons v ws =>
      have joined : (unwords (w :: v :: ws)).toList =
          w.toList ++ ' ' :: (unwords (v :: ws)).toList := by
        simp [unwords, String.intercalate_cons_cons]
      rw [joined]
      exact .cons word (ih rest) (exists_head_unwords (rest v List.mem_cons_self) ws)

/-! ## Tidying -/

theorem isTidy_tidy (s : String) : IsTidy (tidy s).toList :=
  isTidy_unwords fun _ member => isWord_of_mem member

/-- Tidying keeps the words. -/
theorem words_tidy (s : String) : words (tidy s) = words s :=
  words_unwords_of_subset (List.Subset.refl _)

theorem spaced_tidy_iff {s : String} {ws : List String} :
    Spaced (tidy s).toList (ws.map String.toList) ↔ Spaced s.toList (ws.map String.toList) := by
  rw [← words_eq_iff, ← words_eq_iff, words_tidy]

theorem tidy_tidy (s : String) : tidy (tidy s) = tidy s := by
  rw [tidy, words_tidy, tidy]

end CommandPool.Text
