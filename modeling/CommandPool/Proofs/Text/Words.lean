import CommandPool.Text.Blank

/-!
# The words of a text

`Text.words` reads a text from its end.  Here its words are said without it: `Spaced` puts
blanks between words, at least one between two of them, and as many as there are at the two
ends.  A text is spaced from one list of words only, and `words_eq_iff` says that
`Text.words` gives that list.
-/

namespace CommandPool.Text

/-- A run of characters that are not blank, and at least one of them. -/
structure IsWord (w : List Char) : Prop where
  some : w ≠ []
  full : ∀ c ∈ w, isBlank c = false

/-- The text begins with a blank, or is empty. -/
def BlankFirst (cs : List Char) : Prop := ∀ c ∈ cs.head?, isBlank c = true

/-- The text is made of these words and of blanks.  What follows a word begins with a
blank, so no word is a part of a longer one. -/
inductive Spaced : List Char → List (List Char) → Prop where
  | nil : Spaced [] []
  | blank {c : Char} {cs : List Char} {ws : List (List Char)} :
      isBlank c = true → Spaced cs ws → Spaced (c :: cs) ws
  | word {w cs : List Char} {ws : List (List Char)} :
      IsWord w → BlankFirst cs → Spaced cs ws → Spaced (w ++ cs) (w :: ws)

/-! ## The words that are read -/

theorem splitRun_blank {c : Char} (blank : isBlank c = true) (cs : List Char) :
    splitRun (c :: cs) = ([], wordsOf cs) := by
  simp [splitRun, wordsOf, blank]

theorem splitRun_full {c : Char} (full : isBlank c = false) (cs : List Char) :
    splitRun (c :: cs) = (c :: (splitRun cs).1, (splitRun cs).2) := by
  simp [splitRun, full]

/-- Before a blank, or at the end, there is no run. -/
theorem splitRun_of_blankFirst {cs : List Char} (blankFirst : BlankFirst cs) :
    splitRun cs = ([], wordsOf cs) := by
  cases cs with
  | nil => rfl
  | cons c cs =>
    have blank : isBlank c = true := blankFirst c rfl
    rw [wordsOf, splitRun_blank blank]
    rfl

/-- A run, if there is one, is a word in front of the words after it. -/
theorem spaced_consWord {run rest : List Char} {ws : List (List Char)}
    (full : ∀ c ∈ run, isBlank c = false) (blankFirst : BlankFirst rest) (spaced : Spaced rest ws) :
    Spaced (run ++ rest) (consWord run ws) := by
  cases run with
  | nil => exact spaced
  | cons c cs => exact .word ⟨List.cons_ne_nil c cs, full⟩ blankFirst spaced

/-- A text begins with its first run, and what follows that begins with a blank. -/
theorem spaced_splitRun (cs : List Char) : ∃ rest, cs = (splitRun cs).1 ++ rest ∧
    (∀ c ∈ (splitRun cs).1, isBlank c = false) ∧ BlankFirst rest ∧
    Spaced rest (splitRun cs).2 := by
  induction cs with
  | nil => exact ⟨[], rfl, nofun, nofun, .nil⟩
  | cons c cs ih =>
    obtain ⟨rest, text, full, blankFirst, spaced⟩ := ih
    cases blank : isBlank c with
    | true =>
      rw [splitRun_blank blank]
      refine ⟨c :: cs, rfl, nofun, ?_, .blank blank ?_⟩
      · rintro _ ⟨⟩
        exact blank
      · have words := spaced_consWord full blankFirst spaced
        rwa [← text] at words
    | false =>
      rw [splitRun_full blank]
      refine ⟨rest, congrArg (c :: ·) text, ?_, blankFirst, spaced⟩
      exact List.forall_mem_cons.mpr ⟨blank, full⟩

theorem spaced_wordsOf (cs : List Char) : Spaced cs (wordsOf cs) := by
  obtain ⟨rest, text, full, blankFirst, spaced⟩ := spaced_splitRun cs
  have words := spaced_consWord full blankFirst spaced
  rwa [← text] at words

/-! ## One list of words -/

/-- A run in front of what begins with a blank is the first run. -/
theorem splitRun_append {w cs : List Char} (full : ∀ c ∈ w, isBlank c = false)
    (blankFirst : BlankFirst cs) : splitRun (w ++ cs) = (w, wordsOf cs) := by
  induction w with
  | nil => exact splitRun_of_blankFirst blankFirst
  | cons c w ih =>
    obtain ⟨first, others⟩ := List.forall_mem_cons.mp full
    rw [List.cons_append, splitRun_full first, ih others]

theorem wordsOf_of_spaced {cs : List Char} {ws : List (List Char)} (spaced : Spaced cs ws) :
    wordsOf cs = ws := by
  induction spaced with
  | nil => rfl
  | blank blank _ ih =>
    rw [wordsOf, splitRun_blank blank]
    exact ih
  | word word blankFirst _ ih =>
    rw [wordsOf, splitRun_append word.full blankFirst, ih]
    exact if_neg (by simpa using word.some)

/-- The words of a text are the only ones from which it is spaced. -/
theorem words_eq_iff {s : String} {ws : List String} :
    words s = ws ↔ Spaced s.toList (ws.map String.toList) := by
  constructor
  · rintro rfl
    have same : (words s).map String.toList = wordsOf s.toList := by
      simp [words, Function.comp_def]
    exact same ▸ spaced_wordsOf s.toList
  · intro spaced
    rw [words, wordsOf_of_spaced spaced, List.map_map]
    simp [Function.comp_def]

/-! ## Texts put together -/

/-- Every word that a text is spaced from is a word. -/
theorem Spaced.isWord {cs : List Char} {ws : List (List Char)} (spaced : Spaced cs ws) :
    ∀ w ∈ ws, IsWord w := by
  induction spaced with
  | nil => exact nofun
  | blank _ _ ih => exact ih
  | word word _ _ ih => exact List.forall_mem_cons.mpr ⟨word, ih⟩

/-- A blank between two texts keeps their words apart. -/
theorem Spaced.append {c : Char} {cs ds : List Char} {ws vs : List (List Char)}
    (blank : isBlank c = true) (first : Spaced cs ws) (second : Spaced ds vs) :
    Spaced (cs ++ c :: ds) (ws ++ vs) := by
  induction first with
  | nil => exact .blank blank second
  | blank blank' _ ih => exact .blank blank' ih
  | @word w cs ws word blankFirst _ ih =>
    have still : BlankFirst (cs ++ c :: ds) := by
      cases cs with
      | nil =>
        rintro _ ⟨⟩
        exact blank
      | cons d cs => exact blankFirst
    rw [List.append_assoc]
    exact .word word still ih

theorem words_append_space (s t : String) : words (s ++ " " ++ t) = words s ++ words t := by
  have first := words_eq_iff.mp (rfl : words s = words s)
  have second := words_eq_iff.mp (rfl : words t = words t)
  have whole := first.append (c := ' ') rfl second
  rw [words_eq_iff]
  simpa using whole

/-- A text that is put together with spaces has the words of its pieces. -/
theorem words_unwords (ss : List String) : words (unwords ss) = ss.flatMap words := by
  induction ss with
  | nil => rfl
  | cons s ss ih =>
    cases ss with
    | nil => simp [unwords]
    | cons t ss =>
      have joined : unwords (s :: t :: ss) = s ++ " " ++ unwords (t :: ss) := by
        rw [unwords, String.intercalate_cons_cons, unwords]
      rw [joined, words_append_space, ih]
      rfl

theorem isWord_of_mem {s w : String} (member : w ∈ words s) : IsWord w.toList :=
  (words_eq_iff.mp rfl).isWord w.toList (List.mem_map_of_mem member)

/-- A word of a text is the only word of itself. -/
theorem words_of_mem {s w : String} (member : w ∈ words s) : words w = [w] := by
  rw [words_eq_iff]
  have alone : Spaced (w.toList ++ []) [w.toList] := .word (isWord_of_mem member) nofun .nil
  simpa using alone

/-- Words of a text with single spaces between them are the words of that. -/
theorem words_unwords_of_subset {s : String} {ws : List String} (taken : ws ⊆ words s) :
    words (unwords ws) = ws := by
  rw [words_unwords]
  induction ws with
  | nil => rfl
  | cons w ws ih =>
    obtain ⟨member, rest⟩ := List.cons_subset.mp taken
    rw [List.flatMap_cons, words_of_mem member, ih rest, List.singleton_append]

/-! ## Trimming -/

theorem trimChars_concat {c : Char} (blank : isBlank c = true) (cs : List Char) :
    trimChars (cs ++ [c]) = trimChars cs := by
  rw [trimChars, trimChars, List.dropWhile_append]
  split
  next none =>
    rw [List.isEmpty_iff.mp none, List.dropWhile_cons_of_pos blank]
    rfl
  next => rw [List.reverse_append, List.reverse_singleton, List.singleton_append,
      List.dropWhile_cons_of_pos blank]

/-- A blank at the end is trimmed. -/
theorem trim_concat {c : Char} (s : String) (blank : isBlank c = true) :
    trim (String.ofList (s.toList ++ [c])) = trim s := by
  rw [trim, String.toList_ofList, trimChars_concat blank]
  rfl

end CommandPool.Text
