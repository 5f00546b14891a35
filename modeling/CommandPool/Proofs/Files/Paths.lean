import CommandPool.Files.Path

/-!
# The texts of paths

A text is split at its slashes, and it is put together again from the pieces.  So two texts
with a slash between them have the segments of both (`segments_slash`), and what lies above a
path has the first of its segments and is followed by some more (`LiesBelow.walk`).
-/

namespace CommandPool.Files.Path

variable {p above key root : String}

/-! ## Segments -/

theorem splitSlash_eq (cs : List Char) : splitSlash cs = cs.splitOn '/' := by
  induction cs with
  | nil => rfl
  | cons c cs ih =>
    rw [splitSlash, List.splitOn_eq_splitOnP, List.splitOnP_cons_eq_if_modifyHead,
      ← List.splitOn_eq_splitOnP, ih]
    by_cases slash : c = '/'
    · simp [slash]
    · rcases split : cs.splitOn '/' with _ | ⟨word, words⟩
      · exact absurd split (List.splitOn_ne_nil _ _)
      · simp [slash]

theorem segments_ne_nil (p : String) : segments p ≠ [] := by
  rw [segments, splitSlash_eq]
  exact fun none => List.splitOn_ne_nil _ _ (List.map_eq_nil_iff.mp none)

/-- A slash separates segments. -/
theorem segments_slash (p q : String) : segments (p ++ "/" ++ q) = segments p ++ segments q := by
  have split : (p ++ "/" ++ q).toList = p.toList ++ '/' :: q.toList := by simp
  simp only [segments, splitSlash_eq, split, List.splitOn_append_cons_self, List.map_append]

/-- The segments of a text make up the text. -/
theorem joinSegments_segments (p : String) : joinSegments (segments p) = p := by
  rw [← String.toList_inj, joinSegments, String.toList_intercalate, segments, splitSlash_eq,
    List.map_map]
  have same : String.toList ∘ String.ofList = id := funext fun _ => String.toList_ofList
  rw [same, List.map_id]
  exact List.intercalate_splitOn '/'

theorem slash_not_mem_of_split {cs word : List Char} (member : word ∈ splitSlash cs) :
    '/' ∉ word := by
  induction cs generalizing word with
  | nil => cases List.mem_singleton.mp member; exact List.not_mem_nil
  | cons c cs ih =>
    rw [splitSlash] at member
    split at member
    next =>
      rcases List.mem_cons.mp member with rfl | member
      · exact List.not_mem_nil
      · exact ih member
    next different =>
      rcases split : splitSlash cs with _ | ⟨first, rest⟩
      · rw [split] at member
        cases List.mem_singleton.mp member
        simpa using Ne.symm different
      · rw [split] at member ih
        rcases List.mem_cons.mp member with rfl | member
        · have clean := ih List.mem_cons_self
          simpa [Ne.symm different] using clean
        · exact ih (List.mem_cons_of_mem _ member)

theorem mem_of_split {cs word : List Char} {c : Char} (member : word ∈ splitSlash cs)
    (inside : c ∈ word) : c ∈ cs := by
  induction cs generalizing word with
  | nil =>
    cases List.mem_singleton.mp member
    exact inside
  | cons d cs ih =>
    rw [splitSlash] at member
    split at member
    next =>
      rcases List.mem_cons.mp member with rfl | member
      · cases inside
      · exact List.mem_cons_of_mem _ (ih member inside)
    next =>
      rcases split : splitSlash cs with _ | ⟨first, rest⟩
      · rw [split] at member
        cases List.mem_singleton.mp member
        exact List.mem_cons.mpr (Or.inl (List.mem_singleton.mp inside))
      · rw [split] at member ih
        rcases List.mem_cons.mp member with rfl | member
        · exact (List.mem_cons.mp inside).elim (fun here => here ▸ List.mem_cons_self)
            fun onward => List.mem_cons_of_mem _ (ih List.mem_cons_self onward)
        · exact List.mem_cons_of_mem _ (ih (List.mem_cons_of_mem _ member) inside)

/-- A segment has no slash. -/
theorem slash_not_mem_of_segment {s : String} (segment : s ∈ segments p) : '/' ∉ s.toList := by
  obtain ⟨word, split, rfl⟩ := List.mem_map.mp segment
  rw [String.toList_ofList]
  exact slash_not_mem_of_split split

/-- The characters of a segment are some of the path. -/
theorem mem_of_segment {s : String} {c : Char} (segment : s ∈ segments p)
    (inside : c ∈ s.toList) : c ∈ p.toList := by
  obtain ⟨word, split, rfl⟩ := List.mem_map.mp segment
  rw [String.toList_ofList] at inside
  exact mem_of_split split inside

/-- Texts without slashes are the segments of what they make up. -/
theorem segments_joinSegments_of_whole {ss : List String} (given : ss ≠ [])
    (whole : ∀ s ∈ ss, '/' ∉ s.toList) : segments (joinSegments ss) = ss := by
  have words : ∀ word ∈ ss.map String.toList, '/' ∉ word := by
    intro word member
    obtain ⟨s, inside, rfl⟩ := List.mem_map.mp member
    exact whole s inside
  rw [segments, splitSlash_eq, joinSegments, String.toList_intercalate]
  show ((['/'].intercalate (ss.map String.toList)).splitOn '/').map String.ofList = ss
  rw [List.splitOn_intercalate '/' words (by simpa using given), List.map_map]
  have same : String.ofList ∘ String.toList = id := funext fun _ => String.ofList_toList
  rw [same, List.map_id]

/-- Some segments of a text are the segments of what they make up. -/
theorem segments_joinSegments {ss : List String} (given : ss ≠ []) (taken : ss ⊆ segments p) :
    segments (joinSegments ss) = ss := by
  exact segments_joinSegments_of_whole given fun s inside => slash_not_mem_of_segment (taken inside)

/-- A text that begins with an empty segment is empty or begins with a slash. -/
theorem isAbsolute_of_segments {rest : List String} (segmented : segments p = "" :: rest)
    (given : p ≠ "") : isAbsolute p = true := by
  have text := joinSegments_segments p
  rw [segmented] at text
  cases rest with
  | nil => exact absurd text.symm given
  | cons next rest =>
    rw [← text, joinSegments, String.intercalate_cons_cons, isAbsolute]
    simp

/-! ## The segments that a path is followed by -/

/-- The segments that are not empty. -/
def walk (p : String) : List String := (segments p).filter (· ≠ "")

/-- The names that a path is followed by. -/
def names (p : String) : List String := (walk p).filter (· ≠ ".")

theorem walk_slash (p q : String) : walk (p ++ "/" ++ q) = walk p ++ walk q := by
  rw [walk, segments_slash, List.filter_append]
  rfl

theorem isAbsolute_append (given : p ≠ "") (q : String) : isAbsolute (p ++ q) = isAbsolute p := by
  cases chars : p.toList with
  | nil => exact absurd (String.toList_eq_nil_iff.mp chars) given
  | cons c cs => simp [isAbsolute, chars]

/-! ## Paths above -/

theorem dropIdle_suffix (absolute : Bool) (reversed : List String) :
    dropIdle absolute reversed <:+ reversed := by
  fun_induction dropIdle absolute reversed with
  | case1 => exact List.suffix_rfl
  | case2 => exact List.nil_suffix
  | case3 => exact List.suffix_rfl
  | case4 s t rest idle ih => exact ih.trans (List.suffix_cons _ _)
  | case5 => exact List.suffix_rfl

/-- What is dropped from the end of a path is not empty. -/
theorem ne_of_dropIdle {absolute : Bool} {reversed rest : List String} {last : String}
    (dropped : dropIdle absolute reversed = last :: rest) : last ≠ "" := by
  fun_induction dropIdle absolute reversed with
  | case1 => cases dropped
  | case2 => cases dropped
  | case3 s busy =>
    cases dropped
    rintro rfl
    exact busy rfl
  | case4 s t rest idle ih => exact ih dropped
  | case5 s t rest busy =>
    cases dropped
    rintro rfl
    exact busy rfl

/-- The path above another one has the first of its segments, if it is not the root or the
empty path. -/
theorem parent?_cases (parent : parent? p = some above) :
    ∃ front back, segments p = front ++ back ∧ (∃ last ∈ back, last ≠ "") ∧
      (above = "" ∨ above = "/" ∧ isAbsolute p = true ∨
        above = joinSegments front ∧ front ≠ []) := by
  unfold parent? at parent
  simp only at parent
  split at parent
  next => cases parent
  next last rest ending =>
    obtain ⟨idle, all⟩ := dropIdle_suffix (isAbsolute p) (segments p).reverse
    obtain ⟨more, kept⟩ := dropIdle_suffix (isAbsolute p) rest
    refine ⟨(dropIdle (isAbsolute p) rest).reverse, (idle ++ last :: more).reverse, ?_,
      ⟨last, by simp, ne_of_dropIdle ending⟩, ?_⟩
    · rw [ending, ← kept] at all
      rw [← List.reverse_append, List.append_assoc, List.cons_append, all, List.reverse_reverse]
    · split at parent
      next =>
        cases parent
        cases isAbsolute p
        · exact Or.inl rfl
        · exact Or.inr (Or.inl ⟨rfl, rfl⟩)
      next some_left =>
        cases parent
        exact Or.inr (Or.inr ⟨rfl, by simpa using some_left⟩)

/-- A path is followed through what lies directly above it, unless that is the empty path, and
then further. -/
theorem walk_of_parent (parent : parent? p = some above) (given : above ≠ "") :
    isAbsolute above = isAbsolute p ∧ ∃ back, back ≠ [] ∧ walk p = walk above ++ back := by
  obtain ⟨front, back, split, ⟨last, inside, busy⟩, at_above⟩ := parent?_cases parent
  have further : back.filter (· ≠ "") ≠ [] :=
    List.ne_nil_of_mem (List.mem_filter.mpr ⟨inside, decide_eq_true busy⟩)
  have whole : walk p = front.filter (· ≠ "") ++ back.filter (· ≠ "") := by
    rw [walk, split, List.filter_append]
  rcases at_above with rfl | ⟨rfl, absolute⟩ | ⟨rfl, front_given⟩
  · exact absurd rfl given
  · refine ⟨absolute.symm, walk p, ?_, rfl⟩
    rw [whole]
    exact List.append_ne_nil_of_right_ne_nil _ further
  · have taken : front ⊆ segments p := split ▸ List.subset_append_left front back
    have text := joinSegments_segments p
    rw [split, joinSegments, String.intercalate_append_of_ne_nil front_given
      (List.ne_nil_of_mem inside)] at text
    constructor
    · rw [← text, String.append_assoc]
      exact (isAbsolute_append given _).symm
    · refine ⟨_, further, ?_⟩
      rw [whole, walk, segments_joinSegments front_given taken]

/-- A path lies below another one: that is its parent, or a parent of what it lies below. -/
inductive LiesBelow (p : String) : String → Prop where
  | parent {above : String} : parent? p = some above → LiesBelow p above
  | further {above higher : String} : LiesBelow p above → parent? above = some higher →
      LiesBelow p higher

/-- A path is followed through everything it lies below, but for the empty path, and then
further. -/
theorem LiesBelow.walk (below : LiesBelow p above) (given : above ≠ "") :
    isAbsolute above = isAbsolute p ∧ ∃ back, back ≠ [] ∧ walk p = walk above ++ back := by
  induction below with
  | parent parent => exact walk_of_parent parent given
  | @further between _ _ parent ih =>
    have between_given : between ≠ "" := by
      rintro rfl
      cases parent
    obtain ⟨same, back, more, split⟩ := walk_of_parent parent given
    obtain ⟨same', back', _, split'⟩ := ih between_given
    refine ⟨same.trans same', back ++ back', List.append_ne_nil_of_left_ne_nil more _, ?_⟩
    rw [split', split, List.append_assoc]

/-! ## Joined paths -/

theorem exists_of_endsWithSlash (ends : endsWithSlash p = true) : ∃ front, p = front ++ "/" := by
  obtain ⟨front, chars⟩ := List.getLast?_eq_some_iff.mp (beq_iff_eq.mp ends)
  refine ⟨String.ofList front, String.toList_inj.mp ?_⟩
  simp [chars]

theorem slash_ne_empty (p : String) : p ++ "/" ≠ "" := by
  intro nothing
  have chars := congrArg String.toList nothing
  simp at chars

/-- What ends with a segment that is not empty does not end with a slash. -/
theorem endsWithSlash_append_whole {s : String} (given : s ≠ "") (whole : '/' ∉ s.toList) :
    endsWithSlash (p ++ s) = false := by
  have some : s.toList ≠ [] := fun nothing => given (String.toList_eq_nil_iff.mp nothing)
  rw [endsWithSlash, String.toList_append, List.getLast?_append,
    List.getLast?_eq_some_getLast some, Option.some_or, beq_eq_false_iff_ne]
  intro slash
  exact whole (Option.some.inj slash ▸ List.getLast_mem some)

/-- Joining to the empty path changes nothing.  Joining to a path with a slash at its end adds the
text alone, and otherwise a slash before it. -/
theorem join_cases (root : String) (relative : isAbsolute key = false) :
    root = "" ∧ join root key = key ∨
      (∃ front, root = front ++ "/" ∧ join root key = front ++ "/" ++ key) ∨
      root ≠ "" ∧ join root key = root ++ "/" ++ key := by
  rw [join, relative, if_neg Bool.false_ne_true]
  by_cases given : root = ""
  · subst given
    exact Or.inl ⟨rfl, String.empty_append⟩
  · by_cases ends : endsWithSlash root = true
    · rw [ends, Bool.or_true, if_pos rfl]
      obtain ⟨front, rfl⟩ := exists_of_endsWithSlash ends
      exact Or.inr (Or.inl ⟨front, rfl, rfl⟩)
    · have plain : ¬ (decide (root = "") || endsWithSlash root) = true := by simp [given, ends]
      rw [if_neg plain]
      exact Or.inr (Or.inr ⟨given, rfl⟩)

/-- A joined path is followed through its base, and then as the path that is joined to it. -/
theorem walk_join (root : String) (relative : isAbsolute key = false) :
    isAbsolute (join root key) = isAbsolute root ∧
      walk (join root key) = walk root ++ walk key := by
  rcases join_cases root relative with ⟨rfl, joined⟩ | ⟨front, rfl, joined⟩ | ⟨given, joined⟩
  · rw [joined]
    exact ⟨relative, rfl⟩
  · have closed : walk (front ++ "/") = walk front := by
      have := walk_slash front ""
      rwa [String.append_empty, show walk "" = [] from rfl, List.append_nil] at this
    rw [joined, isAbsolute_append (slash_ne_empty front), walk_slash, closed]
    exact ⟨rfl, rfl⟩
  · rw [joined, walk_slash, String.append_assoc, isAbsolute_append given]
    exact ⟨rfl, rfl⟩

/-! ## Parts of joined paths -/

/-- The parts of a path, by its first segment and the others. -/
theorem parts_eq {first : String} {rest : List String} (segmented : segments p = first :: rest) :
    parts p =
      (if isAbsolute p then [.root] else if first = "." then [.here]
        else (innerPart? first).toList) ++ rest.filterMap innerPart? := by
  rw [parts, segmented]
  simp only
  split
  next => rfl
  next =>
    split
    next => rfl
    next => rfl

/-- What stands for a name is that name, and is not empty. -/
theorem name_of_innerPart? {s name : String} :
    innerPart? s = some (.name name) → s = name ∧ name ≠ "" := by
  fun_cases innerPart? s
  case case3 idle _ =>
    rintro ⟨⟩
    exact ⟨rfl, fun nothing => idle (by simp [nothing])⟩
  all_goals exact nofun

/-- A part that is a name is a segment, and is not empty. -/
theorem segment_of_part {name : String} (part : .name name ∈ parts p) :
    name ∈ segments p ∧ name ≠ "" := by
  obtain ⟨first, rest, segmented⟩ := List.exists_cons_of_ne_nil (segments_ne_nil p)
  rw [parts_eq segmented, List.mem_append] at part
  rw [segmented]
  rcases part with front | inner
  · split at front
    next => cases List.mem_singleton.mp front
    next =>
      split at front
      next => cases List.mem_singleton.mp front
      next =>
        obtain ⟨rfl, given⟩ := name_of_innerPart? (Option.mem_toList.mp front)
        exact ⟨List.mem_cons_self, given⟩
  · obtain ⟨s, member, stands⟩ := List.mem_filterMap.mp inner
    obtain ⟨rfl, given⟩ := name_of_innerPart? stands
    exact ⟨List.mem_cons_of_mem _ member, given⟩

/-- A path without a root that does not start with `.` has the parts that its segments stand
for. -/
theorem parts_of_relative (relative : isAbsolute p = false)
    (first : (segments p).head? ≠ some ".") :
    parts p = (segments p).filterMap innerPart? := by
  rcases segmented : segments p with _ | ⟨start, rest⟩
  · exact absurd segmented (segments_ne_nil p)
  · have other : start ≠ "." := by simpa [segmented] using first
    rw [parts_eq segmented, relative, if_neg Bool.false_ne_true, if_neg other, List.filterMap_cons]
    cases innerPart? start <;> rfl

/-- Two paths that start with the same segments, after which nothing comes in one of them: the
other one goes on from it. -/
theorem parts_onward {q : String} {front idle more : List String} (given : front ≠ [])
    (starts : isAbsolute q = isAbsolute p) (ended : segments p = front ++ idle)
    (nothing : idle.filterMap innerPart? = []) (goes_on : segments q = front ++ more) :
    parts q = parts p ++ more.filterMap innerPart? := by
  obtain ⟨first, rest, rfl⟩ := List.exists_cons_of_ne_nil given
  rw [List.cons_append] at ended goes_on
  rw [parts_eq ended, parts_eq goes_on, starts, List.filterMap_append, List.filterMap_append,
    nothing, List.append_nil, List.append_assoc]

/-- A joined path has the parts of its base, and then those of the path that is joined to it. -/
theorem parts_join (root : String) (relative : isAbsolute key = false)
    (first : (segments key).head? ≠ some ".") :
    parts (join root key) = parts root ++ parts key := by
  rw [parts_of_relative relative first]
  have starts := (walk_join root relative).1
  rcases join_cases root relative with ⟨rfl, joined⟩ | ⟨front, rfl, joined⟩ | ⟨_, joined⟩
  · rw [joined, parts_of_relative relative first]
    rfl
  · have ended : segments (front ++ "/") = segments front ++ [""] := by
      have := segments_slash front ""
      rwa [String.append_empty] at this
    refine parts_onward (segments_ne_nil front) starts ended rfl ?_
    rw [joined, segments_slash]
  · refine parts_onward (segments_ne_nil root) starts (List.append_nil _).symm rfl ?_
    rw [joined, segments_slash]

end CommandPool.Files.Path
