import CommandPool.Proofs.Files.Following
import CommandPool.Proofs.Files.Paths

/-!
# Following a path through a directory

A path is followed from directory to directory, and then ends with a name or with dots
(`follow_eq_ok`).  So a path that goes on where another one has led to a directory goes on from
there, and without `..` it stays beneath it (`beneath_of_walk`).
-/

namespace CommandPool.Files.FileSystem

variable {fs fs' : FileSystem} {t : Tree} {p root above : String} {dir next base place : Place}
  {r : Reached} {front back : List String}

/-! ## Traveling -/

/-- The directory that segments lead to, one after the other. -/
def travel (t : Tree) (dir : Place) : List String → Except Fault Place
  | [] => .ok dir
  | segment :: rest => do
    let dir ← enter t dir segment
    travel t dir rest

theorem travel_cons_ok {segment : String} {rest : List String} :
    travel t dir (segment :: rest) = .ok base ↔
      ∃ next, enter t dir segment = .ok next ∧ travel t next rest = .ok base := by
  rw [travel]
  cases enter t dir segment with
  | error f => exact iff_of_false nofun nofun
  | ok next =>
    refine ⟨fun traveled => ⟨next, rfl, traveled⟩, ?_⟩
    rintro ⟨_, ⟨⟩, traveled⟩
    exact traveled

theorem travel_append_ok : travel t dir (front ++ back) = .ok base ↔
    ∃ next, travel t dir front = .ok next ∧ travel t next back = .ok base := by
  induction front generalizing dir with
  | nil =>
    refine ⟨fun traveled => ⟨dir, rfl, traveled⟩, ?_⟩
    rintro ⟨_, ⟨⟩, traveled⟩
    exact traveled
  | cons segment front ih =>
    rw [List.cons_append, travel_cons_ok]
    constructor
    · rintro ⟨inside, entered, traveled⟩
      obtain ⟨next, first, rest⟩ := ih.mp traveled
      exact ⟨next, travel_cons_ok.mpr ⟨inside, entered, first⟩, rest⟩
    · rintro ⟨next, first, rest⟩
      obtain ⟨inside, entered, first⟩ := travel_cons_ok.mp first
      exact ⟨inside, entered, ih.mpr ⟨next, first, rest⟩⟩

theorem travel_of_stays (stays : Stays fs fs') (traveled : travel fs.tree dir front = .ok base) :
    travel fs'.tree dir front = .ok base := by
  induction front generalizing dir with
  | nil => exact traveled
  | cons segment front ih =>
    obtain ⟨inside, entered, rest⟩ := travel_cons_ok.mp traveled
    exact travel_cons_ok.mpr ⟨inside, enter_of_stays stays entered, ih rest⟩

/-- A segment that is not dots leads to a directory of that name. -/
theorem enter_name {segment : String} (here : segment ≠ ".") (up : segment ≠ "..")
    (entered : enter t dir segment = .ok next) :
    next = dir ++ [segment] ∧ t.find? next = some .dir := by
  rw [enter, if_neg here, if_neg up, lookup] at entered
  split at entered
  next => cases entered
  next =>
    cases found : t.find? (dir ++ [segment]) with
    | none => rw [found] at entered; cases entered
    | some node =>
      rw [found] at entered
      cases node with
      | file => cases entered
      | dir =>
        cases entered
        exact ⟨rfl, found⟩

/-- Where a segment leads does not depend on what is there. -/
theorem enter_unique {t' : Tree} {other : Place} {segment : String}
    (entered : enter t dir segment = .ok next) (entered' : enter t' dir segment = .ok other) :
    next = other := by
  by_cases here : segment = "."
  · rw [enter, if_pos here] at entered entered'
    cases entered.symm.trans entered'
    rfl
  · by_cases up : segment = ".."
    · rw [enter, if_neg here, if_pos up] at entered entered'
      cases entered.symm.trans entered'
      rfl
    · rw [(enter_name here up entered).1, (enter_name here up entered').1]

theorem travel_unique {t' : Tree} {other : Place} (traveled : travel t dir front = .ok base)
    (traveled' : travel t' dir front = .ok other) : base = other := by
  induction front generalizing dir with
  | nil =>
    cases traveled.symm.trans traveled'
    rfl
  | cons segment front ih =>
    obtain ⟨inside, entered, rest⟩ := travel_cons_ok.mp traveled
    obtain ⟨inside', entered', rest'⟩ := travel_cons_ok.mp traveled'
    obtain rfl := enter_unique entered entered'
    exact ih rest rest'

/-- A name on the way leads to a directory. -/
theorem find?_of_travel {t' : Tree} {segment : String} (here : segment ≠ ".")
    (up : segment ≠ "..") (whole : travel t dir (front ++ segment :: back) = .ok base)
    (traveled : travel t' dir front = .ok next) :
    t.find? (next ++ [segment]) = some .dir := by
  obtain ⟨before, first, rest⟩ := travel_append_ok.mp whole
  obtain rfl := travel_unique first traveled
  obtain ⟨inside, entered, _⟩ := travel_cons_ok.mp rest
  obtain ⟨rfl, found⟩ := enter_name here up entered
  exact found

theorem enter_of_find {segment : String} (here : segment ≠ ".") (up : segment ≠ "..")
    (short : ¬ segment.utf8ByteSize > longestName)
    (found : t.find? (dir ++ [segment]) = some .dir) :
    enter t dir segment = .ok (dir ++ [segment]) := by
  rw [enter, if_neg here, if_neg up, lookup, if_neg short, found]
  rfl

/-- Without `..` one goes from name to name. -/
theorem eq_of_travel (down : ".." ∉ front) (traveled : travel t dir front = .ok base) :
    base = dir ++ front.filter (· ≠ ".") := by
  induction front generalizing dir with
  | nil =>
    cases traveled
    exact (List.append_nil base).symm
  | cons segment front ih =>
    obtain ⟨inside, entered, rest⟩ := travel_cons_ok.mp traveled
    have onward := ih (fun up => down (List.mem_cons_of_mem _ up)) rest
    by_cases here : segment = "."
    · rw [enter, if_pos here] at entered
      cases entered
      rw [onward, here]
      rfl
    · have up : segment ≠ ".." := fun up => down (up ▸ List.mem_cons_self)
      obtain ⟨rfl, _⟩ := enter_name here up entered
      rw [onward, List.filter_cons_of_pos (by simpa using here), List.append_assoc]
      rfl

/-! ## Following -/

/-- Where following has got to: all segments but a name at the end were entered. -/
theorem follow_eq_ok {slash : Bool} {segments : List String}
    (followed : follow t dir slash segments = .ok r) :
    match r.ending with
    | .dots => travel t dir segments = .ok r.dir
    | .name s => s ≠ "." ∧ s ≠ ".." ∧
        ∃ front, segments = front ++ [s] ∧ travel t dir front = .ok r.dir := by
  fun_induction follow t dir slash segments with
  | case1 => cases followed; rfl
  | case2 => cases followed; rfl
  | case3 => cases followed; rfl
  | case4 dir last here up => cases followed; exact ⟨here, up, [], rfl, rfl⟩
  | case5 dir segment next rest ih =>
    cases entered : enter t dir segment with
    | error f => rw [entered] at followed; cases followed
    | ok inside =>
      rw [entered] at followed
      have ends := ih inside followed
      cases ending : r.ending with
      | dots =>
        rw [ending] at ends
        exact travel_cons_ok.mpr ⟨inside, entered, ends⟩
      | name s =>
        rw [ending] at ends
        obtain ⟨here, up, front, all, traveled⟩ := ends
        exact ⟨here, up, segment :: front, congrArg _ all,
          travel_cons_ok.mpr ⟨inside, entered, traveled⟩⟩

/-- Where a path starts. -/
def start (fs : FileSystem) (p : String) : Place := if Path.isAbsolute p then [] else fs.home

theorem reach_eq_ok (reached : fs.reach p = .ok r) : p ≠ "" ∧
    follow fs.tree (fs.start p) (Path.endsWithSlash p) (Path.walk p) = .ok r := by
  unfold reach at reached
  split at reached
  next => cases reached
  next =>
    split at reached
    next => cases reached
    next given =>
      split at reached
      next => cases reached
      next => exact ⟨given, reached⟩

/-! ## Names and directories -/

/-- A path ends with this name in this directory. -/
structure Ends (fs : FileSystem) (p : String) (place : Place) : Prop where
  ends : ∃ r name, fs.reach p = .ok r ∧ r.ending = .name name ∧
    ¬ name.utf8ByteSize > longestName ∧ place = r.dir ++ [name]

theorem Names.toEnds (names : Names fs p place) : Ends fs p place := by
  obtain ⟨r, name, reached, ending, _, short, at_place⟩ := names.ends
  exact ⟨r, name, reached, ending, short, at_place⟩

theorem Ends.of_stays (ends : Ends fs p place) (stays : Stays fs fs') : Ends fs' p place := by
  obtain ⟨r, name, reached, rest⟩ := ends.ends
  exact ⟨r, name, reach_of_stays stays reached, rest⟩

theorem Ends.given (ends : Ends fs p place) : p ≠ "" := by
  obtain ⟨r, name, reached, _⟩ := ends.ends
  exact (reach_eq_ok reached).1

/-- A path that ends with a name leads to the directory of that name. -/
theorem Ends.resolve_dir (ends : Ends fs p place) (found : fs.tree.find? place = some .dir) :
    fs.resolve p = .ok (place, .dir) := by
  obtain ⟨r, name, reached, ending, short, rfl⟩ := ends.ends
  rw [resolve_of_name reached ending, if_neg short, found]

/-- The segments of a path that ends with a name. -/
theorem Ends.walk (ends : Ends fs p place) : ∃ front name dir, place = dir ++ [name] ∧
    Path.walk p = front ++ [name] ∧ name ≠ "." ∧ name ≠ ".." ∧
    travel fs.tree (fs.start p) front = .ok dir := by
  obtain ⟨r, name, reached, ending, short, rfl⟩ := ends.ends
  have followed := follow_eq_ok (reach_eq_ok reached).2
  rw [ending] at followed
  obtain ⟨here, up, front, all, traveled⟩ := followed
  exact ⟨front, name, r.dir, rfl, all, here, up, traveled⟩

/-- All segments of a path lead to this directory.  The empty path leads to where paths without a
root start. -/
def Leads (fs : FileSystem) (p : String) (base : Place) : Prop :=
  travel fs.tree (fs.start p) (Path.walk p) = .ok base

theorem Leads.travel (leads : Leads fs p base) :
    travel fs.tree (fs.start p) (Path.walk p) = .ok base := leads

theorem Leads.unique {other : Place} (leads : Leads fs p base) (leads' : Leads fs p other) :
    base = other := by
  cases leads.symm.trans leads'
  rfl

theorem Leads.of_stays (leads : Leads fs p base) (stays : Stays fs fs') : Leads fs' p base := by
  have traveled := travel_of_stays stays leads
  rwa [Leads, start, stays.home]

/-- A path that leads to a directory is followed there. -/
theorem leads_of_resolve_dir (resolved : fs.resolve p = .ok (base, .dir)) :
    p ≠ "" ∧ Leads fs p base := by
  cases reached : fs.reach p with
  | error f => rw [resolve_of_error reached] at resolved; cases resolved
  | ok r =>
    obtain ⟨given, followed⟩ := reach_eq_ok reached
    have ends := follow_eq_ok followed
    refine ⟨given, ?_⟩
    cases ending : r.ending with
    | dots =>
      rw [resolve_of_dots reached ending] at resolved
      rw [ending] at ends
      cases resolved
      exact ends
    | name name =>
      rw [ending] at ends
      obtain ⟨here, up, front, all, traveled⟩ := ends
      rw [resolve_of_name reached ending] at resolved
      split at resolved
      next => cases resolved
      next short =>
        split at resolved
        next => cases resolved
        next found =>
          cases resolved
          rw [Leads, all]
          exact travel_append_ok.mpr ⟨_, traveled, travel_cons_ok.mpr
            ⟨_, enter_of_find here up short found, rfl⟩⟩
        next =>
          split at resolved <;> cases resolved

theorem resolve_dir_of_stays (stays : Stays fs fs')
    (resolved : fs.resolve p = .ok (base, .dir)) : fs'.resolve p = .ok (base, .dir) := by
  cases reached : fs.reach p with
  | error f => rw [resolve_of_error reached] at resolved; cases resolved
  | ok r =>
    have reached' := reach_of_stays stays reached
    cases ending : r.ending with
    | dots =>
      rw [resolve_of_dots reached ending] at resolved
      rw [resolve_of_dots reached' ending, resolved]
    | name name =>
      rw [resolve_of_name reached ending] at resolved
      split at resolved
      next => cases resolved
      next short =>
        split at resolved
        next => cases resolved
        next found =>
          cases resolved
          rw [resolve_of_name reached' ending, if_neg short, stays.dirs _ found]
        next =>
          split at resolved <;> cases resolved

/-! ## Beneath a directory -/

/-- The place is in a directory, or in one beneath it. -/
def Beneath (base place : Place) : Prop := ∃ names, names ≠ [] ∧ place = base ++ names

/-- A path that is followed as another one and then further starts with it. -/
theorem travel_onward (starts : Path.isAbsolute p = Path.isAbsolute root)
    (traveled : travel fs.tree (fs.start p) (Path.walk root ++ back) = .ok place) :
    ∃ base, Leads fs root base ∧ travel fs.tree base back = .ok place := by
  rw [start, starts] at traveled
  exact travel_append_ok.mp traveled

/-- A path that goes on without `..` after another one ends beneath where that leads, with the
names on its way from there. -/
theorem Ends.onward (ends : Ends fs p place)
    (starts : Path.isAbsolute p = Path.isAbsolute root)
    (walk : Path.walk p = Path.walk root ++ back) (more : back ≠ []) (down : ".." ∉ back) :
    ∃ base, Leads fs root base ∧ place = base ++ back.filter (· ≠ ".") ∧
      Beneath base place := by
  obtain ⟨front, name, dir, rfl, all, here, _, traveled⟩ := ends.walk
  obtain ⟨rest, last, rfl⟩ : ∃ rest last, back = rest ++ [last] :=
    ⟨_, _, (List.dropLast_concat_getLast more).symm⟩
  rw [walk, ← List.append_assoc] at all
  obtain ⟨rfl, same⟩ := List.append_inj' all rfl
  cases same
  obtain ⟨base, leads, traveled⟩ := travel_onward starts traveled
  obtain rfl := eq_of_travel (fun up => down (List.mem_append_left _ up)) traveled
  refine ⟨base, leads, ?_, rest.filter (· ≠ ".") ++ [name], by simp, List.append_assoc _ _ _⟩
  rw [List.filter_append, List.filter_cons_of_pos (by simpa using here), List.append_assoc]
  rfl

/-- What is opened at the end of such a path. -/
theorem resolve_onward {node : Node} (resolved : fs.resolve p = .ok (place, node))
    (starts : Path.isAbsolute p = Path.isAbsolute root)
    (walk : Path.walk p = Path.walk root ++ back) (more : back ≠ []) (down : ".." ∉ back) :
    ∃ base, Leads fs root base ∧ place = base ++ back.filter (· ≠ ".") := by
  cases node with
  | file bytes =>
    have ends := (resolve_file_iff.mp resolved).1.toEnds
    obtain ⟨base, leads, at_place, _⟩ := ends.onward starts walk more down
    exact ⟨base, leads, at_place⟩
  | dir =>
    have traveled := (leads_of_resolve_dir resolved).2.travel
    rw [walk] at traveled
    obtain ⟨base, leads, onward⟩ := travel_onward starts traveled
    exact ⟨base, leads, eq_of_travel down onward⟩

/-- A path that goes on without `..` where another one has led to a directory ends beneath
that. -/
theorem beneath_of_walk (leads : Leads fs root base)
    (starts : Path.isAbsolute p = Path.isAbsolute root)
    (walk : Path.walk p = Path.walk root ++ back) (more : back ≠ []) (down : ".." ∉ back)
    (ends : Ends fs p place) : Beneath base place := by
  obtain ⟨other, leads', _, beneath⟩ := ends.onward starts walk more down
  exact leads.unique leads' ▸ beneath

/-- What a path names is beneath the directories that it lies below, unless it goes up again. -/
theorem beneath_of_liesBelow {onward : List String} (below : Path.LiesBelow p above)
    (resolved : fs.resolve above = .ok (base, .dir))
    (split : Path.walk p = Path.walk above ++ onward) (down : ".." ∉ onward)
    (names : Names fs p place) : Beneath base place := by
  obtain ⟨given, leads⟩ := leads_of_resolve_dir resolved
  obtain ⟨starts, rest, more, split'⟩ := below.walk given
  obtain rfl := List.append_cancel_left (split.symm.trans split')
  exact beneath_of_walk leads starts.symm split more down names.toEnds

/-- On the way to a directory there are directories. -/
theorem find?_of_prefix (home : fs'.home = fs.home) (leads : Leads fs root base)
    (starts : Path.isAbsolute above = Path.isAbsolute root)
    (begun : Path.walk above <+: Path.walk root) (ends : Ends fs' above place) :
    fs.tree.find? place = some .dir := by
  obtain ⟨front, name, dir, rfl, all, here, up, traveled⟩ := ends.walk
  obtain ⟨rest, split⟩ := begun
  have at_root := leads.travel
  have same_start : fs'.start above = fs.start root := by rw [start, starts, start, home]
  rw [same_start] at traveled
  rw [← split, all, List.append_assoc] at at_root
  exact find?_of_travel here up at_root traveled

end CommandPool.Files.FileSystem
