import CommandPool.Proofs.Files.Touches

/-!
# What an operation depends on

Two file systems are alike beneath a root if the root leads to the same directory in both, and they
have the same nodes beneath it.  An operation on paths that go on from the root without going up
cannot tell them apart: it has the same answer in both, and they are alike afterwards.

Such a path is followed through the root first.  There the two file systems may differ, but each
step leads to a directory in both, and to the same one.  Behind the root they look at the same
nodes.
-/

namespace CommandPool.Files.FileSystem

variable {α β : Type} {fs fs' fs₁ fs₁' : FileSystem} {root q source target : String}
  {base dir place : Place} {front back : List String} {segment : String}

/-- The root leads to this directory in both file systems, and they agree on all that is beneath
it. -/
structure Alike (root : String) (base : Place) (fs fs' : FileSystem) : Prop where
  home : fs'.home = fs.home
  leads : Leads fs root base
  leads' : Leads fs' root base
  same : ∀ place, Beneath base place → fs'.tree.find? place = fs.tree.find? place

/-- Changes that lose no directory and have the same outcome beneath the root. -/
theorem Alike.of_stays (alike : Alike root base fs fs') (stays : Stays fs fs₁)
    (stays' : Stays fs' fs₁')
    (same : ∀ place, Beneath base place → fs₁'.tree.find? place = fs₁.tree.find? place) :
    Alike root base fs₁ fs₁' :=
  ⟨(stays'.home.trans alike.home).trans stays.home.symm, alike.leads.of_stays stays,
    alike.leads'.of_stays stays', same⟩

theorem Alike.of_sets {content : Option (List UInt8)} (alike : Alike root base fs fs')
    (sets : Sets fs fs₁ place content) (sets' : Sets fs' fs₁' place content) :
    Alike root base fs₁ fs₁' := by
  refine alike.of_stays sets.stays sets'.stays fun other beneath => ?_
  rw [sets.after, sets'.after, alike.same other beneath]

theorem Alike.fileAt? (alike : Alike root base fs fs') (beneath : Beneath base place) :
    fs'.fileAt? place = fs.fileAt? place := by
  rw [FileSystem.fileAt?, FileSystem.fileAt?, alike.same place beneath]

/-! ## Following -/

/-- The path is followed as the root is, though maybe not as far, or further without going up. -/
structure Along (root q : String) : Prop where
  starts : Path.isAbsolute q = Path.isAbsolute root
  onward : ∃ back, ".." ∉ back ∧ Path.walk q <+: Path.walk root ++ back

/-- A name on the way of such a path has the same node in both. -/
theorem Alike.find? (alike : Alike root base fs fs') (down : ".." ∉ back)
    (begun : front ++ [segment] <+: Path.walk root ++ back)
    (traveled : travel fs.tree (fs.start root) front = .ok dir) (here : segment ≠ ".")
    (up : segment ≠ "..") :
    fs'.tree.find? (dir ++ [segment]) = fs.tree.find? (dir ++ [segment]) := by
  by_cases outside : front ++ [segment] <+: Path.walk root
  · obtain ⟨rest, split⟩ := outside
    rw [List.append_assoc] at split
    have leads := alike.leads.travel
    have leads' := alike.leads'.travel
    have same_start : fs'.start root = fs.start root := by rw [start, start, alike.home]
    rw [← split] at leads leads'
    rw [same_start] at leads'
    rw [find?_of_travel here up leads traveled, find?_of_travel here up leads' traveled]
  · -- The root has been passed, and nothing leads up from there.
    have passed : Path.walk root <+: front := by
      have either := (List.prefix_or_prefix_of_prefix (List.prefix_append _ back) begun)
      rcases List.prefix_concat_iff.mp (either.resolve_right outside) with whole | passed
      · exact absurd (whole ▸ List.prefix_rfl) outside
      · exact passed
    obtain ⟨onward, rfl⟩ := passed
    rw [List.append_assoc, List.prefix_append_right_inj] at begun
    obtain ⟨next, first, rest⟩ := travel_append_ok.mp traveled
    obtain rfl := travel_unique alike.leads first
    have inside : ".." ∉ onward :=
      fun up => down (begun.subset (List.mem_append_left _ up))
    obtain rfl := eq_of_travel inside rest
    exact alike.same _ ⟨onward.filter (· ≠ ".") ++ [segment], by simp, List.append_assoc _ _ _⟩

theorem Alike.enter (alike : Alike root base fs fs') (down : ".." ∉ back)
    (begun : front ++ [segment] <+: Path.walk root ++ back)
    (traveled : travel fs.tree (fs.start root) front = .ok dir) :
    enter fs'.tree dir segment = enter fs.tree dir segment := by
  rw [FileSystem.enter, FileSystem.enter]
  by_cases here : segment = "."
  · rw [if_pos here, if_pos here]
  · rw [if_neg here, if_neg here]
    by_cases up : segment = ".."
    · rw [if_pos up, if_pos up]
    · rw [if_neg up, if_neg up, lookup, lookup, alike.find? down begun traveled here up]

/-- Segments are followed alike if each one leads to the same directory. -/
theorem follow_congr {t t' : Tree} {slash : Bool} {segments : List String}
    (enters : ∀ front segment back next, segments = front ++ segment :: back →
      travel t dir front = .ok next → enter t' next segment = enter t next segment) :
    follow t' dir slash segments = follow t dir slash segments := by
  fun_induction follow t dir slash segments with
  | case1 => rfl
  | case2 dir => rw [follow, if_pos rfl]
  | case3 dir here => rw [follow, if_neg here, if_pos rfl]
  | case4 dir last here up => rw [follow, if_neg here, if_neg up]
  | case5 dir segment next rest ih =>
    rw [follow, enters [] segment (next :: rest) dir rfl rfl]
    cases entered : FileSystem.enter t dir segment with
    | error f => rfl
    | ok inside =>
      refine ih inside fun front other back far split traveled => ?_
      exact enters (segment :: front) other back far (congrArg _ split)
        (travel_cons_ok.mpr ⟨inside, entered, traveled⟩)

theorem Alike.reach (alike : Alike root base fs fs') (along : Along root q) :
    fs'.reach q = fs.reach q := by
  obtain ⟨starts, back, down, begun⟩ := along
  have same_start : fs.start q = fs.start root := by rw [start, starts, start]
  have follows : follow fs'.tree (fs.start q) (Path.endsWithSlash q) (Path.walk q) =
      follow fs.tree (fs.start q) (Path.endsWithSlash q) (Path.walk q) := by
    refine follow_congr fun front segment rest next split traveled => ?_
    rw [same_start] at traveled
    refine alike.enter down (List.IsPrefix.trans ⟨rest, ?_⟩ begun) traveled
    rw [split, List.append_assoc]
    rfl
  rw [FileSystem.reach, FileSystem.reach, alike.home]
  show (if _ then _ else if _ then _ else if _ then _ else
    follow fs'.tree (fs.start q) (Path.endsWithSlash q) (Path.walk q)) = _
  rw [follows]
  rfl

theorem Alike.lookup {r : Reached} {name : String} (alike : Alike root base fs fs')
    (along : Along root q) (reached : fs.reach q = .ok r) (ending : r.ending = .name name) :
    lookup fs'.tree r.dir name = lookup fs.tree r.dir name := by
  have followed := follow_eq_ok (reach_eq_ok reached).2
  rw [ending] at followed
  obtain ⟨here, up, front, all, traveled⟩ := followed
  obtain ⟨starts, back, down, begun⟩ := along
  rw [start, starts] at traveled
  rw [all] at begun
  rw [FileSystem.lookup, FileSystem.lookup, alike.find? down begun traveled here up]

theorem Alike.resolve (alike : Alike root base fs fs') (along : Along root q) :
    fs'.resolve q = fs.resolve q := by
  rw [FileSystem.resolve, FileSystem.resolve, alike.reach along]
  cases reached : fs.reach q with
  | error f => rfl
  | ok r =>
    cases ending : r.ending with
    | dots => simp only [bind, Except.bind, ending]
    | name name => simp only [bind, Except.bind, ending, alike.lookup along reached ending]

theorem Alike.isDir (alike : Alike root base fs fs') (along : Along root q) :
    fs'.isDir q = fs.isDir q := by
  rw [FileSystem.isDir, FileSystem.isDir, alike.resolve along]

/-! ## Operations -/

/-- A question that has the same answer in both, and then the rest. -/
theorem agrees_ask {question : FileSystem → Except Fault α} {f : α → Act β}
    (alike : Alike root base fs fs') (same : question fs' = question fs)
    (rest : ∀ a, question fs = .ok a → Agrees (Alike root base) (f a) fs fs') :
    Agrees (Alike root base) (ask question >>= f) fs fs' := by
  cases asked : question fs with
  | error e =>
    rw [Agrees, run_ask_error asked, run_ask_error (same.trans asked)]
    exact ⟨rfl, alike⟩
  | ok a =>
    rw [Agrees, run_ask_ok asked, run_ask_ok (same.trans asked)]
    exact rest a asked

theorem find?_of_lookup {t : Tree} {name : String} {node : Option Node}
    (looked : lookup t dir name = .ok node) : t.find? (dir ++ [name]) = node := by
  rw [lookup] at looked
  split at looked
  next => cases looked
  next =>
    cases looked
    rfl

theorem agrees_metadata (alike : Alike root base fs fs') (along : Along root q) :
    Agrees (Alike root base) (metadata q) fs fs' :=
  agrees_ask alike (alike.resolve along) fun _ _ => agrees_pure alike _

theorem agrees_openRead (alike : Alike root base fs fs') (along : Along root q) :
    Agrees (Alike root base) (openRead q) fs fs' :=
  agrees_ask alike (alike.resolve along) fun _ _ => agrees_pure alike _

theorem agrees_readAll (alike : Alike root base fs fs') (beneath : Beneath base place) :
    Agrees (Alike root base) (readAll place) fs fs' := by
  rw [Agrees, run_readAll, run_readAll, alike.fileAt? beneath]
  exact ⟨rfl, alike⟩

/-! ### Making directories -/

theorem agrees_createDir (alike : Alike root base fs fs') (along : Along root q) :
    Agrees (Alike root base) (createDir q) fs fs' := by
  refine agrees_ask alike (alike.reach along) fun r reached => ?_
  cases ending : r.ending with
  | dots => exact agrees_throw alike _
  | name name =>
    have same := alike.lookup along reached ending
    refine agrees_ask alike same fun node looked => ?_
    cases node with
    | some node => exact agrees_throw alike _
    | none =>
      have grown := grown_put (find?_of_lookup looked)
      have grown' := grown_put (find?_of_lookup (same.trans looked))
      have put : ∀ other, Beneath base other →
          (fs'.tree.put (r.dir ++ [name]) .dir).find? other =
            (fs.tree.put (r.dir ++ [name]) .dir).find? other := by
        intro other beneath
        rw [Tree.find?_put, Tree.find?_put, alike.same other beneath]
      exact ⟨rfl, alike.of_stays grown.toStays grown'.toStays put⟩

theorem agrees_ensureDir (alike : Alike root base fs fs') (along : Along root q) :
    Agrees (Alike root base) (ensureDir q) fs fs' := by
  refine (agrees_createDir alike along).tryCatch fun f fs fs' alike => ?_
  rw [Agrees, run_bind_ok (run_get fs), run_bind_ok (run_get fs'), alike.isDir along]
  split
  next => exact ⟨rfl, alike⟩
  next => exact ⟨rfl, alike⟩

/-- What is directly above a path is on its way, if it is anything. -/
theorem Along.parent {above : String} (along : Along root q)
    (parent : Path.parent? q = some above) : above = "" ∨ Along root above := by
  by_cases given : above = ""
  · exact Or.inl given
  · obtain ⟨starts, back, down, begun⟩ := along
    obtain ⟨starts', rest, _, split⟩ := Path.walk_of_parent parent given
    exact Or.inr ⟨starts'.trans starts, back, down, List.IsPrefix.trans ⟨rest, split.symm⟩ begun⟩

theorem agrees_createDirs (depth : Nat) (alike : Alike root base fs fs')
    (along : q = "" ∨ Along root q) : Agrees (Alike root base) (createDirs depth q) fs fs' := by
  induction depth generalizing q fs fs' with
  | zero =>
    unfold createDirs
    split
    next => exact agrees_pure alike ()
    next given => exact agrees_ensureDir alike (along.resolve_left given)
  | succ depth ih =>
    unfold createDirs
    split
    next => exact agrees_pure alike ()
    next given =>
      have along := along.resolve_left given
      refine (agrees_ensureDir alike along).tryCatch fun f fs fs' alike => ?_
      split
      next => exact agrees_throw alike f
      next =>
        split
        next => exact agrees_throw alike f
        next above parent =>
          exact (ih alike (along.parent parent)).bind fun _ _ _ _ _ alike =>
            agrees_ensureDir alike along

theorem agrees_createDirAll (alike : Alike root base fs fs') (along : q = "" ∨ Along root q) :
    Agrees (Alike root base) (createDirAll q) fs fs' :=
  agrees_createDirs q.length alike along

/-! ### Files -/

/-- The path goes on from the root without going up. -/
structure Inside (root q : String) : Prop where
  starts : Path.isAbsolute q = Path.isAbsolute root
  onward : ∃ back, Path.walk q = Path.walk root ++ back ∧ back ≠ [] ∧ ".." ∉ back

theorem Inside.along (inside : Inside root q) : Along root q := by
  obtain ⟨starts, back, walk, _, down⟩ := inside
  exact ⟨starts, back, down, walk ▸ List.prefix_rfl⟩

theorem Inside.beneath (inside : Inside root q) (leads : Leads fs root base)
    (ends : Ends fs q place) : Beneath base place := by
  obtain ⟨starts, back, walk, more, down⟩ := inside
  exact beneath_of_walk leads starts walk more down ends

theorem agrees_create (alike : Alike root base fs fs') (along : Along root q) :
    Agrees (Alike root base) (create q) fs fs' := by
  refine agrees_ask alike (alike.reach along) fun r reached => ?_
  cases ending : r.ending with
  | dots => exact agrees_throw alike _
  | name name =>
    simp only
    split
    next => exact agrees_throw alike _
    next =>
      have same := alike.lookup along reached ending
      refine agrees_ask alike same fun node looked => ?_
      split
      next => exact agrees_throw alike _
      next other =>
        have below : r.dir ++ [name] ≠ [] := by simp
        have found := find?_of_lookup looked
        have found' := find?_of_lookup (same.trans looked)
        exact ⟨rfl, alike.of_sets (sets_put below (found ▸ other) [])
          (sets_put below (found' ▸ other) [])⟩

theorem agrees_append (alike : Alike root base fs fs') (beneath : Beneath base place)
    (new : List UInt8) : Agrees (Alike root base) (append place new) fs fs' := by
  have same := alike.fileAt? beneath
  cases found : fs.fileAt? place with
  | some bytes =>
    obtain ⟨fs₁, ran, sets⟩ := run_append found new
    obtain ⟨fs₁', ran', sets'⟩ := run_append (same.trans found) new
    rw [Agrees, ran, ran']
    exact ⟨rfl, alike.of_sets sets sets'⟩
  | none =>
    rw [Agrees, run_append_of_none found, run_append_of_none (same.trans found)]
    exact ⟨rfl, alike⟩

theorem agrees_removeFile (alike : Alike root base fs fs') (along : Along root q) :
    Agrees (Alike root base) (removeFile q) fs fs' := by
  refine agrees_ask alike (alike.reach along) fun r reached => ?_
  cases ending : r.ending with
  | dots => exact agrees_throw alike _
  | name name =>
    have same := alike.lookup along reached ending
    refine agrees_ask alike same fun node looked => ?_
    rcases node with _ | (bytes | _)
    · exact agrees_throw alike _
    · simp only
      split
      next => exact agrees_throw alike _
      next =>
        have below : r.dir ++ [name] ≠ [] := by simp
        have found := find?_of_lookup looked
        have found' := find?_of_lookup (same.trans looked)
        exact ⟨rfl, alike.of_sets (sets_erase below (by simp [found]) _)
          (sets_erase below (by simp [found']) _)⟩
    · exact agrees_throw alike _

theorem agrees_copy (alike : Alike root base fs fs') (source_inside : Inside root source)
    (target_inside : Inside root target) :
    Agrees (Alike root base) (copy source target) fs fs' := by
  refine agrees_ask alike (alike.resolve source_inside.along) fun ⟨opened, node⟩ resolved => ?_
  cases node with
  | dir => exact agrees_throw alike _
  | file bytes =>
    have source_beneath :=
      source_inside.beneath alike.leads (resolve_file_iff.mp resolved).1.toEnds
    refine (agrees_create alike target_inside.along).bind fun place fs₁ _ created _ alike => ?_
    have target_beneath :=
      target_inside.beneath alike.leads (names_of_create created).toEnds
    refine (agrees_readAll alike source_beneath).bind fun read _ _ _ _ alike => ?_
    exact (agrees_append alike target_beneath read).bind fun _ _ _ _ _ alike =>
      agrees_pure alike _

end CommandPool.Files.FileSystem
