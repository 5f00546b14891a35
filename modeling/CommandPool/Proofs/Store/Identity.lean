import CommandPool.Proofs.Store.Confinement
import CommandPool.Proofs.Store.ExactListing

/-!
# Which keys are the same

An object has its place by the names in its key, but a key may have more segments than names: empty
ones, and `.` behind the first one, are accepted and skipped.  So two keys are for one file exactly
if they have the same names (`same_place_iff`), and a key is listed after its object was made
exactly if all its segments are names (`mem_listed_iff`).
-/

namespace CommandPool.Store

open Files Files.FileSystem

variable {order : Order} {root key other path path' : String} {base place place' : Place}
  {names : List String} {fs : FileSystem} {w w' : Workspace}

/-! ## Normal keys -/

namespace Key

/-- No segment of the key is skipped. -/
def IsNormal (key : String) : Prop := ∀ segment ∈ Path.segments key, segment ≠ "" ∧ segment ≠ "."

instance decidableIsNormal (key : String) : Decidable (IsNormal key) :=
  inferInstanceAs (Decidable (∀ segment ∈ Path.segments key, segment ≠ "" ∧ segment ≠ "."))

theorem names_of_isNormal (normal : IsNormal key) : Path.names key = Path.segments key := by
  have given : (Path.segments key).filter (· ≠ "") = Path.segments key :=
    List.filter_eq_self.mpr fun segment member => by simpa using (normal segment member).1
  have other : (Path.segments key).filter (· ≠ ".") = Path.segments key :=
    List.filter_eq_self.mpr fun segment member => by simpa using (normal segment member).2
  rw [Path.names, Path.walk, given, other]

/-- A normal key is made of its names. -/
theorem joinSegments_names (normal : IsNormal key) : Path.joinSegments (Path.names key) = key := by
  rw [names_of_isNormal normal, Path.joinSegments_segments]

theorem isNormal_joinSegments (named : Path.AreFileNames names) (given : names ≠ []) :
    IsNormal (Path.joinSegments names) := by
  intro segment member
  rw [Path.segments_joined named given] at member
  exact ⟨(named segment member).given, (named segment member).here⟩

/-- Two keys are for one place exactly if they have the same names. -/
theorem same_place_iff (at_path : path? root key = some path)
    (at_path' : path? root other = some path') (found : Names fs path place)
    (found' : Names fs path' place') : place = place' ↔ Path.names key = Path.names other := by
  obtain ⟨starts, walk, more, down⟩ := walk_of_path? at_path
  obtain ⟨starts', walk', more', down'⟩ := walk_of_path? at_path'
  obtain ⟨base, leads, rfl, _⟩ := found.toEnds.onward starts walk more down
  obtain ⟨base', leads', rfl, _⟩ := found'.toEnds.onward starts' walk' more' down'
  obtain rfl := leads.unique leads'
  exact ⟨fun same => List.append_cancel_left same, fun same => congrArg (base ++ ·) same⟩

end Key

/-! ## Lengths of paths -/

theorem utf8ByteSize_cons (name : String) (given : names ≠ []) :
    (Path.joinSegments (name :: names)).utf8ByteSize =
      name.utf8ByteSize + 1 + (Path.joinSegments names).utf8ByteSize := by
  obtain ⟨next, rest, rfl⟩ := List.exists_cons_of_ne_nil given
  rw [Path.joinSegments, String.intercalate_cons_cons, String.utf8ByteSize_append,
    String.utf8ByteSize_append]
  rfl

theorem utf8ByteSize_le_cons (name : String) (names : List String) :
    name.utf8ByteSize ≤ (Path.joinSegments (name :: names)).utf8ByteSize ∧
      (Path.joinSegments names).utf8ByteSize ≤
        (Path.joinSegments (name :: names)).utf8ByteSize := by
  by_cases given : names = []
  · subst given
    exact ⟨by rw [Path.joinSegments, String.intercalate_singleton], Nat.zero_le _⟩
  · rw [utf8ByteSize_cons name given]
    omega

/-- Fewer names make up a shorter text. -/
theorem utf8ByteSize_joinSegments_le {segments : List String} (taken : names.Sublist segments) :
    (Path.joinSegments names).utf8ByteSize ≤ (Path.joinSegments segments).utf8ByteSize := by
  induction taken with
  | slnil => exact Nat.le_refl _
  | cons name taken ih => exact ih.trans (utf8ByteSize_le_cons name _).2
  | @cons_cons names segments name taken ih =>
    by_cases given : names = []
    · subst given
      rw [Path.joinSegments, String.intercalate_singleton]
      exact (utf8ByteSize_le_cons name segments).1
    · have more : segments ≠ [] := by
        rintro rfl
        exact given (List.sublist_nil.mp taken)
      rw [utf8ByteSize_cons name given, utf8ByteSize_cons name more]
      omega

/-- What is joined to a path comes behind the same text. -/
theorem exists_join (root : String) :
    ∃ front, ∀ q, Path.isAbsolute q = false → Path.join root q = front ++ q := by
  by_cases plain : (root = "" || Path.endsWithSlash root) = true
  · refine ⟨root, fun q relative => ?_⟩
    rw [Path.join, relative, if_neg Bool.false_ne_true, if_pos plain]
  · refine ⟨root ++ "/", fun q relative => ?_⟩
    rw [Path.join, relative, if_neg Bool.false_ne_true, if_neg plain]

/-- Some names in a key make a path that is not longer than that of the key. -/
theorem utf8ByteSize_descend_le (named : Path.AreFileNames names) (given : names ≠ [])
    (relative : Path.isAbsolute key = false) (taken : names.Sublist (Path.segments key)) :
    (Path.descend root names).utf8ByteSize ≤ (Path.join root key).utf8ByteSize := by
  obtain ⟨front, joined⟩ := exists_join root
  have fewer := utf8ByteSize_joinSegments_le taken
  rw [Path.joinSegments_segments] at fewer
  rw [Path.descend_eq_join named given, joined _ (Path.isAbsolute_joinSegments named),
    joined _ relative, String.utf8ByteSize_append, String.utf8ByteSize_append]
  omega

/-! ## Making an object -/

/-- A part of a request and the rest keep the files sound. -/
theorem bind_sound {α β : Type} {x : Request α} {f : α → Request β}
    (first : w.files.Sound → (x.run w).2.files.Sound)
    (rest : ∀ a w', w'.files.Sound → ((f a).run w').2.files.Sound) :
    w.files.Sound → ((x >>= f).run w).2.files.Sound :=
  bind_respects (R := fun w w' : Workspace => w.files.Sound → w'.files.Sound)
    (fun one two sound => two (one sound)) first fun a w' _ => rest a w'

theorem sound_openForWriting (sound : w.files.Sound) (root key : String) :
    ((openForWriting root key).run w).2.files.Sound := by
  refine bind_sound (fun sound => ?_) (fun path w₁ => ?_) sound
  · rcases askPath_cases root key w with ⟨_, _, ran⟩ | ⟨_, ran⟩
    all_goals rwa [ran]
  refine bind_sound id fun _ w₂ => bind_sound (fun sound => ?_) fun _ w₃ sound => ?_
  · rw [run_onFiles, makeParents]
    split
    next above _ => exact sound.createDirAll above
    next => exact sound
  · rw [run_onFiles]
    exact sound.create path

section

variable (sound : w.files.Sound) (rooted : w.files.resolve root = .ok (base, .dir))
  (ran : (openForWriting root key).run w = (.ok place, w'))
include ran

theorem stays_of_openForWriting : Stays w.files w'.files := by
  have touches := touches_openForWriting root key w
  rw [ran] at touches
  exact touches.toStays

include rooted

/-- An object is an empty file at first, at the names in its key. -/
theorem find?_of_openForWriting :
    place = base ++ Path.names key ∧ w'.files.tree.find? place = some (.file []) := by
  obtain ⟨path, fs, at_path, created⟩ := create_of_openForWriting ran
  obtain ⟨base', leads, rfl⟩ := openForWriting_opensAtKey root key ran
  have leads' := (leads_of_resolve_dir rooted).2.of_stays (stays_of_openForWriting ran)
  obtain rfl := leads'.unique leads
  exact ⟨rfl, fileAt?_eq_some_iff.mp (create_sets created).2.fileAt?_self⟩

include sound

/-- If all paths fit before, they do so afterwards: the key is longer than what is made for it. -/
theorem allFit_of_openForWriting (fit : AllFit w.files root base) :
    AllFit w'.files root base := by
  intro names found
  by_cases given : names = []
  · subst given
    exact fit [] (by simpa using sound.find?_of_leads (leads_of_resolve_dir rooted).2)
  obtain ⟨path, at_path, named⟩ := names_of_openForWriting ran
  have touches := touches_openForWriting root key w
  have sound' := sound_openForWriting sound root key
  rw [ran] at touches sound'
  rcases touches.only (base ++ names) with same | ⟨path', at_path', others | makes⟩
  · exact fit names (same ▸ found)
  · cases at_path.symm.trans at_path'
    obtain rfl := named.unique others
    cases (find?_of_openForWriting rooted ran).2.symm.trans found
  · cases at_path.symm.trans at_path'
    obtain ⟨r, _, reached, _⟩ := named.ends
    obtain ⟨plain, rfl⟩ := Key.path?_eq_some_iff.mp at_path
    obtain ⟨names', begun, _, same⟩ := Key.names_of_makes (leads_of_resolve_dir rooted).2 at_path
      touches.toStays makes
    obtain rfl := List.append_cancel_left same
    have taken : names.Sublist (Path.segments key) :=
      (begun.sublist.trans List.filter_sublist).trans List.filter_sublist
    exact (utf8ByteSize_descend_le (fileNames_of_find? sound' found) given plain.isAbsolute
      taken).trans (Nat.not_lt.mp (short_of_reach reached))

end

/-! ## Listing an object -/

/-- An object that is listed under its key has a normal one. -/
theorem mem_listed_iff {keys : List String} (sound : fs.Sound) (plain : Key.Plain key)
    (found : fs.tree.find? (base ++ Path.names key) = some (.file []))
    (listed : Listed fs base key keys) : key ∈ keys ↔ Key.IsNormal key := by
  have begins : Text.startsWith key key = true := by
    have whole := Text.dropFront?_eq_some_iff.mpr (List.append_nil key.toList).symm
    rw [Text.startsWith, whole]
    rfl
  rw [listed.exact]
  constructor
  · rintro ⟨_, bytes, names, given, there, rfl⟩
    exact Key.isNormal_joinSegments (fileNames_of_find? sound there) given
  · intro normal
    exact ⟨begins, [], _, plain.names_ne_nil, found, (Key.joinSegments_names normal).symm⟩

/-- Two keys are for the same file exactly if they have the same names, so no two normal keys are.
After an object was made in a store where all paths fit, a listing of what begins with its key
succeeds.  The key is there exactly if it is normal; what is there otherwise is the normal key with
the same names, if it is asked for. -/
theorem keys_identify_objects (root key : String) :
    (∀ other path path' fs place place', Key.path? root key = some path →
      Key.path? root other = some path' → Names fs path place → Names fs path' place' →
      (place = place' ↔ Path.names key = Path.names other) ∧
        (Key.IsNormal key → Key.IsNormal other → (place = place' ↔ key = other))) ∧
    ∀ (order : Order) base w w' place, w.files.Sound →
      w.files.resolve root = .ok (base, .dir) → AllFit w.files root base →
      (∀ folder entries, (order folder entries).Perm entries) →
      (openForWriting root key).run w = (.ok place, w') →
      IsObject w'.files base (Path.joinSegments (Path.names key)) [] ∧
        ∃ keys w'', (listKeysIn order root key).run w' = (.ok keys, w'') ∧
          (key ∈ keys ↔ Key.IsNormal key) := by
  constructor
  · intro other path path' fs place place' at_path at_path' found found'
    have same := Key.same_place_iff at_path at_path' found found'
    refine ⟨same, fun normal normal' => same.trans ⟨fun names => ?_, fun keys => by rw [keys]⟩⟩
    rw [← Key.joinSegments_names normal, names, Key.joinSegments_names normal']
  · intro order base w w' place sound rooted fit yields ran
    have sound' := sound_openForWriting sound root key
    have fit' := allFit_of_openForWriting sound rooted ran fit
    have rooted' := resolve_dir_of_stays (stays_of_openForWriting ran) rooted
    obtain ⟨rfl, found⟩ := find?_of_openForWriting rooted ran
    obtain ⟨path, at_path, _⟩ := names_of_openForWriting ran
    obtain ⟨plain, _⟩ := Key.path?_eq_some_iff.mp at_path
    rw [ran] at sound'
    obtain ⟨keys, w'', listing, _, listed⟩ :=
      listKeysIn_of_allFit sound' rooted' yields rfl fit' key
    exact ⟨⟨_, plain.names_ne_nil, found, rfl⟩, keys, w'', listing,
      mem_listed_iff sound' plain found listed⟩

/-! ## A segment that is skipped -/

/-- The file on the shelf, made again under another key. -/
def remade : Except Failure Place × Workspace := (openForWriting "store" "d/./x").run shelf

theorem run_remade :
    (openForWriting "store" "d/./x").run shelf = (.ok ["store", "d", "x"], remade.2) := by
  have made : remade.1 = .ok ["store", "d", "x"] := by decide +kernel
  exact eq_of_answer made

theorem names_of_shelf : Names shelf.files "store/d/x" ["store", "d", "x"] := by
  have resolved : shelf.files.resolve "store/d/x" =
      .ok (["store", "d", "x"], .file [97, 98, 99]) := by decide +kernel
  exact (resolve_file_iff.mp resolved).1

theorem names_of_shelf_dotted : Names shelf.files "store/d/./x" ["store", "d", "x"] := by
  have resolved : shelf.files.resolve "store/d/./x" =
      .ok (["store", "d", "x"], .file [97, 98, 99]) := by decide +kernel
  exact (resolve_file_iff.mp resolved).1

theorem keys_identify_objects_dotted :
    Path.names "d/./x" = Path.names "d/x" ∧ remade.1 = .ok ["store", "d", "x"] ∧
      ∃ keys w', (listKeys "store" "d/./x").run remade.2 = (.ok keys, w') ∧ "d/./x" ∉ keys := by
  obtain ⟨same, listing⟩ := keys_identify_objects "store" "d/./x"
  obtain ⟨_, keys, w', ran, listed⟩ := listing (fun _ entries => entries) ["store"] shelf remade.2
    ["store", "d", "x"] shelf_sound shelf_rooted shelf_allFit (fun _ _ => .refl _) run_remade
  have names := (same "d/x" "store/d/./x" "store/d/x" shelf.files _ _ (by decide +kernel)
    (by decide +kernel) names_of_shelf_dotted names_of_shelf).1.mp rfl
  exact ⟨names, congrArg Prod.fst run_remade, keys, w', ran,
    fun member => absurd (listed.mp member) (by decide +kernel)⟩

/-- The two keys are for one file, and what is made under one of them is not listed there. -/
theorem keys_do_not_identify_objects :
    (¬ ∀ root key other path path' fs place place', key ≠ other →
      Key.path? root key = some path → Key.path? root other = some path' →
      Names fs path place → Names fs path' place' → place ≠ place') ∧
    ¬ ∀ (order : Order) root key base w w' w'' place keys, w.files.Sound →
      w.files.resolve root = .ok (base, .dir) → AllFit w.files root base →
      (∀ folder entries, (order folder entries).Perm entries) →
      (openForWriting root key).run w = (.ok place, w') →
      (listKeysIn order root key).run w' = (.ok keys, w'') → key ∈ keys := by
  constructor
  · intro all
    exact all "store" "d/./x" "d/x" "store/d/./x" "store/d/x" shelf.files _ _ (by decide +kernel)
      (by decide +kernel) (by decide +kernel) names_of_shelf_dotted names_of_shelf rfl
  · intro all
    have nothing : ((listKeys "store" "d/./x").run remade.2).1 = .ok [] := by decide +kernel
    cases all (fun _ entries => entries) "store" "d/./x" ["store"] shelf remade.2 _ _ []
      shelf_sound shelf_rooted shelf_allFit (fun _ _ => .refl _) run_remade
      (eq_of_answer nothing)

end CommandPool.Store
