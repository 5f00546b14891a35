import CommandPool.Proofs.Files.Alike
import CommandPool.Proofs.Store.Frames

/-!
# Requests stay beneath the root

A text has a path only if it is a plain key, and then the path has the parts of the root and behind
them nothing but names.  What a request does on behalf of such a key happens beneath the directory
that the root leads to: nothing else changes, and nothing else has a part in its answer.

The one exception is a root that leads nowhere.  Then a request that makes an object makes the
directories on the way to the root as well.
-/

namespace CommandPool.Store

open Files Files.FileSystem

variable {α β : Type} {root key path context : String} {w w' : Workspace} {base place : Place}

/-! ## Paths of keys -/

/-- The path of a plain key has the parts of the root and then names.  Other texts have none. -/
theorem pathOfKey_cases (root key : String) :
    (∃ path, pathOfKey root key = .ok path ∧ Key.Plain key ∧ Path.names key ≠ [] ∧
        Path.parts path =
          Path.parts root ++ (Path.names key).map .name) ∨
      pathOfKey root key = .error (.invalidKey key) ∧ ¬ Key.Plain key := by
  rw [pathOfKey]
  cases at_path : Key.path? root key with
  | some path =>
    obtain ⟨plain, rfl⟩ := Key.path?_eq_some_iff.mp at_path
    refine Or.inl ⟨_, rfl, plain, plain.names_ne_nil, ?_⟩
    rw [Path.parts_join root plain.isAbsolute plain.first, plain.parts]
  | none =>
    refine Or.inr ⟨rfl, fun plain => ?_⟩
    cases at_path.symm.trans (Key.path?_eq_some_iff.mpr ⟨plain, rfl⟩)

example : ["", "/etc/passwd", "../x", "a/../../x", "./a"].map (Key.path? "/srv/store") =
    List.replicate 5 none := by decide +kernel

/-! ## What is beneath a root -/

/-- Two workspaces are the same beneath the root. -/
def AlikeBeneath (root : String) (base : Place) (w w' : Workspace) : Prop :=
  Alike root base w.files w'.files

/-- A request does not reach out of the root. -/
structure ActsBeneath (root : String) (request : Request α) : Prop where
  /-- Where the root leads to a directory, all that changes is beneath it. -/
  changes : ∀ {w : Workspace} {base place : Place}, Leads w.files root base →
    (request.run w).2.files.tree.find? place ≠ w.files.tree.find? place → Beneath base place
  /-- Where it leads nowhere, what changes is beneath where it leads to afterwards, or is a
  directory that was made on the way there. -/
  missing : ∀ {w : Workspace} {place : Place}, (∀ base, ¬ Leads w.files root base) →
    (request.run w).2.files.tree.find? place ≠ w.files.tree.find? place →
      (∃ base, Leads (request.run w).2.files root base ∧ Beneath base place) ∨
        w.files.tree.find? place = none ∧
          (request.run w).2.files.tree.find? place = some .dir ∧
          ∃ above, Path.isAbsolute above = Path.isAbsolute root ∧
            Path.walk above <+: Path.walk root ∧
            Ends (request.run w).2.files above place
  /-- With the same beneath the root it has the same answer, and leaves the same there. -/
  agrees : ∀ {base : Place} {w w' : Workspace}, AlikeBeneath root base w w' →
    Agrees (AlikeBeneath root base) request w w'

/-- A request that touches what is allowed for the path of a key, and only looks beneath the
root. -/
theorem actsBeneath_of_touches (key : String) {request : Request α}
    (touches : ∀ w, Touches (Key.path? root key) w.files (request.run w).2.files)
    (agrees : ∀ {base w w'}, AlikeBeneath root base w w' →
      Agrees (AlikeBeneath root base) request w w') : ActsBeneath root request := by
  refine ⟨fun {w base place} leads differs => ?_, fun {w place} _ differs => ?_, agrees⟩
  · have stays := (touches w).toStays
    rcases (touches w).only place with same | ⟨path, at_path, names | makes⟩
    · exact absurd same differs
    · exact Key.beneath_of_ends (leads.of_stays stays) at_path names.toEnds
    · exact Key.beneath_of_makes leads at_path stays makes
  · rcases (touches w).only place with same | ⟨path, at_path, names | makes⟩
    · exact absurd same differs
    · obtain ⟨starts, walk, more, down⟩ := Key.walk_of_path? at_path
      obtain ⟨base, leads, _, beneath⟩ := names.toEnds.onward starts walk more down
      exact Or.inl ⟨base, leads, beneath⟩
    · exact (Key.beneath_or_prefix_of_makes at_path makes).imp id
        fun onTheWay => ⟨makes.before, makes.after, onTheWay⟩

/-! ## Parts of requests -/

theorem agrees_onFiles {act : Act α}
    (agrees : Agrees (Alike root base) act w.files w'.files) :
    Agrees (AlikeBeneath root base) (onFiles context act) w w' := by
  rw [Agrees, run_onFiles, run_onFiles, agrees.1]
  exact ⟨rfl, agrees.2⟩

theorem agrees_count (alike : AlikeBeneath root base w w') (c : Counter) :
    Agrees (AlikeBeneath root base) (count c) w w' := ⟨rfl, alike⟩

/-- The path of a key goes on from the root. -/
theorem inside_of_path? (at_path : Key.path? root key = some path) : Inside root path := by
  obtain ⟨starts, walk, more, down⟩ := Key.walk_of_path? at_path
  exact ⟨starts, _, walk, more, down⟩

/-- The path of a key, and then the rest. -/
theorem agrees_askPath {f : String → Request β} (alike : AlikeBeneath root base w w')
    (rest : ∀ path, Inside root path → Agrees (AlikeBeneath root base) (f path) w w') :
    Agrees (AlikeBeneath root base) (askPath root key >>= f) w w' := by
  cases at_path : Key.path? root key with
  | none =>
    rw [Agrees, run_askPath_none at_path, run_askPath_none at_path]
    exact ⟨rfl, alike⟩
  | some path =>
    rw [Agrees, run_askPath_ok at_path, run_askPath_ok at_path]
    exact rest path (inside_of_path? at_path)

theorem agrees_makeParents {fs fs' : FileSystem} (alike : Alike root base fs fs')
    (inside : Inside root path) : Agrees (Alike root base) (makeParents path) fs fs' := by
  unfold makeParents
  split
  next above parent => exact agrees_createDirAll alike (inside.along.parent parent)
  next => exact agrees_pure alike ()

/-! ## The requests -/

theorem objectSize_actsBeneath (root key : String) : ActsBeneath root (objectSize root key) := by
  refine actsBeneath_of_touches key (fun w => ?_) fun alike => ?_
  · refine bind_touches (touches_askPath root key w) fun p w₁ _ _ => ?_
    refine bind_touches (.refl _ w₁.files) fun _ w₂ _ _ => ?_
    refine bind_touches (touches_onFiles (touches_metadata p w₂.files)) fun node w₃ _ _ => ?_
    cases node with
    | file bytes => exact .refl _ w₃.files
    | dir => exact .refl _ w₃.files
  · refine agrees_askPath alike fun p inside => ?_
    refine (agrees_count alike _).bind fun _ _ _ _ _ alike => ?_
    refine (agrees_onFiles (agrees_metadata alike inside.along)).bind fun node _ _ _ _ alike => ?_
    cases node with
    | file bytes => exact agrees_pure alike _
    | dir => exact agrees_throw alike _

theorem openForReading_actsBeneath (root key : String) :
    ActsBeneath root (openForReading root key) := by
  refine actsBeneath_of_touches key (touches_openForReading root key) fun alike => ?_
  refine agrees_askPath alike fun p inside => ?_
  refine (agrees_count alike _).bind fun _ _ _ _ _ alike => ?_
  exact agrees_onFiles (agrees_openRead alike inside.along)

theorem openForWriting_actsBeneath (root key : String) :
    ActsBeneath root (openForWriting root key) := by
  refine actsBeneath_of_touches key (touches_openForWriting root key) fun alike => ?_
  refine agrees_askPath alike fun p inside => ?_
  refine (agrees_count alike _).bind fun _ _ _ _ _ alike => ?_
  refine (agrees_onFiles (agrees_makeParents alike inside)).bind fun _ _ _ _ _ alike => ?_
  exact agrees_onFiles (agrees_create alike inside.along)

theorem copyObject_actsBeneath (root source target : String) :
    ActsBeneath root (copyObject root source target) := by
  refine actsBeneath_of_touches target (touches_copyObject root source target) fun alike => ?_
  refine agrees_askPath alike fun src source_inside => ?_
  refine agrees_askPath alike fun dst target_inside => ?_
  refine (agrees_count alike _).bind fun _ _ _ _ _ alike => ?_
  refine (agrees_onFiles (agrees_makeParents alike target_inside)).bind fun _ _ _ _ _ alike => ?_
  exact agrees_onFiles (agrees_copy alike source_inside target_inside)

theorem removeObject_actsBeneath (root key : String) :
    ActsBeneath root (removeObject root key) := by
  refine actsBeneath_of_touches key (fun w => ?_) fun alike => ?_
  · refine bind_touches (touches_askPath root key w) fun p w₁ asked _ => ?_
    rw [path?_of_askPath asked]
    refine bind_touches (.refl _ w₁.files) fun _ w₂ _ _ => ?_
    exact touches_onFiles (touches_removeFile p w₂.files)
  · refine agrees_askPath alike fun p inside => ?_
    refine (agrees_count alike _).bind fun _ _ _ _ _ alike => ?_
    exact agrees_onFiles (agrees_removeFile alike inside.along)

/-! ## Opened objects -/

/-- What a request opens on behalf of a key: the names of the key, where the root leads to. -/
def OpensAtKey (root key : String) (request : Request Place) : Prop :=
  ∀ {w w' : Workspace} {place : Place}, request.run w = (.ok place, w') →
    ∃ base, Leads w'.files root base ∧ place = base ++ Path.names key

theorem openForReading_opensAtKey (root key : String) :
    OpensAtKey root key (openForReading root key) := by
  intro w w' place ran
  obtain ⟨p, w₁, asked, ran⟩ := run_bind_eq_ok ran
  obtain ⟨_, w₂, _, ran⟩ := run_bind_eq_ok ran
  obtain ⟨node, resolved, kept⟩ := resolve_of_openRead (ok_of_onFiles ran)
  obtain ⟨starts, walk, more, down⟩ := Key.walk_of_path? (path?_of_askPath asked)
  exact resolve_onward (kept ▸ resolved) starts walk more down

theorem openForWriting_opensAtKey (root key : String) :
    OpensAtKey root key (openForWriting root key) := by
  intro w w' place ran
  obtain ⟨p, at_path, names⟩ := names_of_openForWriting ran
  obtain ⟨starts, walk, more, down⟩ := Key.walk_of_path? at_path
  obtain ⟨base, leads, at_place, _⟩ := names.toEnds.onward starts walk more down
  exact ⟨base, leads, at_place⟩

/-! ## Confinement -/

/-- A text has a path if it is a plain key, and then that is the root with names behind it;
otherwise it is refused.  Whatever the text is, no request leaves the root on its behalf. -/
theorem keys_stay_beneath_root (root key : String) :
    (match pathOfKey root key with
      | .ok path => Key.Plain key ∧ Path.names key ≠ [] ∧
          Path.parts path = Path.parts root ++ (Path.names key).map .name
      | .error e => ¬ Key.Plain key ∧ e = .invalidKey key) ∧
    ActsBeneath root (objectSize root key) ∧
    ActsBeneath root (openForReading root key) ∧
    ActsBeneath root (openForWriting root key) ∧
    (∀ other, ActsBeneath root (copyObject root key other) ∧
      ActsBeneath root (copyObject root other key)) ∧
    ActsBeneath root (removeObject root key) ∧
    OpensAtKey root key (openForReading root key) ∧
    OpensAtKey root key (openForWriting root key) := by
  refine ⟨?_, objectSize_actsBeneath root key, openForReading_actsBeneath root key,
    openForWriting_actsBeneath root key,
    fun other => ⟨copyObject_actsBeneath root key other, copyObject_actsBeneath root other key⟩,
    removeObject_actsBeneath root key, openForReading_opensAtKey root key,
    openForWriting_opensAtKey root key⟩
  rcases pathOfKey_cases root key with ⟨path, found, plain, some_name, parts⟩ | ⟨refused, odd⟩
  · rw [found]
    exact ⟨plain, some_name, parts⟩
  · rw [refused]
    exact ⟨odd, rfl⟩

end CommandPool.Store
