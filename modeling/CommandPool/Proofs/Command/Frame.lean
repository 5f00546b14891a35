import CommandPool.Proofs.Command.KeptBytes
import CommandPool.Proofs.Store.Frames

/-!
# Commands touch what they name

A command changes the place of its resolved target, makes directories above that, and removes
its source or target.  All other places have the same node afterwards, or still none.  And what
happens on behalf of an object happens beneath the root of the store.

Here a directory is above a target if the path of the target lies below its path by the text.
A path `x/../f` lies below `x`, and a download to it makes `x` where it is missing.  If the path
of the target does not go up again, its place is beneath the directory.
-/

namespace CommandPool.Command

open Store (Operand Site Workspace)
open Files (Place)
open Files.FileSystem

variable {c : Command} {pace : Nat → Nat} {site : Site} {source target operand : Operand}
  {root path : String} {w w₁ w' : Workspace} {fs fs' : Files.FileSystem} {base place : Place}

/-- Why a place may differ after the command: what happens there on behalf of an operand. -/
inductive Concerns (pace : Nat → Nat) (site : Site) (c : Command) (w w' : Workspace)
    (place : Place) : Operand → String → Prop where
  /-- The path of the resolved target names the place. -/
  | target {source target : Operand} {path : String} : c.ends? = some (source, target) →
      Names w'.files path place →
      Concerns pace site c w w' place (target.resolveTarget w.files source) path
  /-- A directory is there now, where nothing was, and the resolved target lies below it.  If the
  path of the target goes on from there without going up, what it names is beneath. -/
  | above {source target : Operand} {path above : String} : c.ends? = some (source, target) →
      Files.Path.LiesBelow path above → w.files.tree.find? place = none →
      w'.files.resolve above = .ok (place, .dir) →
      (∀ onward named, Files.Path.walk path = Files.Path.walk above ++ onward → ".." ∉ onward →
        Names w'.files path named → Beneath place named) →
      Concerns pace site c w w' place (target.resolveTarget w.files source) path
  /-- The source of a move was there, and was removed after the copy had succeeded. -/
  | source {source target : Operand} {path : String} {n : Nat} {w₁ : Workspace} :
      c = .move source target → (runCopy pace site source target).run w = (.ok n, w₁) →
      Names w'.files path place → w'.files.tree.find? place = none →
      Concerns pace site c w w' place source path
  /-- What the command removes was there. -/
  | removed {target : Operand} {path : String} : c = .remove target →
      Names w.files path place → w'.files.tree.find? place = none →
      Concerns pace site c w w' place target path

/-- What an object names lies beneath the root. -/
theorem beneath_of_ends (rooted : fs.resolve root = .ok (base, .dir))
    (at_path : operand.path? root = some path) (ends : Ends fs path place)
    (object : operand.isObject = true) : Beneath base place := by
  cases operand with
  | object key => exact Store.Key.beneath_of_ends (leads_of_resolve_dir rooted).2 at_path ends
  | file => cases object

theorem beneath_of_makes (rooted : fs.resolve root = .ok (base, .dir))
    (at_path : operand.path? root = some path) (stays : Stays fs fs')
    (makes : Makes fs fs' path place) (object : operand.isObject = true) :
    Beneath base place := by
  cases operand with
  | object key =>
    exact Store.Key.beneath_of_makes (leads_of_resolve_dir rooted).2 at_path stays makes
  | file => cases object

/-- A command may do something at a place, and for an object only beneath the root. -/
def IsConcerned (pace : Nat → Nat) (site : Site) (c : Command) (base : Place) (w w' : Workspace)
    (place : Place) : Prop :=
  ∃ operand path, operand.path? site.root = some path ∧
    Concerns pace site c w w' place operand path ∧
    (operand.isObject = true → Beneath base place)

/-- What a transfer has touched concerns its target. -/
theorem isConcerned_of_touches (rooted : w.files.resolve site.root = .ok (base, .dir))
    (ends : c.ends? = some (source, target))
    (touches : Touches ((target.resolveTarget w.files source).path? site.root) w.files w₁.files)
    (stays : Stays w₁.files w'.files)
    (differs : w₁.files.tree.find? place ≠ w.files.tree.find? place) :
    IsConcerned pace site c base w w' place := by
  have all := touches.toStays.trans stays
  rcases touches.only place with same | ⟨path, at_path, names | makes⟩
  · exact absurd same differs
  · have names' := names.of_stays stays
    exact ⟨_, path, at_path, .target ends names',
      beneath_of_ends (resolve_dir_of_stays all rooted) at_path names'.toEnds⟩
  · obtain ⟨before, after, above, below, leads⟩ := makes.of_stays stays
    have there := leads.resolve_dir after
    exact ⟨_, path, at_path,
      .above ends below before there fun _ _ => beneath_of_liesBelow below there,
      beneath_of_makes rooted at_path all ⟨before, after, above, below, leads⟩⟩

theorem touches_runCopy (pace : Nat → Nat) (site : Site) (source target : Operand)
    (w : Workspace) :
    Touches ((target.resolveTarget w.files source).path? site.root) w.files
      ((runCopy pace site source target).run w).2.files := by
  rw [runCopy, run_bind_ok (run_get w)]
  exact Store.touches_transfer pace site source _ w

/-- What a command does from start to end is about what it names. -/
structure Frames (pace : Nat → Nat) (site : Site) (c : Command) (base : Place)
    (w w' : Workspace) : Prop where
  home : w'.files.home = w.files.home
  only : ∀ place, w'.files.tree.find? place ≠ w.files.tree.find? place →
    IsConcerned pace site c base w w' place

theorem frames_of_eq (same : w'.files = w.files) : Frames pace site c base w w' where
  home := by rw [same]
  only _ differs := absurd (by rw [same]) differs

theorem frames_copy {result : Except Store.Failure Unit}
    (rooted : w.files.resolve site.root = .ok (base, .dir))
    (ran : (runAt pace site (.copy source target)).run w = (result, w')) :
    Frames pace site (.copy source target) base w w' := by
  have touches := touches_runCopy pace site source target w
  rw [runAt, run_bind] at ran
  rcases sent : (runCopy pace site source target).run w with ⟨_ | _, w₁⟩
  all_goals
    rw [sent] at ran touches
    cases ran
    exact ⟨touches.home, fun _ => isConcerned_of_touches rooted rfl touches (.refl _)⟩

theorem frames_move {result : Except Store.Failure Unit}
    (rooted : w.files.resolve site.root = .ok (base, .dir))
    (ran : (runAt pace site (.move source target)).run w = (result, w')) :
    Frames pace site (.move source target) base w w' := by
  have touches := touches_runCopy pace site source target w
  rw [runAt, run_bind] at ran
  rcases sent : (runCopy pace site source target).run w with ⟨_ | n, w₁⟩
  · rw [sent] at ran touches
    cases ran
    exact ⟨touches.home, fun _ => isConcerned_of_touches rooted rfl touches (.refl _)⟩
  · rw [sent] at ran touches
    change (runRemove site source).run w₁ = (result, w') at ran
    rcases Store.remove_cases site source w₁ with
      kept | ⟨path, gone, w₂, at_path, names, removed, sets⟩
    · have same : w'.files = w₁.files := by rwa [ran] at kept
      refine ⟨by rw [same, touches.home], fun place differs => ?_⟩
      rw [same] at differs
      exact isConcerned_of_touches rooted rfl touches (same ▸ .refl _) differs
    · cases removed.symm.trans ran
      refine ⟨sets.home.trans touches.home, fun place differs => ?_⟩
      by_cases here : place = gone
      · subst here
        have names' := names.of_stays sets.stays
        have rooted' := resolve_dir_of_stays (touches.toStays.trans sets.stays) rooted
        exact ⟨source, path, at_path,
          .source rfl sent names' ((sets.after place).trans (if_pos rfl)),
          beneath_of_ends rooted' at_path names'.toEnds⟩
      · rw [sets.after, if_neg here] at differs
        exact isConcerned_of_touches rooted rfl touches sets.stays differs

theorem frames_remove {result : Except Store.Failure Unit}
    (rooted : w.files.resolve site.root = .ok (base, .dir))
    (ran : (runAt pace site (.remove target)).run w = (result, w')) :
    Frames pace site (.remove target) base w w' := by
  rw [runAt] at ran
  rcases Store.remove_cases site target w with
    kept | ⟨path, gone, w₂, at_path, names, removed, sets⟩
  · exact frames_of_eq (by rwa [ran] at kept)
  · cases removed.symm.trans ran
    refine ⟨sets.home, fun place differs => ?_⟩
    by_cases here : place = gone
    · subst here
      exact ⟨target, path, at_path, .removed rfl names ((sets.after place).trans (if_pos rfl)),
        beneath_of_ends rooted at_path names.toEnds⟩
    · rw [sets.after, if_neg here] at differs
      exact absurd rfl differs

theorem files_of_list {result : Except Store.Failure Unit} {stem : String}
    (ran : (runAt pace site (.list stem)).run w = (result, w')) : w'.files = w.files := by
  have kept : ((runAt pace site (.list stem)).run w).2.files = w.files :=
    Store.bind_files (Store.files_of_listKeys site.root stem w) fun _ => Store.files_of_say _
  rwa [ran] at kept

/-- The root of the store is a directory.  Then whatever the command, the files, the short reads
and the result, a place has another node afterwards, or one for none, or none for one, only if

* the path of the target, as it is resolved, names it,
* it is a directory now and was nothing before, and the path of the resolved target lies below
  a path that leads to it; unless it goes up again, what it names is beneath that directory,
* the path of the source of a move names it, the copy has succeeded, and nothing is there now,
* the path of what is to be removed names it, and nothing is there now.

If the operand with that path is an object, the place lies beneath the root.  A listing changes
nothing. -/
theorem only_named_places_change {result : Except Store.Failure Unit}
    (rooted : w.files.resolve site.root = .ok (base, .dir))
    (ran : (runAt pace site c).run w = (result, w')) :
    w'.files.home = w.files.home ∧ (∀ stem, c = .list stem → w'.files = w.files) ∧
      ∀ place, w'.files.tree.find? place ≠ w.files.tree.find? place →
        ∃ operand path, operand.path? site.root = some path ∧
          Concerns pace site c w w' place operand path ∧
          (operand.isObject = true → Beneath base place) := by
  have listing : ∀ stem, c = .list stem → w'.files = w.files := by
    rintro stem rfl
    exact files_of_list ran
  have frames : Frames pace site c base w w' := by
    cases c with
    | copy source target => exact frames_copy rooted ran
    | move source target => exact frames_move rooted ran
    | remove target => exact frames_remove rooted ran
    | list stem => exact frames_of_eq (files_of_list ran)
  exact ⟨frames.home, listing, frames.only⟩

/-- An empty store, and a local file. -/
def desk : Workspace :=
  ⟨⟨⟨[(["store"], .dir), (["x"], .file [97, 98, 99])]⟩, [], none⟩, .zero, []⟩

/-- The move of the local file into a part of the store that does not exist yet. -/
def fileAway : Command := .move (.file "x") (.object "new/")

/-- How it ends. -/
def filedAway : Except Store.Failure Unit × Workspace :=
  (run (.of "store" chunksOfFour) fileAway).run desk

theorem only_named_places_change_away :
    desk.files.resolve "store" = .ok (["store"], .dir) ∧ filedAway.1 = .ok () ∧
      (∀ place ∈ [["store", "new"], ["store", "new", "x"], ["x"]],
        filedAway.2.files.tree.find? place ≠ desk.files.tree.find? place) ∧
      ∀ place, filedAway.2.files.tree.find? place ≠ desk.files.tree.find? place →
        ∃ operand path, operand.path? "store" = some path ∧
          Concerns fullPace (.of "store" chunksOfFour) fileAway desk filedAway.2 place operand
            path ∧
          (operand.isObject = true → Beneath ["store"] place) := by
  have rooted : desk.files.resolve "store" = .ok (["store"], .dir) := by decide +kernel
  have worked : filedAway.1 = .ok () := by decide +kernel
  have ran : (run (.of "store" chunksOfFour) fileAway).run desk = (.ok (), filedAway.2) :=
    eq_of_answer worked
  exact ⟨rooted, worked, by decide +kernel, (only_named_places_change rooted ran).2.2⟩

end CommandPool.Command
