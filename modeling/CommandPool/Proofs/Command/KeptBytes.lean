import CommandPool.Proofs.Command.Copies

/-!
# What happens to the bytes of a source

A transfer empties its target before it reads, so a target that leads back to the source
empties that too, and then there is nothing left to copy.  Otherwise the source stays as
it is, and if the transfer succeeds the target holds the same bytes, at another place.  A
move removes its source after a transfer that succeeded.

So the bytes of a source are lost exactly if the target leads back to it, except that an
empty file has none to lose to a copy.
-/

namespace CommandPool.Command

open Store (Operand Site Workspace Lands Opens TransferEnd)
open Files (FileSystem Place)
open Files.FileSystem

variable {text root path : String} {source target : Operand} {settings : Settings}
  {pace : Nat → Nat} {w w' : Workspace} {fs fs₁ fs' : FileSystem} {place : Place}
  {bytes : List UInt8} {sent : Except Store.Failure Nat}

/-- A file with exactly these bytes is at the path. -/
def Holds (fs : FileSystem) (path : String) (bytes : List UInt8) : Prop :=
  ∃ place, fs.resolve path = .ok (place, .file bytes)

/-- With the directories above it made, the target is opened at this place. -/
def LeadsTo (root : String) (fs : FileSystem) (target : Operand) (place : Place) : Prop :=
  ∃ fs₁ fs₂, Lands root fs target fs₁ fs₂ place

/-- The command removes its source. -/
def isMove : Command → Bool
  | .move .. => true
  | _ => false

theorem holds_iff_of_names (names : Names fs path place) :
    Holds fs path bytes ↔ fs.fileAt? place = some bytes := by
  constructor
  · rintro ⟨other, resolved⟩
    obtain ⟨names', found⟩ := resolve_file_iff.mp resolved
    rw [names.unique names']
    exact found
  · exact fun found => ⟨place, resolve_file_iff.mpr ⟨names, found⟩⟩

/-! ## The source is opened -/

/-- A source that leads to a file is opened there. -/
theorem opens_of_resolve (at_path : source.path? root = some path)
    (before : fs.resolve path = .ok (place, .file bytes)) (grown : Grown fs fs₁) :
    Opens root fs fs₁ source target place := by
  obtain ⟨names, found⟩ := resolve_file_iff.mp before
  refine ⟨path, at_path, ?_⟩
  split
  next =>
    exact ⟨bytes, resolve_file_iff.mpr ⟨names.of_stays grown.toStays, by rw [grown.files, found]⟩⟩
  next => exact ⟨_, before⟩

/-- It is opened nowhere else. -/
theorem eq_of_opens {opened : Place} (at_path : source.path? root = some path)
    (before : fs.resolve path = .ok (place, .file bytes)) (grown : Grown fs fs₁)
    (opens : Opens root fs fs₁ source target opened) : opened = place := by
  obtain ⟨path', at_path', opens⟩ := opens
  cases at_path.symm.trans at_path'
  split at opens
  next =>
    obtain ⟨bytes', resolved⟩ := opens
    have names := (resolve_file_iff.mp before).1.of_stays grown.toStays
    exact (resolve_file_iff.mp resolved).1.unique names
  next =>
    obtain ⟨node, resolved⟩ := opens
    cases before.symm.trans resolved
    rfl

/-! ## After the transfer -/

/-- A source apart from the target stays as it is, and a transfer that succeeds leaves the
same bytes at the target. -/
structure Spared (root : String) (fs' : FileSystem) (path : String) (target : Operand)
    (place : Place) (bytes : List UInt8) (sent : Except Store.Failure Nat) : Prop where
  names : Names fs' path place
  found : fs'.fileAt? place = some bytes
  copied : ∀ n, sent = .ok n → n = bytes.length ∧
    ∃ other target_place, target.path? root = some other ∧ Names fs' other target_place ∧
      target_place ≠ place ∧ fs'.fileAt? target_place = some bytes

/-- A source that is the target is an empty file now. -/
structure Emptied (root : String) (fs' : FileSystem) (path : String) (target : Operand)
    (place : Place) : Prop where
  names : Names fs' path place
  found : fs'.fileAt? place = some []
  same : ∃ other, target.path? root = some other ∧ Names fs' other place

theorem spared_of_writes {fs₂ : FileSystem} {target_place : Place} {new : List UInt8}
    (before : fs.resolve path = .ok (place, .file bytes))
    (lands : Lands root fs target fs₁ fs₂ target_place)
    (apart : target_place ≠ place) (writes : Sets fs₁ fs' target_place (some new)) :
    Names fs' path place ∧ fs'.fileAt? place = some bytes := by
  obtain ⟨names, found⟩ := resolve_file_iff.mp before
  refine ⟨(names.of_stays lands.grown.toStays).of_stays writes.stays, ?_⟩
  rw [writes.fileAt?, if_neg apart.symm, lands.grown.files, found]

theorem spared_of_not_leadsTo (ends : TransferEnd root fs source target fs' sent)
    (at_path : source.path? root = some path)
    (before : fs.resolve path = .ok (place, .file bytes))
    (apart : ¬ LeadsTo root fs target place) : Spared root fs' path target place bytes sent := by
  have other_place : ∀ {fs₁ fs₂ target_place}, Lands root fs target fs₁ fs₂ target_place →
      target_place ≠ place := by
    rintro fs₁ fs₂ _ lands rfl
    exact apart ⟨fs₁, fs₂, lands⟩
  cases ends with
  | unopened _ _ grown =>
    obtain ⟨names, found⟩ := resolve_file_iff.mp before
    exact ⟨names.of_stays grown.toStays, (grown.files place).trans found, nofun⟩
  | noBuffer fs₁ fs₂ target_place lands writes =>
    obtain ⟨names, found⟩ := spared_of_writes before lands (other_place lands) writes
    exact ⟨names, found, nofun⟩
  | unread _ fs₁ fs₂ target_place opened lands _ _ _ writes =>
    obtain ⟨names, found⟩ := spared_of_writes before lands (other_place lands) writes
    exact ⟨names, found, nofun⟩
  | copied fs₁ fs₂ target_place opened read lands opens readable writes =>
    have different := other_place lands
    obtain ⟨names, found⟩ := spared_of_writes before lands different writes
    refine ⟨names, found, fun n counted => ?_⟩
    cases counted
    obtain rfl := eq_of_opens at_path before lands.grown opens
    have all : read = bytes := by
      rw [lands.writes.fileAt?, if_neg different.symm, lands.grown.files,
        (resolve_file_iff.mp before).2] at readable
      exact (Option.some.inj readable).symm
    obtain ⟨other, at_other, target_names⟩ := lands.names
    exact ⟨congrArg List.length all, other, target_place, at_other,
      target_names.of_stays writes.stays, different, all ▸ writes.fileAt?_self⟩

theorem emptied_of_leadsTo (ends : TransferEnd root fs source target fs' sent)
    (at_path : source.path? root = some path)
    (before : fs.resolve path = .ok (place, .file bytes))
    (leads : LeadsTo root fs target place) : Emptied root fs' path target place := by
  obtain ⟨fs₁, fs₂, lands⟩ := leads
  have opens : Opens root fs fs₁ source target place :=
    opens_of_resolve at_path before lands.grown
  have emptied : Sets fs₁ fs' place (some []) := by
    cases ends with
    | unopened _ closed => exact absurd opens (closed fs₁ fs₂ place place lands)
    | noBuffer _ _ _ lands' writes =>
      obtain ⟨rfl, rfl, rfl⟩ := lands.unique lands'
      exact writes
    | unread _ _ _ _ _ lands' _ _ _ writes =>
      obtain ⟨rfl, rfl, rfl⟩ := lands.unique lands'
      exact writes
    | copied _ _ _ opened read lands' opens' readable writes =>
      obtain ⟨rfl, rfl, rfl⟩ := lands.unique lands'
      obtain rfl := eq_of_opens at_path before lands.grown opens'
      rw [lands.writes.fileAt?_self] at readable
      cases readable
      exact writes
  have names := (resolve_file_iff.mp before).1
  obtain ⟨other, at_other, target_names⟩ := lands.names
  exact ⟨(names.of_stays lands.grown.toStays).of_stays emptied.stays, emptied.fileAt?_self,
    other, at_other, target_names.of_stays emptied.stays⟩

/-! ## After the source was removed -/

/-- The file that the path of an operand leads to is removed. -/
theorem run_runRemove (site : Site) (at_path : source.path? site.root = some path)
    (names : Names w.files path place) (found : w.files.fileAt? place = some bytes) :
    ∃ w', (runRemove site source).run w = (.ok (), w') ∧ Sets w.files w'.files place none := by
  obtain ⟨fs', removed, removes⟩ := run_removeFile names found
  cases source with
  | object key =>
    obtain ⟨w₁, files, _, _, counted⟩ := Store.run_count .storageOp w
    refine ⟨{ w₁ with files := fs' }, ?_, removes⟩
    rw [runRemove, Store.removeObject, Store.run_askPath_ok at_path, counted, Store.run_onFiles,
      files, removed]
    rfl
  | file local_path =>
    cases at_path
    obtain ⟨w₁, files, _, _, counted⟩ := Store.run_count .fileOp w
    refine ⟨{ w₁ with files := fs' }, ?_, removes⟩
    rw [runRemove, Store.removeFile, counted, Store.run_onFiles, files, removed]
    rfl

/-- What was spared is at the target when the source is removed. -/
theorem Spared.removed {n : Nat} {fs'' : FileSystem}
    (spared : Spared root fs' path target place bytes (.ok n))
    (removes : Sets fs' fs'' place none) :
    ∃ other, target.path? root = some other ∧ Holds fs'' other bytes := by
  obtain ⟨_, other, target_place, at_other, names, different, found⟩ := spared.copied n rfl
  refine ⟨other, at_other, (holds_iff_of_names (names.of_stays removes.stays)).mpr ?_⟩
  rw [removes.fileAt?, if_neg different, found]

/-- What was emptied is nowhere when the source is removed. -/
theorem Emptied.removed {fs'' : FileSystem} (emptied : Emptied root fs' path target place)
    (removes : Sets fs' fs'' place none) :
    ¬ Holds fs'' path bytes ∧
      ¬ ∃ other, target.path? root = some other ∧ Holds fs'' other bytes := by
  have nothing : ∀ {p}, Names fs' p place → ¬ Holds fs'' p bytes := by
    intro p names
    rw [holds_iff_of_names (names.of_stays removes.stays), removes.fileAt?, if_pos rfl]
    nofun
  obtain ⟨other, at_other, names⟩ := emptied.same
  refine ⟨nothing emptied.names, ?_⟩
  rintro ⟨other', at_other', holds⟩
  cases at_other.symm.trans at_other'
  exact nothing names holds

/-! ## Copies and moves -/

/-- What is left of the source's bytes after the command: the source itself has them, or
after a move the resolved target may have them instead. -/
def Keeps (root : String) (fs' : FileSystem) (c : Command) (path : String) (landed : Operand)
    (bytes : List UInt8) : Prop :=
  Holds fs' path bytes ∨
    c.isMove = true ∧ ∃ other, landed.path? root = some other ∧ Holds fs' other bytes

theorem keeps_copy_iff {result : Except Store.Failure Unit}
    (parsed : parse text = .ok (.copy source target)) (at_path : source.path? root = some path)
    (before : w.files.resolve path = .ok (place, .file bytes))
    (ran : (runAt pace (.of root settings) (.copy source target)).run w = (result, w')) :
    Keeps root w'.files (.copy source target) path (target.resolveTarget w.files source) bytes ↔
      (LeadsTo root w.files (target.resolveTarget w.files source) place → bytes = []) := by
  obtain ⟨sent, ends, _⟩ := run_copy parsed ran
  have copies : Keeps root w'.files (.copy source target) path
      (target.resolveTarget w.files source) bytes ↔ Holds w'.files path bytes := by
    simp [Keeps, isMove]
  rw [copies]
  by_cases leads : LeadsTo root w.files (target.resolveTarget w.files source) place
  · have emptied := emptied_of_leadsTo ends at_path before leads
    rw [holds_iff_of_names emptied.names, emptied.found]
    simp [leads, eq_comm]
  · have spared := spared_of_not_leadsTo ends at_path before leads
    refine iff_of_true ((holds_iff_of_names spared.names).mpr spared.found) ?_
    exact fun back => absurd back leads

theorem keeps_move_iff {result : Except Store.Failure Unit}
    (parsed : parse text = .ok (.move source target)) (at_path : source.path? root = some path)
    (before : w.files.resolve path = .ok (place, .file bytes))
    (ran : (runAt pace (.of root settings) (.move source target)).run w = (result, w')) :
    Keeps root w'.files (.move source target) path (target.resolveTarget w.files source) bytes ↔
      (LeadsTo root w.files (target.resolveTarget w.files source) place →
        bytes = [] ∧ result ≠ .ok ()) := by
  obtain ⟨sent, w₁, ends, stopped | ⟨n, rfl, removing⟩⟩ := run_move parsed ran
  · obtain ⟨failure, rfl, rfl, rfl⟩ := stopped
    by_cases leads : LeadsTo root w.files (target.resolveTarget w.files source) place
    · have emptied := emptied_of_leadsTo ends at_path before leads
      obtain ⟨other, at_other, names⟩ := emptied.same
      have either : Keeps root w'.files (.move source target) path
          (target.resolveTarget w.files source) bytes ↔ bytes = [] := by
        simp only [Keeps, at_other, Option.some.injEq, exists_eq_left',
          holds_iff_of_names emptied.names, holds_iff_of_names names, emptied.found]
        simp [isMove, eq_comm]
      rw [either]
      simp [leads]
    · have spared := spared_of_not_leadsTo ends at_path before leads
      refine iff_of_true (Or.inl ((holds_iff_of_names spared.names).mpr spared.found)) ?_
      exact fun back => absurd back leads
  · by_cases leads : LeadsTo root w.files (target.resolveTarget w.files source) place
    · have emptied := emptied_of_leadsTo ends at_path before leads
      obtain ⟨w₂, removed, removes⟩ := run_runRemove (.of root settings) at_path emptied.names
        emptied.found
      rw [removed] at removing
      cases removing
      obtain ⟨source_gone, target_gone⟩ := emptied.removed removes
      refine iff_of_false ?_ fun kept => (kept leads).2 rfl
      rintro (holds | ⟨_, holds⟩)
      · exact source_gone holds
      · exact target_gone holds
    · have spared := spared_of_not_leadsTo ends at_path before leads
      obtain ⟨w₂, removed, removes⟩ := run_runRemove (.of root settings) at_path spared.names
        spared.found
      rw [removed] at removing
      cases removing
      exact iff_of_true (Or.inr ⟨rfl, spared.removed removes⟩) fun back => absurd back leads

/-- The bytes of a source that is a file survive a copy or a move, exactly if the target
does not lead back to the source, or there are no bytes and the source is not removed. -/
theorem source_bytes_kept_iff {c : Command} {result : Except Store.Failure Unit}
    (parsed : parse text = .ok c) (ends : c.ends? = some (source, target))
    (at_path : source.path? root = some path)
    (before : w.files.resolve path = .ok (place, .file bytes))
    (ran : (runAt pace (.of root settings) c).run w = (result, w')) :
    Keeps root w'.files c path (target.resolveTarget w.files source) bytes ↔
      (LeadsTo root w.files (target.resolveTarget w.files source) place →
        bytes = [] ∧ ¬ (c.isMove = true ∧ result = .ok ())) := by
  cases c with
  | copy s t =>
    cases ends
    rw [keeps_copy_iff parsed at_path before ran]
    simp [isMove]
  | move s t =>
    cases ends
    rw [keeps_move_iff parsed at_path before ran]
    simp [isMove]
  | remove t => cases ends
  | list stem => cases ends

/-- Chunks of four bytes. -/
def chunksOfFour : Settings := { chunkSize := 4 }

/-- A store with one object. -/
def shelf : Workspace :=
  ⟨⟨⟨[(["store"], .dir), (["store", "a"], .file [97, 98, 99])]⟩, [], none⟩, .zero, []⟩

/-- The upload of a file of the store to its own key. -/
def uploadToItself : Command := .copy (.file "store/a") (.object "a")

/-- How it ends. -/
def uploadedToItself : Except Store.Failure Unit × Workspace :=
  (run (.of "store" chunksOfFour) uploadToItself).run shelf

theorem source_bytes_kept_iff_upload :
    parse "cp store/a store://a" = .ok uploadToItself ∧ uploadedToItself.1 = .ok () ∧
      ¬ Keeps "store" uploadedToItself.2.files uploadToItself "store/a" (.object "a")
        [97, 98, 99] ∧
      LeadsTo "store" shelf.files (.object "a") ["store", "a"] := by
  have parsed : parse "cp store/a store://a" = .ok uploadToItself := by decide +kernel
  have before : shelf.files.resolve "store/a" =
      .ok (["store", "a"], .file [97, 98, 99]) := by decide +kernel
  have resolved : (Operand.object "a").resolveTarget shelf.files (.file "store/a") =
      .object "a" := by decide +kernel
  have worked : uploadedToItself.1 = .ok () := by decide +kernel
  have ran : (run (.of "store" chunksOfFour) uploadToItself).run shelf =
      (.ok (), uploadedToItself.2) := eq_of_answer worked
  have after : uploadedToItself.2.files.resolve "store/a" =
      .ok (["store", "a"], .file []) := by decide +kernel
  have lost : ¬ Keeps "store" uploadedToItself.2.files uploadToItself "store/a" (.object "a")
      [97, 98, 99] := by
    rintro (⟨place, found⟩ | ⟨moves, _⟩)
    · rw [after] at found
      cases found
    · cases moves
  refine ⟨parsed, worked, lost, Classical.byContradiction fun apart => lost ?_⟩
  have kept := (source_bytes_kept_iff parsed rfl rfl before ran).mpr
  rw [resolved] at kept
  exact kept fun leads => absurd leads apart

/-- The move of an object to its own key. -/
def moveToItself : Command := .move (.object "a") (.object "a")

/-- How it ends. -/
def movedToItself : Except Store.Failure Unit × Workspace :=
  (run (.of "store" chunksOfFour) moveToItself).run shelf

/-- A move may lose the bytes of its source. -/
theorem move_loses_bytes :
    ¬ ∀ (text root path : String) (c : Command) (source target : Operand)
      (settings : Settings) (w w' : Workspace) (result : Except Store.Failure Unit)
      (place : Place) (bytes : List UInt8), parse text = .ok c →
      c.ends? = some (source, target) → source.path? root = some path →
      w.files.resolve path = .ok (place, .file bytes) →
      (run (.of root settings) c).run w = (result, w') →
      Keeps root w'.files c path (target.resolveTarget w.files source) bytes := by
  intro keeps
  have parsed : parse "mv store://a store://a" = .ok moveToItself := by decide +kernel
  have at_path : (Operand.object "a").path? "store" = some "store/a" := by decide +kernel
  have before : shelf.files.resolve "store/a" =
      .ok (["store", "a"], .file [97, 98, 99]) := by decide +kernel
  have resolved : (Operand.object "a").resolveTarget shelf.files (.object "a") =
      .object "a" := by decide +kernel
  have ran : (run (.of "store" chunksOfFour) moveToItself).run shelf =
      (movedToItself.1, movedToItself.2) := rfl
  have after : movedToItself.2.files.resolve "store/a" = .error .notFound := by decide +kernel
  rcases keeps _ _ _ _ _ _ _ _ _ _ _ _ parsed rfl at_path before ran with
    ⟨place, found⟩ | ⟨_, other, at_other, place, found⟩
  · rw [after] at found
    cases found
  · rw [resolved, at_path] at at_other
    cases at_other
    rw [after] at found
    cases found

end CommandPool.Command
