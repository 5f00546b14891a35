import CommandPool.Command.Resources
import CommandPool.Proofs.Store.Chunks

/-!
# The buffer makes no difference

A chunk is the part of the buffer that was filled, so nothing that an earlier upload has left in the
buffer is ever sent.  An upload through the buffer has the same answer as one that has none, and
leaves the same workspace, whatever is in the buffer when it starts (`mirrors_copyBuffered`).

Reading fills the buffer from the front.  What is in front of the next position is the part of the
chunk that was read, and what is behind it is left over (`run_fillBuffer`).
-/

namespace CommandPool.Command

open Store (Operand Request Site Workspace)
open Files (Place)
open Files.FileSystem

variable {α β : Type} {r : Resources} {w : Workspace} {bytes buffer : List UInt8}
  {context path key : String}

/-! ## Work and requests -/

/-- The work has the answer of the request and leaves its workspace, with anything in the
buffer. -/
def Mirrors (work : Work α) (ask : Request α) (r : Resources) : Prop :=
  ∃ left, work.run r = ((ask.run r.workspace).1, ⟨(ask.run r.workspace).2, left⟩)

theorem run_request (ask : Request α) (r : Resources) :
    (request ask).run r =
      ((ask.run r.workspace).1, ⟨(ask.run r.workspace).2, r.buffer⟩) := by
  rw [request, run_bind_ok (run_get r)]
  rcases ask.run r.workspace with ⟨_ | _, w⟩ <;> rfl

theorem mirrors_request (ask : Request α) (r : Resources) : Mirrors (request ask) ask r :=
  ⟨_, run_request ask r⟩

theorem run_request_ok {ask : Request α} {a : α} (ran : ask.run r.workspace = (.ok a, w)) :
    (request ask).run r = (.ok a, ⟨w, r.buffer⟩) := by
  rw [run_request, ran]

/-- A request that succeeds leaves the buffer as it is. -/
theorem buffer_of_request {ask : Request α} {a : α} {r' : Resources}
    (ran : (request ask).run r = (.ok a, r')) : r'.buffer = r.buffer := by
  rw [run_request] at ran
  exact (congrArg Resources.buffer (congrArg Prod.snd ran)).symm

theorem mirrors_pure (a : α) (r : Resources) : Mirrors (pure a) (pure a) r := ⟨r.buffer, rfl⟩

theorem Mirrors.bind {work : Work α} {ask : Request α} {g : α → Work β} {f : α → Request β}
    (first : Mirrors work ask r)
    (rest : ∀ a r', work.run r = (.ok a, r') → Mirrors (g a) (f a) r') :
    Mirrors (work >>= g) (ask >>= f) r := by
  obtain ⟨left, ran⟩ := first
  rcases asked : ask.run r.workspace with ⟨e | a, w⟩
  · rw [asked] at ran
    exact ⟨left, by rw [run_bind_error ran, run_bind_error asked]⟩
  · rw [asked] at ran
    obtain ⟨left', ran'⟩ := rest a _ ran
    exact ⟨left', by rw [run_bind_ok ran, run_bind_ok asked, ran']⟩

/-! ## The buffer -/

theorem length_resized (buffer : List UInt8) (length : Nat) :
    (resized buffer length).length = length := by
  rw [resized, List.length_append, List.length_take, List.length_replicate]
  omega

theorem length_overwritten {position : Nat} (fits : position + bytes.length ≤ buffer.length) :
    (overwritten buffer position bytes).length = buffer.length := by
  rw [overwritten, List.length_append, List.length_append, List.length_take, List.length_drop]
  omega

/-- What is in front of the end of the new bytes. -/
theorem take_overwritten {position : Nat} (within : position ≤ buffer.length) :
    (overwritten buffer position bytes).take (position + bytes.length) =
      buffer.take position ++ bytes := by
  have front : (buffer.take position ++ bytes).length = position + bytes.length := by
    rw [List.length_append, List.length_take, Nat.min_eq_left within]
  rw [overwritten, ← front, List.take_left]

theorem mirrors_resizeBuffer (length : Nat) (r : Resources) :
    Mirrors (resizeBuffer length) (Store.askBuffer length) r := by
  by_cases fits : length ≤ Store.greatestBuffer
  · have asked : (Store.askBuffer length).run r.workspace = (.ok (), r.workspace) := by
      rw [Store.askBuffer, if_pos fits]
      rfl
    rw [Mirrors, resizeBuffer, run_bind_ok (run_request_ok asked), asked]
    exact ⟨_, rfl⟩
  · have refused : (Store.askBuffer length).run r.workspace = (.error .noBuffer, r.workspace) := by
      rw [Store.askBuffer, if_neg fits]
      rfl
    have stops : (request (Store.askBuffer length)).run r = (.error .noBuffer, r) := by
      rw [run_request, refused]
    rw [Mirrors, resizeBuffer, run_bind_error stops, refused]
    exact ⟨_, rfl⟩

theorem length_of_resizeBuffer {length : Nat} {r' : Resources}
    (ran : (resizeBuffer length).run r = (.ok (), r')) : r'.buffer.length = length := by
  obtain ⟨_, r₁, _, ran⟩ := run_bind_eq_ok ran
  cases ran
  exact length_resized r₁.buffer length

/-! ## Chunks -/

theorem run_request_readAt (context : String) {place : Place}
    (found : r.workspace.files.fileAt? place = some bytes) (offset count : Nat) :
    (request (Store.onFiles context (readAt place offset count))).run r =
      (.ok ((bytes.drop offset).take count), r) := by
  rw [run_request, Store.run_onFiles, run_readAt, found]
  rfl

/-- The buffer is filled with what is left of the file.  In front of that it keeps what it was
filled with before. -/
theorem run_fillBuffer (pace : Nat → Nat) (context : String) {place : Place} {offset : Nat}
    (found : r.workspace.files.fileAt? place = some bytes) {room filled : Nat}
    (within : filled ≤ r.buffer.length) (enough : r.buffer.length - filled ≤ room)
    {chunk : List UInt8}
    (left_over : (bytes.drop (offset + filled)).take (r.buffer.length - filled) = chunk) :
    ∃ left, (fillBuffer pace context place offset room filled).run r =
        (.ok (filled + chunk.length), ⟨r.workspace, left⟩) ∧
      left.length = r.buffer.length ∧
      left.take (filled + chunk.length) = r.buffer.take filled ++ chunk := by
  induction room generalizing r filled chunk with
  | zero =>
    rw [Nat.le_zero.mp enough, List.take_zero] at left_over
    subst left_over
    exact ⟨r.buffer, rfl, rfl, (List.append_nil _).symm⟩
  | succ room ih =>
    rw [fillBuffer, run_bind_ok (run_get r)]
    split
    next free =>
      obtain ⟨want, least⟩ :
          ∃ want, min (r.buffer.length - filled) (pace (offset + filled) + 1) = want := ⟨_, rfl⟩
      have less : want ≤ r.buffer.length - filled := least ▸ Nat.min_le_left _ _
      obtain ⟨got, gets⟩ : ∃ got, (bytes.drop (offset + filled)).take want = got := ⟨_, rfl⟩
      simp only [least]
      rw [run_bind_ok (run_request_readAt context found _ _), gets]
      split
      next nothing =>
        rw [nothing] at gets
        have ended := (List.take_eq_nil_iff.mp gets).resolve_left (by omega)
        rw [ended, List.take_nil] at left_over
        subst left_over
        exact ⟨r.buffer, rfl, rfl, (List.append_nil _).symm⟩
      next something =>
        have positive := List.length_pos_iff.mpr something
        have short : got.length ≤ want := gets ▸ List.length_take_le _ _
        have fits : filled + got.length ≤ r.buffer.length := by omega
        have length := length_overwritten fits
        -- The rest of the chunk is read behind what was got.
        have split := Store.take_append_take_drop (bytes.drop (offset + filled)) less
        rw [gets, List.drop_drop, Nat.sub_sub, Nat.add_assoc, left_over] at split
        obtain ⟨left, ran, kept, taken⟩ :=
          ih (r := ⟨r.workspace, overwritten r.buffer filled got⟩) found (length.symm ▸ fits)
            (by rw [length]; omega) (by rw [length])
        refine ⟨left, ?_, kept.trans length, ?_⟩
        · rw [run_bind_ok (run_modify _ r)]
          refine ran.trans ?_
          rw [← split, List.length_append, Nat.add_assoc]
        · rw [Nat.add_assoc, ← List.length_append, split, take_overwritten within,
            List.append_assoc, split] at taken
          exact taken
    next full =>
      have none_left : r.buffer.length - filled = 0 := by omega
      rw [none_left, List.take_zero] at left_over
      subst left_over
      exact ⟨r.buffer, rfl, rfl, (List.append_nil _).symm⟩

/-- Of what is no file nothing is read into the buffer. -/
theorem run_fillBuffer_of_none (pace : Nat → Nat) (context : String) {place : Place}
    (missing : r.workspace.files.fileAt? place = none) (positive : 0 < r.buffer.length)
    (offset : Nat) :
    (fillBuffer pace context place offset r.buffer.length 0).run r =
      (.error (.error (.ofFault context .isDirectory)), r) := by
  obtain ⟨room, length⟩ : ∃ room, r.buffer.length = room + 1 :=
    ⟨_, (Nat.succ_pred_eq_of_pos positive).symm⟩
  rw [length, fillBuffer, run_bind_ok (run_get r), if_pos positive]
  refine run_bind_error ?_ _
  rw [run_request, Store.run_onFiles, run_readAt, missing]
  rfl

/-! ## Uploads -/

theorem mirrors_sendBuffered (pace : Nat → Nat) (context key : String) (source target : Place)
    {chunkSize : Nat} (positive : 0 < chunkSize) (length : r.buffer.length = chunkSize)
    (budget offset : Nat) :
    Mirrors (sendBuffered pace context key source target budget offset)
      (Store.sendChunks pace context key chunkSize source target budget offset) r := by
  induction budget generalizing r offset with
  | zero => exact mirrors_pure 0 r
  | succ budget ih =>
    rw [Mirrors, sendBuffered, run_bind_ok (run_get r), Store.sendChunks]
    cases found : r.workspace.files.fileAt? source with
    | none =>
      have failed := Store.run_fillChunk_of_none pace found positive offset
      have failed' := run_fillBuffer_of_none pace context found (length ▸ positive) offset
      rw [Store.run_onFiles_error failed, run_bind_error failed']
      exact ⟨_, rfl⟩
    | some bytes =>
      have filled := Store.run_fillChunk pace found (Nat.le_refl chunkSize) offset
      have left_over : (bytes.drop (offset + 0)).take (r.buffer.length - 0) =
          (bytes.drop offset).take chunkSize := by rw [length]; rfl
      obtain ⟨left, ran, kept, taken⟩ :=
        run_fillBuffer pace context found (Nat.zero_le _) (Nat.sub_le _ 0) left_over
      rw [Nat.zero_add] at ran taken
      rw [Store.run_onFiles_ok filled, run_bind_ok ran]
      split
      next nothing =>
        rw [if_pos (List.eq_nil_of_length_eq_zero nothing)]
        exact ⟨left, rfl⟩
      next something =>
        rw [if_neg fun empty => something (congrArg List.length empty), run_bind_ok (run_get _)]
        simp only [taken, List.take_zero, List.nil_append]
        refine (mirrors_request _ ⟨r.workspace, left⟩).bind fun _ r₁ sent => ?_
        have same : r₁.buffer.length = chunkSize := by
          rw [buffer_of_request sent]
          exact kept.trans length
        exact (ih same _).bind fun rest r₂ _ => mirrors_pure _ r₂

theorem mirrors_uploadBuffered (pace : Nat → Nat) (root : String) {chunkSize : Nat}
    (positive : 0 < chunkSize) (path key : String) (r : Resources) :
    Mirrors (uploadBuffered pace root chunkSize path key)
      (Store.upload pace root chunkSize path key) r := by
  refine (mirrors_request _ r).bind fun _ r₁ _ => ?_
  refine (mirrors_request _ r₁).bind fun source r₂ _ => ?_
  refine (mirrors_request _ r₂).bind fun target r₃ _ => ?_
  refine (mirrors_resizeBuffer chunkSize r₃).bind fun _ r₄ resizes => ?_
  rw [Mirrors, run_bind_ok (run_get r₄), run_bind_ok (run_get r₄.workspace)]
  exact mirrors_sendBuffered pace path key source target positive
    (length_of_resizeBuffer resizes) _ 0

/-- A copy through the buffer has the same answer as one without, and leaves the same workspace. -/
theorem mirrors_copyBuffered (pace : Nat → Nat) {site : Site} (positive : 0 < site.chunkSize)
    (source target : Operand) (r : Resources) :
    Mirrors (copyBuffered pace site source target) (runCopy pace site source target) r := by
  rw [Mirrors, copyBuffered, run_bind_ok (run_get r), runCopy, run_bind_ok (run_get r.workspace)]
  cases source with
  | object key => exact mirrors_request _ r
  | file path =>
    cases target.resolveTarget r.workspace.files (.file path) with
    | object key => exact mirrors_uploadBuffered pace site.root positive path key r
    | file other => exact mirrors_request _ r

end CommandPool.Command
