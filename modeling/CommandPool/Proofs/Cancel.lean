import CommandPool.Cancel
import CommandPool.Proofs.Pool.ExactlyOnce
import CommandPool.Proofs.Pool.Requests
import Mathlib.Logic.Relation

/-!
# Handles on the signal of a run

A handle tells what became of its signal, whoever gave it.  Clones are handles on the same signal
and stay so, and a new context has a signal that nobody else gives.  A pool is opened with one
handle.  From then on that handle and all its clones tell whether the run is cancelled
(`governs_run`), whatever the pool does and whatever is done with other handles.
-/

namespace CommandPool

namespace CancelContexts

variable {c c' : CancelContexts} {i j : Nat}

/-! ## Handles -/

/-- Both are handles on one signal. -/
def Shares (c : CancelContexts) (i j : Nat) : Prop :=
  ∃ s, c.signals[i]? = some s ∧ c.signals[j]? = some s

theorem Shares.isCancelled (shares : c.Shares i j) : c.isCancelled i = c.isCancelled j := by
  obtain ⟨s, at_i, at_j⟩ := shares
  rw [CancelContexts.isCancelled, CancelContexts.isCancelled, at_i, at_j]

/-- What can be done with handles. -/
inductive Does (c : CancelContexts) : CancelContexts → Prop where
  | new : Does c c.new
  | clone (i : Nat) : Does c (c.clone i)
  | cancel (i : Nat) : Does c (c.cancel i)

/-- Signals are numbered in the order in which they were made, and no others are given. -/
structure Sound (c : CancelContexts) : Prop where
  made : ∀ s ∈ c.signals, s < c.signals.length
  given : ∀ s ∈ c.given, s < c.signals.length

theorem sound_first : first.Sound := ⟨by decide, nofun⟩

theorem signals_cancel (c : CancelContexts) (i : Nat) : (c.cancel i).signals = c.signals := by
  unfold cancel
  split <;> rfl

theorem given_clone (c : CancelContexts) (i : Nat) : (c.clone i).given = c.given := by
  unfold clone
  split <;> rfl

/-- Handles stay on their signals. -/
theorem Does.signals (does : Does c c') : c.signals <+: c'.signals := by
  cases does with
  | new => exact List.prefix_append _ _
  | clone i =>
    unfold CancelContexts.clone
    split
    next => exact List.prefix_append _ _
    next => exact List.prefix_rfl
  | cancel i => exact (signals_cancel c i) ▸ List.prefix_rfl

theorem Does.at_handle {s : Nat} (does : Does c c') (found : c.signals[i]? = some s) :
    c'.signals[i]? = some s := by
  obtain ⟨more, whole⟩ := does.signals
  rw [← whole, List.getElem?_append_left (List.getElem?_eq_some_iff.mp found).1]
  exact found

/-- What shares a signal shares it for ever. -/
theorem Does.shares (does : Does c c') (shares : c.Shares i j) : c'.Shares i j := by
  obtain ⟨s, at_i, at_j⟩ := shares
  exact ⟨s, does.at_handle at_i, does.at_handle at_j⟩

theorem sound_does (sound : c.Sound) (does : Does c c') : c'.Sound := by
  cases does with
  | new =>
    refine ⟨fun s member => ?_, fun s given => ?_⟩
    · rw [new, List.length_append]
      rcases List.mem_append.mp member with old | new
      · exact Nat.lt_add_right 1 (sound.made s old)
      · cases List.mem_singleton.mp new
        exact Nat.lt_succ_self _
    · rw [new, List.length_append]
      exact Nat.lt_add_right 1 (sound.given s given)
  | clone i =>
    unfold clone
    split
    next s found =>
      have known := sound.made s (List.mem_of_getElem? found)
      refine ⟨fun other member => ?_, fun other given => ?_⟩
      · rw [List.length_append]
        rcases List.mem_append.mp member with old | new
        · exact Nat.lt_add_right 1 (sound.made other old)
        · cases List.mem_singleton.mp new
          exact Nat.lt_add_right 1 known
      · rw [List.length_append]
        exact Nat.lt_add_right 1 (sound.given other given)
    next => exact sound
  | cancel i =>
    unfold cancel
    split
    next s found =>
      exact ⟨sound.made, List.forall_mem_cons.mpr
        ⟨sound.made s (List.mem_of_getElem? found), sound.given⟩⟩
    next => exact sound

/-- All that can come of the first context is sound. -/
theorem sound_run (run : Relation.ReflTransGen Does first c) : c.Sound := by
  induction run with
  | refl => exact sound_first
  | tail _ does ih => exact sound_does ih does

/-- A clone is a handle on the same signal. -/
theorem shares_clone (inside : i < c.signals.length) : (c.clone i).Shares i c.signals.length := by
  have found : c.signals[i]? = some c.signals[i] := List.getElem?_eq_getElem inside
  have kept := (Does.clone i).at_handle found
  refine ⟨c.signals[i], kept, ?_⟩
  rw [clone, found]
  exact List.getElem?_concat_length

/-- A new context is not cancelled, and shares its signal with no handle before. -/
theorem new_alone (sound : c.Sound) :
    c.new.isCancelled c.signals.length = false ∧
      ∀ j < c.signals.length, ¬ c.new.Shares j c.signals.length := by
  have last : c.new.signals[c.signals.length]? = some c.signals.length :=
    List.getElem?_concat_length
  refine ⟨?_, fun j inside shares => ?_⟩
  · rw [isCancelled, last]
    simp only [Bool.eq_false_iff, ne_eq, List.contains_iff_mem]
    exact fun given => Nat.lt_irrefl _ (sound.given _ given)
  · obtain ⟨s, at_j, at_last⟩ := shares
    cases at_last.symm.trans last
    rw [new, List.getElem?_append_left inside] at at_j
    exact Nat.lt_irrefl _ (sound.made _ (List.mem_of_getElem? at_j))

/-- To cancel through a handle cancels what shares its signal, and nothing else. -/
theorem isCancelled_cancel (c : CancelContexts) (i j : Nat) :
    (c.cancel i).isCancelled j = true ↔ c.isCancelled j = true ∨ c.Shares i j := by
  rw [isCancelled, isCancelled, signals_cancel]
  cases at_j : c.signals[j]? with
  | none => simp [Shares, at_j]
  | some s =>
    cases at_i : c.signals[i]? with
    | none => simp [cancel, Shares, at_i]
    | some other =>
      have shares : c.Shares i j ↔ s = other := by
        constructor
        · rintro ⟨t, first, second⟩
          exact Option.some.inj (at_j.symm.trans (second.trans (first.symm.trans at_i)))
        · rintro rfl
          exact ⟨s, at_i, at_j⟩
      rw [shares]
      simp [cancel, at_i, or_comm]

end CancelContexts

namespace Pool

open CancelContexts (Does Shares)

variable {α : Type}

/-! ## Runs under a handle -/

/-- What can happen to handles and a pool.  A handle on the signal of the pool cancels the run. -/
inductive Goes : CancelContexts × Pool α → CancelContexts × Pool α → Prop where
  | pool {c : CancelContexts} {p p' : Pool α} {l : Piece α} :
      l.cancels = false → p.stepPiece l = some p' → Goes (c, p) (c, p')
  | new (c : CancelContexts) (p : Pool α) : Goes (c, p) (c.new, p)
  | clone (c : CancelContexts) (p : Pool α) (i : Nat) : Goes (c, p) (c.clone i, p)
  | cancel {c : CancelContexts} (p : Pool α) {i : Nat} :
      c.signals[i]? = some signal → Goes (c, p) (c.cancel i, p.cancel)
  | cancelOther {c : CancelContexts} (p : Pool α) {i : Nat} :
      c.signals[i]? ≠ some signal → Goes (c, p) (c.cancel i, p)

variable {c : CancelContexts} {i j : Nat} {p : Pool α} {x y : CancelContexts × Pool α}

/-- The handle is on the signal of the pool, and this was given if the run is cancelled. -/
structure Governs (c : CancelContexts) (i : Nat) (p : Pool α) : Prop where
  handle : c.signals[i]? = some signal
  given : c.given.contains signal = p.cancelled

/-- The handle tells whether the run is cancelled. -/
theorem Governs.isCancelled (governs : Governs c i p) : c.isCancelled i = p.cancelled := by
  rw [CancelContexts.isCancelled, governs.handle]
  exact governs.given

theorem Governs.of_shares (governs : Governs c i p) (shares : c.Shares i j) : Governs c j p := by
  obtain ⟨s, at_i, at_j⟩ := shares
  exact ⟨at_j.trans (at_i.symm.trans governs.handle), governs.given⟩

/-- A pool is opened under a handle, which may be cancelled already. -/
theorem governs_openWith {ρ : Type} {s : Settings} {build : Nat → Except (List String) ρ}
    (handle : c.signals[i]? = some signal) (opened : openWith s build (c.isCancelled i) = .ok p) :
    Governs c i p := by
  refine ⟨handle, ?_⟩
  have same : c.isCancelled i = c.given.contains signal := by
    rw [CancelContexts.isCancelled, handle]
  rw [openWith_eq_ok opened, same]
  cases c.given.contains signal <;> rfl

theorem Governs.goes (governs : Governs x.1 i x.2) (goes : Goes x y) : Governs y.1 i y.2 := by
  obtain ⟨handle, given⟩ := governs
  cases goes with
  | pool calm step =>
    refine ⟨handle, given.trans ?_⟩
    rw [cancelled_stepPiece step, calm, Bool.or_false]
  | new => exact ⟨Does.new.at_handle handle, given⟩
  | clone c p other =>
    refine ⟨(Does.clone other).at_handle handle, ?_⟩
    rw [CancelContexts.given_clone]
    exact given
  | @cancel c p other same =>
    refine ⟨(Does.cancel other).at_handle handle, ?_⟩
    simp [CancelContexts.cancel, same, Pool.cancel, cancelled, Handoff.isGiven, Handoff.cancel]
  | @cancelOther c p other different =>
    refine ⟨(Does.cancel other).at_handle handle, ?_⟩
    unfold CancelContexts.cancel
    split
    next s at_other =>
      have unlike : signal ≠ s := fun same => different (same ▸ at_other)
      simpa [unlike] using given
    next => exact given

/-- Whatever is done, the handle of a pool and its clones tell whether the run is cancelled. -/
theorem governs_run (governs : Governs x.1 i x.2) (run : Relation.ReflTransGen Goes x y) :
    ∀ j, y.1.Shares i j → y.1.isCancelled j = y.2.cancelled := by
  have at_end : Governs y.1 i y.2 := by
    induction run with
    | refl => exact governs
    | tail _ goes ih => exact ih.goes goes
  exact fun j shares => (at_end.of_shares shares).isCancelled

end Pool

end CommandPool
