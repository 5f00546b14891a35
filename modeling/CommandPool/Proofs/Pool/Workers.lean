import CommandPool.Proofs.Handoff.Standing
import CommandPool.Proofs.Pool.Changes

/-!
# One worker at a time

A step or a piece moves at most the one worker that it names, and only one that is not
gone.  A worker that has a job then makes a move of it.  A worker that goes takes a
receiver with it, so the queue has as many receivers as there are workers that are not
gone.
-/

namespace CommandPool.Pool

variable {α : Type} {p p' : Pool α}

/-- The worker that a piece names. -/
def Piece.worker? : Piece α → Option Nat
  | .whole (.look w) => some w
  | .whole (.start w) => some w
  | .whole (.finish w _) => some w
  | .whole (.crash w _) => some w
  | .whole (.wake w) => some w
  | .ask w => some w
  | .take w => some w
  | _ => none

/-- A worker that is not gone moves to another phase, and no other worker moves. -/
structure Stirs (p p' : Pool α) (w : Nat) (old new : Phase α) : Prop where
  before : p.phase? w = some old
  present : old.isGone = false
  workers : p'.workers = p.workers.set w new
  receivers : p'.queue.receivers = p.queue.receivers - new.isGone.toNat
  /-- With a job it does not stay in its stage. -/
  leaves : old.stage? = none ∨ new.stage? ≠ old.stage?

/-- No worker moves. -/
structure Unstirred (p p' : Pool α) : Prop where
  workers : p'.workers = p.workers
  receivers : p'.queue.receivers = p.queue.receivers

theorem receivers_dropReceiver (h : Handoff α) :
    h.dropReceiver.receivers = h.receivers - 1 :=
  (Handoff.standing_dropIfGone { h with receivers := h.receivers - 1 }).receivers

/-- A worker that goes on after a node is about to make an attempt, or without a job.  It
is gone if a wait was cut short and its job is at its end. -/
theorem proceed_stirs (p : Pool α) (w : Nat) (t : Task α) (outcome : Outcome) :
    ∃ phase, (p.proceed w t outcome).workers = p.workers.set w phase ∧
      (p.proceed w t outcome).queue.receivers = p.queue.receivers - phase.isGone.toNat ∧
      (phase.stage? = none ∨ ∃ next, phase.stage? = some (.ready next)) := by
  unfold proceed
  split
  next next _ => exact ⟨.ready _, rfl, rfl, Or.inr ⟨_, rfl⟩⟩
  next =>
    split
    next => exact ⟨.stopped, rfl, receivers_dropReceiver p.queue, Or.inl rfl⟩
    next => exact ⟨.idle, rfl, rfl, Or.inl rfl⟩

/-- A worker that was at a node goes on after it. -/
theorem stirs_of_proceed {r : Pool α} {w : Nat} {old : Phase α} {t : Task α} {outcome : Outcome}
    (at_w : p.phase? w = some old) (present : old.isGone = false)
    (tried : (∃ t, old.stage? = some (.attempting t)) ∨
      ∃ t error delay, old.stage? = some (.sleeping t error delay))
    (workers : r.workers = p.workers) (queue : r.queue = p.queue) :
    ∃ new, Stirs p (r.proceed w t outcome) w old new := by
  obtain ⟨new, moved, receivers, onward⟩ := proceed_stirs r w t outcome
  refine ⟨new, at_w, present, workers ▸ moved, queue ▸ receivers, Or.inr fun same => ?_⟩
  rw [same] at onward
  rcases tried with ⟨_, before⟩ | ⟨_, _, _, before⟩
  · rcases onward with none | ⟨_, ready⟩
    · cases before.symm.trans none
    · cases before.symm.trans ready
  · rcases onward with none | ⟨_, ready⟩
    · cases before.symm.trans none
    · cases before.symm.trans ready

/-! ## Steps of a worker -/

theorem stirs_settleAsk {q : Handoff (Job α)} {w turn : Nat} {old : Phase α}
    (at_w : p.phase? w = some old) (present : old.isGone = false) (without : old.stage? = none)
    (standing : Handoff.Standing p.queue q) (agrees : q.Agrees) :
    ∃ new, Stirs p ({ p with queue := q }.settleAsk w turn) w old new := by
  unfold settleAsk
  split
  next ticket got =>
    split
    next => exact ⟨.ready _, at_w, present, rfl, standing.receivers, Or.inl without⟩
    next missing =>
      have inside := agrees.lt_length_of_got got
      rw [List.getElem?_eq_none_iff] at missing
      exact absurd inside (Nat.not_lt.mpr missing)
  next =>
    refine ⟨.stopped, at_w, present, rfl, ?_, Or.inl without⟩
    exact (receivers_dropReceiver q).trans (congrArg (· - 1) standing.receivers)
  next => exact ⟨.asking turn, at_w, present, rfl, standing.receivers, Or.inl without⟩

theorem stirs_look {w : Nat} (agrees : p.queue.Agrees) (step : p.look w = some p') :
    ∃ old new, Stirs p p' w old new := by
  obtain ⟨phase, at_w, step⟩ := Option.bind_eq_some_iff.mp step
  refine ⟨phase, ?_⟩
  cases phase with
  | idle =>
    simp only [lookFrom] at step
    split at step <;> cases step
    next => exact ⟨.stopped, at_w, rfl, rfl, receivers_dropReceiver p.queue, Or.inl rfl⟩
    next =>
      exact stirs_settleAsk at_w rfl rfl (Handoff.standing_startRecv p.queue)
        (Handoff.sound_startRecv agrees).agrees
  | asking turn =>
    simp only [lookFrom] at step
    split at step
    next =>
      cases step
      refine ⟨.stopped, at_w, rfl, rfl, (receivers_dropReceiver _).trans ?_, Or.inl rfl⟩
      cases abandoned : p.queue.abandon turn with
      | none => rfl
      | some q => exact congrArg (· - 1) (Handoff.standing_abandon abandoned).receivers
    next =>
      obtain ⟨q, polled, rfl⟩ := Option.map_eq_some_iff.mp step
      exact stirs_settleAsk at_w rfl rfl (Handoff.standing_pollRecv polled)
        (Handoff.sound_pollRecv agrees polled).agrees
  | sleeping t error delay =>
    obtain ⟨_, step⟩ := Option.ite_none_right_eq_some.mp step
    cases step
    exact stirs_of_proceed at_w rfl (Or.inr ⟨t, error, delay, rfl⟩) rfl rfl
  | _ => cases step

theorem stirs_afterError {r : Pool α} {w : Nat} {t : Task α} (error : JobError)
    (at_w : p.phase? w = some (.attempting t)) (workers : r.workers = p.workers)
    (queue : r.queue = p.queue) :
    ∃ new, Stirs p (r.afterError w t error) w (.attempting t) new := by
  unfold afterError
  split
  next =>
    dsimp only
    split
    next => exact stirs_of_proceed at_w rfl (Or.inl ⟨t, rfl⟩) workers queue
    next =>
      refine ⟨.sleeping t.retry error (r.settings.backoff.delay t.retry.retries), at_w, rfl, ?_,
        congrArg Handoff.receivers queue, Or.inr ?_⟩
      · exact congrArg (fun phases : List (Phase α) => phases.set w _) workers
      · intro same
        cases same
  next => exact stirs_of_proceed at_w rfl (Or.inl ⟨t, rfl⟩) workers queue

theorem stirs_finish {w : Nat} {report : Report} (step : p.finish w report = some p') :
    ∃ old new, Stirs p p' w old new := by
  unfold finish at step
  split at step
  next t at_w =>
    obtain ⟨workers, queue, _⟩ := record_fields p report.traces
    refine ⟨.attempting t, ?_⟩
    split at step <;> cases step
    next => exact stirs_of_proceed at_w rfl (Or.inl ⟨t, rfl⟩) workers queue
    next error _ => exact stirs_afterError error at_w workers queue
  next => cases step

theorem stirs_crash {w : Nat} {traces : Traces} (step : p.crash w traces = some p') :
    ∃ old new, Stirs p p' w old new := by
  unfold crash at step
  split at step
  next t at_w =>
    obtain ⟨workers, queue, _⟩ := record_fields p traces
    cases step
    refine ⟨.attempting t, .panicked, at_w, rfl, ?_, ?_, Or.inr ?_⟩
    · exact congrArg (fun phases : List (Phase α) => phases.set w _) workers
    · exact (receivers_dropReceiver _).trans
        (congrArg (fun q : Handoff (Job α) => q.receivers - 1) queue)
    · intro same
      cases same
  next => cases step

theorem stirs_wake {w : Nat} (step : p.wake w = some p') : ∃ old new, Stirs p p' w old new := by
  unfold wake at step
  split at step
  next t error delay at_w =>
    refine ⟨.sleeping t error delay, ?_⟩
    split at step <;> cases step
    next => exact stirs_of_proceed at_w rfl (Or.inr ⟨t, error, delay, rfl⟩) rfl rfl
    next =>
      refine ⟨.ready t, at_w, rfl, rfl, rfl, Or.inr ?_⟩
      intro same
      cases same
  next => cases step

theorem stirs_start {w : Nat} (step : p.start w = some p') : ∃ old new, Stirs p p' w old new := by
  unfold start at step
  split at step
  next t at_w =>
    cases step
    refine ⟨.ready t, .attempting t, at_w, rfl, rfl, rfl, Or.inr ?_⟩
    intro same
    cases same
  next => cases step

/-! ## Pieces -/

/-- A piece moves the worker that it names. -/
theorem stirs_stepPiece {l : Piece α} {w : Nat} (agrees : p.queue.Agrees)
    (step : p.stepPiece l = some p') (named : l.worker? = some w) :
    ∃ old new, Stirs p p' w old new := by
  cases l with
  | whole l =>
    cases l <;> cases named
    next => exact stirs_look agrees step
    next => exact stirs_start step
    next => exact stirs_finish step
    next => exact stirs_crash step
    next => exact stirs_wake step
  | ask w =>
    cases named
    simp only [stepPiece] at step
    split at step
    next at_w => cases step; exact ⟨.idle, .asking _, at_w, rfl, rfl, rfl, Or.inl rfl⟩
    next => cases step
  | take w =>
    cases named
    simp only [stepPiece] at step
    split at step
    next turn at_w =>
      obtain ⟨q, part, rfl⟩ := Option.map_eq_some_iff.mp step
      refine ⟨.asking turn, .asking turn, at_w, rfl, ?_, (Handoff.standing_take part).receivers,
        Or.inl rfl⟩
      obtain ⟨inside, here⟩ := List.getElem?_eq_some_iff.mp at_w
      rw [← here, List.set_getElem_self]
    next => cases step
  | _ => cases named

theorem unstirred_onQueue {q : Option (Handoff (Job α))} (step : p.onQueue q = some p')
    (standing : ∀ h, q = some h → Handoff.Standing p.queue h) : Unstirred p p' := by
  obtain ⟨h, part, rfl⟩ := Option.map_eq_some_iff.mp step
  exact ⟨rfl, (standing h part).receivers⟩

theorem receivers_offer (h : Handoff α) (job : α) (signal : Nat) :
    (h.offer job signal).receivers = h.receivers := by
  unfold Handoff.offer
  split <;> rfl

theorem receivers_startSend (h : Handoff (Job α)) (job : Job α) (watched : Nat) :
    (h.startSend job watched).receivers = h.receivers := by
  unfold Handoff.startSend
  dsimp only
  cases polled : (h.offer job watched).pollSend h.nextTicket with
  | none => exact receivers_offer h job watched
  | some q =>
    exact (Handoff.standing_pollSend polled).receivers.trans (receivers_offer h job watched)

/-- A piece that names no worker moves none. -/
theorem unstirred_stepPiece {l : Piece α} (step : p.stepPiece l = some p')
    (unnamed : l.worker? = none) : Unstirred p p' := by
  cases l with
  | whole l =>
    cases l with
    | submit job =>
      obtain ⟨_, step⟩ := Option.ite_none_right_eq_some.mp step
      cases step
      exact ⟨rfl, receivers_startSend p.queue job signal⟩
    | pollSubmit ticket =>
      obtain ⟨q, polled, rfl⟩ := Option.map_eq_some_iff.mp step
      exact ⟨rfl, (Handoff.standing_pollSend polled).receivers⟩
    | close =>
      obtain ⟨rfl, _⟩ := close_eq_some step
      exact ⟨rfl, rfl⟩
    | cancel => cases step; exact ⟨rfl, rfl⟩
    | beginJoin =>
      obtain ⟨_, step⟩ := Option.ite_none_left_eq_some.mp step
      obtain ⟨closed, closes, rfl⟩ := Option.map_eq_some_iff.mp step
      obtain ⟨rfl, _⟩ := close_eq_some closes
      exact ⟨rfl, rfl⟩
    | join =>
      simp only [stepPiece, Pool.step, join] at step
      split at step
      next => cases step
      next => split at step <;> cases step <;> exact ⟨rfl, rfl⟩
    | reject line error =>
      obtain ⟨_, step⟩ := Option.ite_none_right_eq_some.mp step
      cases step
      exact ⟨rfl, rfl⟩
    | drop line =>
      obtain ⟨_, step⟩ := Option.ite_none_right_eq_some.mp step
      cases step
      exact ⟨rfl, rfl⟩
    | unreadable fault =>
      obtain ⟨_, step⟩ := Option.ite_none_right_eq_some.mp step
      cases step
      exact ⟨rfl, rfl⟩
    | _ => cases unnamed
  | offer job =>
    obtain ⟨_, step⟩ := Option.ite_none_right_eq_some.mp step
    cases step
    exact ⟨rfl, receivers_offer p.queue job signal⟩
  | shutOut ticket => exact unstirred_onQueue step fun _ => Handoff.standing_shutOut
  | post ticket => exact unstirred_onQueue step fun _ => Handoff.standing_post
  | sight ticket => exact unstirred_onQueue step fun _ => Handoff.standing_sight
  | _ => cases unnamed

theorem Stirs.phase? {w : Nat} {old new : Phase α} (stirs : Stirs p p' w old new) (i : Nat) :
    p'.phase? i = if i = w then some new else p.phase? i :=
  phase?_of_set stirs.before stirs.workers i

/-- The other workers stay in their phases. -/
theorem phase?_of_unnamed {l : Piece α} {w : Nat} (agrees : p.queue.Agrees)
    (step : p.stepPiece l = some p') (other : l.worker? ≠ some w) :
    p'.phase? w = p.phase? w := by
  cases named : l.worker? with
  | none => rw [phase?, (unstirred_stepPiece step named).workers, ← phase?]
  | some i =>
    obtain ⟨old, new, stirs⟩ := stirs_stepPiece agrees step named
    rw [stirs.phase?, if_neg]
    rintro rfl
    exact other named

/-- The piece that moves a worker with a job makes a move of that job. -/
theorem moved_of_named {l : Piece α} {w : Nat} {a : Stage α} (agrees : p.queue.Agrees)
    (step : p.stepPiece l = some p') (named : l.worker? = some w) (here : p.stage? w = some a) :
    ∃ new b, Move p.settings w p.cancelled a new b ∧ p'.stage? w = b.shown := by
  obtain ⟨old, phase, stirs⟩ := stirs_stepPiece agrees step named
  have left : p'.stage? w ≠ p.stage? w := by
    have now : p'.stage? w = phase.stage? := by rw [stage?, stirs.phase?, if_pos rfl]; rfl
    rw [now, stage?_of_phase? stirs.before]
    refine stirs.leaves.resolve_left fun without => ?_
    cases ((stage?_of_phase? stirs.before).symm.trans here).symm.trans without
  cases (change_stepPiece agrees step).2 with
  | aside stages => exact absurd (stages w) left
  | taken i ticket s without _ _ stages =>
    by_cases equal : w = i
    · subst equal
      cases here.symm.trans without
    · exact absurd ((stages w).trans (if_neg equal)) left
  | moved i a' new b before move stages =>
    by_cases equal : w = i
    · subst equal
      cases here.symm.trans before
      exact ⟨new, b, move, (stages w).trans (if_pos rfl)⟩
    · exact absurd ((stages w).trans (if_neg equal)) left

/-! ## Receivers -/

/-- The queue has a receiver for each worker that is not gone. -/
def Manned (p : Pool α) : Prop := p.queue.receivers = p.workers.countP (!·.isGone)

theorem countP_set {β : Type} (q : β → Bool) {l : List β} {i : Nat} {old : β} (new : β)
    (found : l[i]? = some old) :
    (l.set i new).countP q + (q old).toNat = l.countP q + (q new).toNat := by
  induction l generalizing i with
  | nil => cases found
  | cons b l ih =>
    cases i with
    | zero =>
      simp only [List.getElem?_cons_zero, Option.some.injEq] at found
      subst found
      cases at_old : q b <;> cases at_new : q new <;> simp [at_old, at_new]
    | succ i =>
      have rest := ih found
      simp only [List.set_cons_succ, List.countP_cons]
      omega

theorem manned_stepPiece {l : Piece α} (agrees : p.queue.Agrees) (manned : Manned p)
    (step : p.stepPiece l = some p') : Manned p' := by
  cases named : l.worker? with
  | none =>
    obtain ⟨workers, receivers⟩ := unstirred_stepPiece step named
    rw [Manned, workers, receivers]
    exact manned
  | some w =>
    obtain ⟨old, new, stirs⟩ := stirs_stepPiece agrees step named
    have moved := countP_set (fun phase : Phase α => !phase.isGone) new stirs.before
    have some_present : 0 < p.workers.countP (fun phase : Phase α => !phase.isGone) := by
      refine List.countP_pos_iff.mpr ⟨old, List.mem_of_getElem? stirs.before, ?_⟩
      rw [stirs.present]
      rfl
    rw [Manned] at manned ⊢
    rw [stirs.receivers, stirs.workers, manned]
    simp only [stirs.present, Bool.not_false, Bool.toNat_true] at moved
    cases gone : new.isGone <;> simp only [gone, Bool.not_true, Bool.not_false, Bool.toNat_true,
      Bool.toNat_false] at moved ⊢ <;> omega

theorem manned_started (s : Settings) (cancelled : Bool) :
    Manned (started s cancelled : Pool α) := by
  simp [Manned, started, emit, Handoff.new, List.countP_replicate, Phase.isGone]

end CommandPool.Pool
