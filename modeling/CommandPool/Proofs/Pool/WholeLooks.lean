import CommandPool.Proofs.Handoff.Whole
import CommandPool.Proofs.Pool.Requests

/-!
# Whole looks of workers

Here the polls of workers are whole, and only those of clients overlap with other
things.  Then a worker that looks sees the cancellation as it is, and once the run is
cancelled no worker gets a job.
-/

namespace CommandPool.Pool

variable {α : Type} {p p' : Pool α}

/-- The piece is a part of a poll of a worker. -/
def Piece.splitsLook : Piece α → Bool
  | .ask _ => true
  | .take _ => true
  | _ => false

/-! ## Receives move when a worker looks -/

theorem recvs_dropReceiver (h : Handoff α) : h.dropReceiver.recvs = h.recvs :=
  Handoff.recvs_dropIfGone _

theorem recvs_proceed (p : Pool α) (w : Nat) (t : Task α) (outcome : Outcome) :
    (p.proceed w t outcome).queue.recvs = p.queue.recvs := by
  obtain ⟨_, _, _, same | dropped, _⟩ := proceed_fields p w t outcome
  · rw [same]
  · rw [dropped, recvs_dropReceiver]

theorem recvs_settleAsk (p : Pool α) (w turn : Nat) :
    (p.settleAsk w turn).queue.recvs = p.queue.recvs := by
  unfold settleAsk
  split
  next => split <;> rfl
  next => exact recvs_dropReceiver p.queue
  next => rfl

/-- Only a worker that looks moves a receive. -/
theorem recvs_stepPiece {l : Piece α} (step : p.stepPiece l = some p')
    (whole : l.splitsLook = false) (other : ∀ w, l ≠ .whole (.look w)) :
    p'.queue.recvs = p.queue.recvs := by
  obtain ⟨q, acts, queue⟩ := acts_stepPiece step
  have same : p'.queue.recvs = q.recvs := by
    rcases queue with same | dropped
    · rw [same]
    · rw [dropped, recvs_dropReceiver]
  rw [same]
  cases acts with
  | submit job => exact Handoff.recvs_startSend p.queue job signal
  | pollSubmit polled => exact Handoff.recvs_pollSend polled
  | offer job => exact Handoff.recvs_offer p.queue job signal
  | shutOut part => exact Handoff.recvs_shutOut part
  | post part => exact Handoff.recvs_post part
  | sight part => exact Handoff.recvs_sight part
  | ask w => cases whole
  | take part => cases whole
  | receive w => exact absurd rfl (other w)
  | pollReceive polled => exact absurd rfl (other _)
  | abandon part => exact absurd rfl (other _)
  | _ => rfl

/-! ## No delivery is held between looks -/

theorem unheld_look {w : Nat} (unheld : p.queue.Unheld) (step : p.look w = some p') :
    p'.queue.Unheld := by
  obtain ⟨phase, _, step⟩ := Option.bind_eq_some_iff.mp step
  cases phase with
  | idle =>
    simp only [lookFrom] at step
    split at step <;> cases step
    next => exact unheld.of_recvs (recvs_dropReceiver p.queue)
    next => exact (Handoff.unheld_startRecv unheld).of_recvs (recvs_settleAsk _ w _)
  | asking turn =>
    simp only [lookFrom] at step
    split at step
    next =>
      cases step
      have left : ((p.queue.abandon turn).getD p.queue).Unheld := by
        cases abandoned : p.queue.abandon turn with
        | none => exact unheld
        | some q => exact Handoff.unheld_abandon unheld abandoned
      exact left.of_recvs (recvs_dropReceiver _)
    next =>
      obtain ⟨q, polled, rfl⟩ := Option.map_eq_some_iff.mp step
      exact (Handoff.unheld_pollRecv unheld polled).of_recvs (recvs_settleAsk _ w turn)
  | sleeping t error delay =>
    obtain ⟨_, step⟩ := Option.ite_none_right_eq_some.mp step
    cases step
    exact unheld.of_recvs (recvs_proceed _ w _ .failed)
  | _ => cases step

theorem unheld_stepPiece {l : Piece α} (unheld : p.queue.Unheld)
    (step : p.stepPiece l = some p') (whole : l.splitsLook = false) : p'.queue.Unheld := by
  by_cases look : ∃ w, l = .whole (.look w)
  · obtain ⟨w, rfl⟩ := look
    exact unheld_look unheld step
  · exact unheld.of_recvs (recvs_stepPiece step whole fun w same => look ⟨w, same⟩)

theorem unheld_pieces {ls : List (Piece α)} (unheld : p.queue.Unheld)
    (run : p.pieces ls = some p') (whole : ∀ l ∈ ls, l.splitsLook = false) :
    p'.queue.Unheld := by
  induction ls generalizing p with
  | nil => cases run; exact unheld
  | cons l ls ih =>
    obtain ⟨next, step, rest⟩ := Option.bind_eq_some_iff.mp run
    obtain ⟨first, others⟩ := List.forall_mem_cons.mp whole
    exact ih (unheld_stepPiece unheld step first) rest others

theorem unheld_started (s : Settings) (cancelled : Bool) :
    (started s cancelled : Pool α).queue.Unheld := by
  intro i state found
  cases found

/-! ## No job is taken after the cancellation -/

/-- A worker that looks after the cancellation stops, or fails the node that it waits
for. -/
theorem look_of_cancelled {w : Nat} (unheld : p.queue.Unheld) (cancelled : p.cancelled = true)
    (step : p.look w = some p') (ticket : Nat) :
    p'.queue.Got ticket ↔ p.queue.Got ticket := by
  obtain ⟨phase, _, step⟩ := Option.bind_eq_some_iff.mp step
  cases phase with
  | idle =>
    simp only [lookFrom, if_pos cancelled] at step
    cases step
    exact got_dropReceiver p.queue ticket
  | asking turn =>
    have stops : (p.cancelled && !p.queue.holds turn) = true := by
      rw [cancelled, unheld.holds]
      rfl
    simp only [lookFrom, if_pos stops] at step
    cases step
    refine (got_dropReceiver _ ticket).trans ?_
    cases abandoned : p.queue.abandon turn with
    | none => rfl
    | some q => exact Handoff.got_same_abandon abandoned ticket
  | sleeping t error delay =>
    obtain ⟨_, step⟩ := Option.ite_none_right_eq_some.mp step
    cases step
    exact Handoff.got_same_of_recvs (recvs_proceed _ w _ .failed) ticket
  | _ => cases step

theorem got_stepPiece {l : Piece α} (unheld : p.queue.Unheld) (cancelled : p.cancelled = true)
    (step : p.stepPiece l = some p') (whole : l.splitsLook = false) (ticket : Nat) :
    p'.queue.Got ticket ↔ p.queue.Got ticket := by
  by_cases look : ∃ w, l = .whole (.look w)
  · obtain ⟨w, rfl⟩ := look
    exact look_of_cancelled unheld cancelled step ticket
  · have same := recvs_stepPiece step whole fun w same => look ⟨w, same⟩
    exact Handoff.got_same_of_recvs same ticket

/-- Once the run is cancelled no worker takes a job. -/
theorem got_pieces {ls : List (Piece α)} (unheld : p.queue.Unheld)
    (cancelled : p.cancelled = true) (run : p.pieces ls = some p')
    (whole : ∀ l ∈ ls, l.splitsLook = false) (ticket : Nat) :
    p'.queue.Got ticket ↔ p.queue.Got ticket := by
  induction ls generalizing p with
  | nil => cases run; rfl
  | cons l ls ih =>
    obtain ⟨next, step, rest⟩ := Option.bind_eq_some_iff.mp run
    obtain ⟨first, others⟩ := List.forall_mem_cons.mp whole
    have still := cancelled_stays cancelled step
    have later := ih (unheld_stepPiece unheld step first) still rest others
    exact later.trans (got_stepPiece unheld cancelled step first ticket)

end CommandPool.Pool
