import CommandPool.Proofs.Handoff.Standing
import CommandPool.Proofs.Pool.Acts

/-!
# What a client asks for

Three things in a queue change only because a client asks for it: the jobs that were
sent, the sender and the signals.  All other pieces leave them alone, whatever they do to
the workers.
-/

namespace CommandPool.Pool

variable {α : Type} {p p' : Pool α}

/-- What a piece asks for is what becomes of the jobs, the sender and the signals. -/
structure Asks (l : Piece α) (h h' : Handoff (Job α)) : Prop where
  given : h'.given = if l.cancels then signal :: h.given else h.given
  senderOpen : h'.senderOpen = (h.senderOpen && !l.closes)
  jobs : h'.jobs = h.jobs ++ l.job?.toList

variable {h h' : Handoff (Job α)} {l : Piece α}

theorem Asks.length_sends (asks : Asks l h h') :
    h'.sends.length = h.sends.length + l.job?.toList.length := by
  have sent := congrArg List.length asks.jobs
  simpa only [Handoff.jobs, List.length_append, List.length_map] using sent

theorem asks_of_standing (standing : Handoff.Standing h h') (job : l.job? = none)
    (closes : l.closes = false) (cancels : l.cancels = false) : Asks l h h' where
  given := by rw [standing.given, cancels]; rfl
  senderOpen := by rw [standing.senderOpen, closes]; simp
  jobs := by rw [standing.jobs, job]; simp

theorem asks_offer (h : Handoff (Job α)) (job : Job α) :
    Asks (.offer job) h (h.offer job signal) := by
  unfold Handoff.offer
  split <;> exact ⟨rfl, by simp [Piece.closes], by simp [Handoff.jobs, Piece.job?]⟩

theorem asks_startSend (h : Handoff (Job α)) (job : Job α) :
    Asks (.whole (.submit job)) h (h.startSend job signal) := by
  obtain ⟨given, senderOpen, jobs⟩ := asks_offer h job
  unfold Handoff.startSend
  dsimp only
  cases polled : (h.offer job signal).pollSend h.nextTicket with
  | none => exact ⟨given, senderOpen, jobs⟩
  | some q =>
    have standing := Handoff.standing_pollSend polled
    exact ⟨standing.given.trans given, standing.senderOpen.trans senderOpen,
      standing.jobs.trans jobs⟩

theorem Acts.asks (acts : Acts h l h') : Asks l h h' := by
  cases acts with
  | nothing job closes cancels => exact asks_of_standing (.refl h) job closes cancels
  | submit job => exact asks_startSend h job
  | pollSubmit polled => exact asks_of_standing (Handoff.standing_pollSend polled) rfl rfl rfl
  | close closes _ =>
    refine ⟨?_, by rw [closes]; exact (Bool.and_false _).symm, ?_⟩
    · rcases l with (_ | _) | _ <;> first | rfl | cases closes
    · rcases l with (_ | _) | _ <;> first | exact (List.append_nil _).symm | cases closes
  | cancel => exact ⟨rfl, (Bool.and_true _).symm, (List.append_nil _).symm⟩
  | offer job => exact asks_offer h job
  | shutOut part => exact asks_of_standing (Handoff.standing_shutOut part) rfl rfl rfl
  | post part => exact asks_of_standing (Handoff.standing_post part) rfl rfl rfl
  | sight part => exact asks_of_standing (Handoff.standing_sight part) rfl rfl rfl
  | ask w => exact asks_of_standing (Handoff.standing_ask h) rfl rfl rfl
  | take part => exact asks_of_standing (Handoff.standing_take part) rfl rfl rfl
  | receive w => exact asks_of_standing (Handoff.standing_startRecv h) rfl rfl rfl
  | pollReceive polled => exact asks_of_standing (Handoff.standing_pollRecv polled) rfl rfl rfl
  | abandon part => exact asks_of_standing (Handoff.standing_abandon part) rfl rfl rfl

theorem asks_stepPiece (step : p.stepPiece l = some p') : Asks l p.queue p'.queue := by
  obtain ⟨q, acts, same | dropped⟩ := acts_stepPiece step
  · rw [same]
    exact acts.asks
  · have asks := acts.asks
    have standing := Handoff.standing_dropIfGone { q with receivers := q.receivers - 1 }
    rw [dropped]
    exact ⟨standing.given.trans asks.given, standing.senderOpen.trans asks.senderOpen,
      standing.jobs.trans asks.jobs⟩

/-! ## The cancellation -/

/-- Only a cancellation cancels, and it is for good. -/
theorem cancelled_stepPiece (step : p.stepPiece l = some p') :
    p'.cancelled = (p.cancelled || l.cancels) := by
  simp only [Pool.cancelled, Handoff.isGiven, (asks_stepPiece step).given]
  cases l.cancels <;> simp

theorem cancelled_stays (cancelled : p.cancelled = true) (step : p.stepPiece l = some p') :
    p'.cancelled = true := by
  rw [cancelled_stepPiece step, cancelled, Bool.true_or]

theorem cancelled_pieces {ls : List (Piece α)} (cancelled : p.cancelled = true)
    (run : p.pieces ls = some p') : p'.cancelled = true :=
  holds_of_pieces (·.cancelled = true) (fun _ _ _ => cancelled_stays) cancelled run

end CommandPool.Pool
