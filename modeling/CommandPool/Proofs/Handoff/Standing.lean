import CommandPool.Proofs.Handoff.Parts

/-!
# What a poll leaves standing

A poll moves sends and receives.  It gives no signal, and it leaves the sender, the
number of receivers, the jobs that were sent and the signals they watch as they are.
-/

namespace CommandPool.Handoff

variable {α : Type} {h h' h'' : Handoff α}

/-- The jobs that were sent, by ticket. -/
def jobs (h : Handoff α) : List α := h.sends.map (·.job)

/-- The signals that the sends watch, by ticket. -/
def signals (h : Handoff α) : List Nat := h.sends.map (·.signal)

/-- The signals, the sender, the number of receivers and the jobs are the same. -/
structure Standing (h h' : Handoff α) : Prop where
  given : h'.given = h.given
  senderOpen : h'.senderOpen = h.senderOpen
  receivers : h'.receivers = h.receivers
  jobs : h'.jobs = h.jobs
  signals : h'.signals = h.signals

theorem Standing.refl (h : Handoff α) : Standing h h := ⟨rfl, rfl, rfl, rfl, rfl⟩

theorem Standing.trans (first : Standing h h') (second : Standing h' h'') : Standing h h'' where
  given := second.given.trans first.given
  senderOpen := second.senderOpen.trans first.senderOpen
  receivers := second.receivers.trans first.receivers
  jobs := second.jobs.trans first.jobs
  signals := second.signals.trans first.signals

/-- The lines, the slot and the receives play no part. -/
theorem standing_of_same (sends : h'.sends = h.sends) (given : h'.given = h.given)
    (senderOpen : h'.senderOpen = h.senderOpen) (receivers : h'.receivers = h.receivers) :
    Standing h h' :=
  ⟨given, senderOpen, receivers, by rw [jobs, sends, ← jobs], by rw [signals, sends, ← signals]⟩

/-! ## Parts of polls -/

/-- What does not depend on the state of a send stays when the state changes. -/
theorem map_sends_setSend {β : Type} (h : Handoff α) (ticket : Nat) (state : SendState)
    (f : Send α → β) (same : ∀ s, f { s with state := state } = f s) :
    (h.setSend ticket state).sends.map f = h.sends.map f := by
  refine List.ext_getElem? fun i => ?_
  simp only [setSend, List.getElem?_map, List.getElem?_modify]
  cases h.sends[i]? with
  | none => rfl
  | some s => by_cases equal : ticket = i <;> simp [equal, same]

theorem standing_setSend (h : Handoff α) (ticket : Nat) (state : SendState) :
    Standing h (h.setSend ticket state) where
  given := rfl
  senderOpen := rfl
  receivers := rfl
  jobs := map_sends_setSend h ticket state (·.job) fun _ => rfl
  signals := map_sends_setSend h ticket state (·.signal) fun _ => rfl

theorem standing_dropIfGone (h : Handoff α) : Standing h h.dropIfGone := by
  rcases dropIfGone_cases h with same | emptied | ⟨ticket, _, lost⟩
  · rw [same]
    exact .refl h
  · rw [emptied]
    exact standing_of_same rfl rfl rfl rfl
  · rw [lost]
    have emptied : Standing h { h with slot := none } := standing_of_same rfl rfl rfl rfl
    exact emptied.trans (standing_setSend _ ticket .lost)

theorem standing_refuse (h : Handoff α) (ticket : Nat) (e : SubmitError) :
    Standing h (h.refuse ticket e) := by
  have left : Standing h (h.leaveLine ticket) := standing_of_same rfl rfl rfl rfl
  exact left.trans (standing_setSend _ ticket _)

/-! ## Polls of a send -/

theorem standing_shutOut {ticket : Nat} (step : h.shutOut ticket = some h') : Standing h h' := by
  obtain ⟨_, step⟩ := Option.ite_none_right_eq_some.mp step
  cases step
  exact standing_refuse h ticket .closed

theorem standing_post {ticket : Nat} (step : h.post ticket = some h') : Standing h h' := by
  obtain ⟨_, step⟩ := Option.ite_none_right_eq_some.mp step
  cases step
  have left : Standing h (h.leaveLine ticket) := standing_of_same rfl rfl rfl rfl
  have posted := left.trans (standing_setSend _ ticket .posted)
  exact posted.trans (standing_of_same rfl rfl rfl rfl)

theorem standing_sight {ticket : Nat} (step : h.sight ticket = some h') : Standing h h' := by
  obtain ⟨_, step⟩ := Option.ite_none_right_eq_some.mp step
  cases step
  exact standing_setSend h ticket _

theorem standing_withdraw {ticket : Nat} (step : h.withdraw ticket = some h') :
    Standing h h' := by
  obtain ⟨_, step⟩ := Option.ite_none_right_eq_some.mp step
  cases step
  exact standing_setSend h ticket _

theorem standing_pollSend {ticket : Nat} (step : h.pollSend ticket = some h') :
    Standing h h' := by
  unfold pollSend at step
  split at step
  next =>
    split at step
    next => cases step; exact standing_refuse h ticket .cancelled
    next =>
      rcases Option.or_eq_some_iff.mp step with out | ⟨_, posted⟩
      · exact standing_shutOut out
      · exact standing_post posted
  next =>
    obtain ⟨seen, sighted, withdrawn⟩ := Option.bind_eq_some_iff.mp step
    exact (standing_sight sighted).trans (standing_withdraw withdrawn)
  next => exact standing_withdraw step
  next => cases step; exact standing_setSend h ticket _
  next => cases step; exact standing_setSend h ticket _
  next => cases step
  next => cases step

/-! ## Polls of a receive -/

theorem standing_ask (h : Handoff α) : Standing h h.ask := standing_of_same rfl rfl rfl rfl

theorem standing_take {turn : Nat} (step : h.take turn = some h') : Standing h h' := by
  obtain ⟨_, step⟩ := Option.ite_none_right_eq_some.mp step
  obtain ⟨ticket, _, rfl⟩ := Option.map_eq_some_iff.mp step
  exact standing_of_same rfl rfl rfl rfl

theorem standing_accept {turn : Nat} (step : h.accept turn = some h') : Standing h h' := by
  unfold accept at step
  split at step
  next ticket _ =>
    split at step
    next =>
      cases step
      have got : Standing (h.setSend ticket .taken)
          ((h.setSend ticket .taken).setRecv turn (.got ticket)) :=
        standing_of_same rfl rfl rfl rfl
      exact ((standing_setSend h ticket .taken).trans got).trans (standing_dropIfGone _)
    next =>
      cases step
      exact standing_of_same rfl rfl rfl rfl
  next => cases step

/-- A receive that ends leaves the line, and the queue may be without receivers then. -/
theorem standing_leave (h : Handoff α) (turn : Nat) (state : RecvState) :
    Standing h ((h.setRecv turn state).leaveTurns turn).dropIfGone := by
  have left : Standing h ((h.setRecv turn state).leaveTurns turn) :=
    standing_of_same rfl rfl rfl rfl
  exact left.trans (standing_dropIfGone _)

theorem standing_pollRecv {turn : Nat} (step : h.pollRecv turn = some h') : Standing h h' := by
  unfold pollRecv at step
  split at step
  next =>
    rcases Option.or_eq_some_iff.mp step with taken | ⟨_, concluded⟩
    · obtain ⟨held, took, accepted⟩ := Option.bind_eq_some_iff.mp taken
      exact (standing_take took).trans (standing_accept accepted)
    · obtain ⟨_, step⟩ := Option.ite_none_right_eq_some.mp concluded
      cases step
      exact standing_leave h turn .closed
  next => exact standing_accept step
  next => cases step

theorem standing_startRecv (h : Handoff α) : Standing h h.startRecv := by
  unfold startRecv
  cases step : h.ask.pollRecv h.nextTurn with
  | none => exact standing_ask h
  | some h' => exact (standing_ask h).trans (standing_pollRecv step)

theorem standing_abandon {turn : Nat} (step : h.abandon turn = some h') : Standing h h' := by
  obtain ⟨_, step⟩ := Option.ite_none_right_eq_some.mp step
  cases step
  exact standing_leave h turn .abandoned

end CommandPool.Handoff
