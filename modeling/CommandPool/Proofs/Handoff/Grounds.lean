import CommandPool.Proofs.Handoff.Standing

/-!
# The grounds of a refusal

A send that is called off has a signal that was given to blame, and no other send ends as
cancelled.  A send ends as closed only if no receiver is left, or if it was started after
the sender was gone.  These grounds stay: a signal that was given is not taken back, and
neither a receiver nor the sender comes back.
-/

namespace CommandPool.Handoff

variable {α : Type} {h h' : Handoff α}

/-- There are grounds for a send to be in this state. -/
def IsGrounded (h : Handoff α) : SendState → Prop
  | .leaving => h.given ≠ []
  | .lost => h.receivers = 0
  | .ended (.refused .cancelled) => h.given ≠ []
  | .ended (.refused .closed) => h.receivers = 0 ∨ h.senderOpen = false
  | _ => True

/-- There are grounds for the states of all sends. -/
def Grounded (h : Handoff α) : Prop :=
  ∀ ticket state, h.sendState? ticket = some state → h.IsGrounded state

/-- Grounds stay. -/
structure Worsens (h h' : Handoff α) : Prop where
  given : h.given ≠ [] → h'.given ≠ []
  receivers : h.receivers = 0 → h'.receivers = 0
  senderOpen : h.senderOpen = false → h'.senderOpen = false

theorem worsens_of_same (given : h'.given = h.given) (receivers : h'.receivers = h.receivers)
    (senderOpen : h'.senderOpen = h.senderOpen) : Worsens h h' :=
  ⟨fun some => by rwa [given], fun none => by rwa [receivers], fun closed => by rwa [senderOpen]⟩

theorem Worsens.isGrounded (worsens : Worsens h h') {state : SendState}
    (grounded : h.IsGrounded state) : h'.IsGrounded state := by
  cases state with
  | leaving => exact worsens.given grounded
  | lost => exact worsens.receivers grounded
  | ended how =>
    cases how with
    | accepted => trivial
    | refused e =>
      cases e with
      | cancelled => exact worsens.given grounded
      | closed => exact grounded.imp worsens.receivers worsens.senderOpen
  | _ => trivial

/-! ## Changes of sends -/

/-- The line, the slot and the receives play no part. -/
theorem grounded_of_same (grounded : Grounded h) (sends : h'.sends = h.sends)
    (worsens : Worsens h h') : Grounded h' := by
  intro ticket state found
  rw [sendState?, sends, ← sendState?] at found
  exact worsens.isGrounded (grounded ticket state found)

theorem grounded_setSend {new : SendState} (grounded : Grounded h) (ticket : Nat)
    (grounds : h.IsGrounded new) : Grounded (h.setSend ticket new) := by
  have same : Worsens h (h.setSend ticket new) := worsens_of_same rfl rfl rfl
  intro other state found
  rw [sendState?_setSend] at found
  split at found
  next =>
    obtain ⟨_, _, rfl⟩ := Option.map_eq_some_iff.mp found
    exact same.isGrounded grounds
  next => exact same.isGrounded (grounded other state found)

theorem given_of_isCancelled {ticket : Nat} (cancelled : h.isCancelled ticket = true) :
    h.given ≠ [] := by
  obtain ⟨s, _, given⟩ := (Option.any_eq_true _ _).mp cancelled
  intro none
  rw [isGiven, none] at given
  cases given

theorem receivers_of_gone (gone : h.receiversGone = true) : h.receivers = 0 := by
  simp only [receiversGone, Bool.and_eq_true, beq_iff_eq] at gone
  exact gone.1.1

theorem grounded_dropIfGone (grounded : Grounded h) : Grounded h.dropIfGone := by
  unfold dropIfGone
  split
  next gone =>
    split
    next => exact grounded
    next ticket _ =>
      have emptied : Grounded { h with slot := none } :=
        grounded_of_same grounded rfl (worsens_of_same rfl rfl rfl)
      dsimp only
      split
      next => exact grounded_setSend emptied ticket (receivers_of_gone gone)
      next => exact emptied
  next => exact grounded

theorem grounded_refuse {e : SubmitError} (grounded : Grounded h) (ticket : Nat)
    (grounds : h.IsGrounded (.ended (.refused e))) : Grounded (h.refuse ticket e) := by
  have same : Worsens h (h.leaveLine ticket) := worsens_of_same rfl rfl rfl
  have left : Grounded (h.leaveLine ticket) := grounded_of_same grounded rfl same
  exact grounded_setSend left ticket (same.isGrounded grounds)

/-! ## Polls of a send -/

theorem grounded_shutOut {ticket : Nat} (grounded : Grounded h)
    (step : h.shutOut ticket = some h') : Grounded h' := by
  simp only [shutOut, Bool.and_eq_true, Option.ite_none_right_eq_some, Option.some.injEq] at step
  obtain ⟨⟨_, gone⟩, rfl⟩ := step
  exact grounded_refuse grounded ticket (Or.inl (receivers_of_gone gone))

theorem grounded_post {ticket : Nat} (grounded : Grounded h) (step : h.post ticket = some h') :
    Grounded h' := by
  obtain ⟨_, step⟩ := Option.ite_none_right_eq_some.mp step
  cases step
  have left : Grounded (h.leaveLine ticket) :=
    grounded_of_same grounded rfl (worsens_of_same rfl rfl rfl)
  have posted : Grounded ((h.leaveLine ticket).setSend ticket .posted) :=
    grounded_setSend left ticket trivial
  exact grounded_of_same posted rfl (worsens_of_same rfl rfl rfl)

theorem grounded_sight {ticket : Nat} (grounded : Grounded h) (step : h.sight ticket = some h') :
    Grounded h' := by
  simp only [sight, Bool.and_eq_true, Option.ite_none_right_eq_some, Option.some.injEq] at step
  obtain ⟨⟨_, cancelled⟩, rfl⟩ := step
  exact grounded_setSend grounded ticket (given_of_isCancelled cancelled)

theorem grounded_withdraw {ticket : Nat} (grounded : Grounded h)
    (step : h.withdraw ticket = some h') : Grounded h' := by
  obtain ⟨leaving, step⟩ := Option.ite_none_right_eq_some.mp step
  cases step
  exact grounded_setSend grounded ticket (grounded ticket .leaving leaving)

theorem grounded_pollSend {ticket : Nat} (grounded : Grounded h)
    (step : h.pollSend ticket = some h') : Grounded h' := by
  unfold pollSend at step
  split at step
  next =>
    split at step
    next cancelled =>
      cases step
      exact grounded_refuse grounded ticket (given_of_isCancelled cancelled)
    next =>
      rcases Option.or_eq_some_iff.mp step with out | ⟨_, posted⟩
      · exact grounded_shutOut grounded out
      · exact grounded_post grounded posted
  next =>
    obtain ⟨seen, sighted, withdrawn⟩ := Option.bind_eq_some_iff.mp step
    exact grounded_withdraw (grounded_sight grounded sighted) withdrawn
  next => exact grounded_withdraw grounded step
  next => cases step; exact grounded_setSend grounded ticket trivial
  next lost =>
    cases step
    exact grounded_setSend grounded ticket (Or.inl (grounded ticket .lost lost))
  next => cases step
  next => cases step

theorem grounded_offer (grounded : Grounded h) (job : α) (signal : Nat) :
    Grounded (h.offer job signal) := by
  unfold offer
  split
  next =>
    intro ticket state found
    rcases (sendState?_eq_some_iff_of_concat rfl).mp found with before | ⟨_, rfl⟩
    · exact (worsens_of_same rfl rfl rfl).isGrounded (grounded ticket state before)
    · trivial
  next closed =>
    intro ticket state found
    rcases (sendState?_eq_some_iff_of_concat rfl).mp found with before | ⟨_, rfl⟩
    · exact (worsens_of_same rfl rfl rfl).isGrounded (grounded ticket state before)
    · exact Or.inr (eq_false_of_ne_true closed)

theorem grounded_startSend (grounded : Grounded h) (job : α) (signal : Nat) :
    Grounded (h.startSend job signal) := by
  have offered := grounded_offer grounded job signal
  unfold startSend
  dsimp only
  cases polled : (h.offer job signal).pollSend h.nextTicket with
  | none => exact offered
  | some q => exact grounded_pollSend offered polled

/-! ## Polls of a receive -/

theorem grounded_take {turn : Nat} (grounded : Grounded h) (step : h.take turn = some h') :
    Grounded h' := by
  obtain ⟨_, step⟩ := Option.ite_none_right_eq_some.mp step
  obtain ⟨ticket, _, rfl⟩ := Option.map_eq_some_iff.mp step
  exact grounded_of_same grounded rfl (worsens_of_same rfl rfl rfl)

theorem grounded_accept {turn : Nat} (grounded : Grounded h) (step : h.accept turn = some h') :
    Grounded h' := by
  unfold accept at step
  split at step
  next ticket _ =>
    split at step <;> cases step
    next =>
      have taken : Grounded (h.setSend ticket .taken) := grounded_setSend grounded ticket trivial
      exact grounded_dropIfGone (grounded_of_same taken rfl (worsens_of_same rfl rfl rfl))
    next => exact grounded_of_same grounded rfl (worsens_of_same rfl rfl rfl)
  next => cases step

theorem grounded_leave (grounded : Grounded h) (turn : Nat) (state : RecvState) :
    Grounded ((h.setRecv turn state).leaveTurns turn).dropIfGone :=
  grounded_dropIfGone (grounded_of_same grounded rfl (worsens_of_same rfl rfl rfl))

theorem grounded_pollRecv {turn : Nat} (grounded : Grounded h)
    (step : h.pollRecv turn = some h') : Grounded h' := by
  unfold pollRecv at step
  split at step
  next =>
    rcases Option.or_eq_some_iff.mp step with taken | ⟨_, concluded⟩
    · obtain ⟨held, took, accepted⟩ := Option.bind_eq_some_iff.mp taken
      exact grounded_accept (grounded_take grounded took) accepted
    · obtain ⟨_, step⟩ := Option.ite_none_right_eq_some.mp concluded
      cases step
      exact grounded_leave grounded turn .closed
  next => exact grounded_accept grounded step
  next => cases step

theorem grounded_ask (grounded : Grounded h) : Grounded h.ask :=
  grounded_of_same grounded rfl (worsens_of_same rfl rfl rfl)

theorem grounded_startRecv (grounded : Grounded h) : Grounded h.startRecv := by
  unfold startRecv
  cases step : h.ask.pollRecv h.nextTurn with
  | none => exact grounded_ask grounded
  | some h' => exact grounded_pollRecv (grounded_ask grounded) step

theorem grounded_abandon {turn : Nat} (grounded : Grounded h) (step : h.abandon turn = some h') :
    Grounded h' := by
  obtain ⟨_, step⟩ := Option.ite_none_right_eq_some.mp step
  cases step
  exact grounded_leave grounded turn .abandoned

/-! ## The two sides -/

theorem grounded_dropSender (grounded : Grounded h) : Grounded h.dropSender :=
  grounded_of_same grounded rfl ⟨id, id, fun _ => rfl⟩

theorem grounded_cancel (grounded : Grounded h) (signal : Nat) : Grounded (h.cancel signal) :=
  grounded_of_same grounded rfl ⟨fun _ => List.cons_ne_nil _ _, id, id⟩

theorem grounded_dropReceiver (grounded : Grounded h) : Grounded h.dropReceiver := by
  have less : Worsens h { h with receivers := h.receivers - 1 } :=
    ⟨id, fun none => congrArg (· - 1) none, id⟩
  exact grounded_dropIfGone (grounded_of_same grounded rfl less)

theorem grounded_new (receivers : Nat) : Grounded (new receivers : Handoff α) := by
  intro ticket state found
  cases found

end CommandPool.Handoff
