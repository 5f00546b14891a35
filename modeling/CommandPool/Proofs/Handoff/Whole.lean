import CommandPool.Proofs.Handoff.Got

/-!
# Whole polls of receives

A receive holds a delivery only within a poll.  As long as the polls of receives do not
overlap with anything, none holds a delivery from one step to the next.
-/

namespace CommandPool.Handoff

variable {α : Type} {h h' : Handoff α}

/-- No receive other than that of this turn holds a delivery. -/
def HeldBy (h : Handoff α) (turn : Nat) : Prop :=
  ∀ i ≠ turn, ∀ state, h.recvs[i]? = some state → state.isHolding = false

/-- No receive holds a delivery. -/
def Unheld (h : Handoff α) : Prop :=
  ∀ (i : Nat) (state : RecvState), h.recvs[i]? = some state → state.isHolding = false

theorem Unheld.holds (unheld : Unheld h) (turn : Nat) : h.holds turn = false := by
  rw [Handoff.holds]
  cases found : h.recvs[turn]? with
  | none => rfl
  | some state => exact unheld turn state found

theorem Unheld.of_recvs (unheld : Unheld h) (same : h'.recvs = h.recvs) : Unheld h' := by
  rw [Unheld, same]
  exact unheld

/-- The receive that may hold a delivery moves. -/
theorem HeldBy.set {turn : Nat} {s : RecvState} (held : HeldBy h turn)
    (moved : h'.recvs = h.recvs.set turn s) :
    HeldBy h' turn ∧ (s.isHolding = false → Unheld h') := by
  have others : HeldBy h' turn := by
    intro i other found at_i
    rw [moved, List.getElem?_set_ne (Ne.symm other)] at at_i
    exact held i other found at_i
  refine ⟨others, fun free i found at_i => ?_⟩
  by_cases equal : i = turn
  · subst equal
    rw [moved] at at_i
    have inside : i < h.recvs.length := by
      simpa using (List.getElem?_eq_some_iff.mp at_i).1
    rw [List.getElem?_set_self inside] at at_i
    cases at_i
    exact free
  · exact others i equal found at_i

theorem unheld_accept {turn : Nat} (held : HeldBy h turn) (step : h.accept turn = some h') :
    Unheld h' := by
  unfold accept at step
  split at step
  next ticket _ =>
    split at step <;> cases step
    next => exact (held.set (s := .got ticket) (recvs_dropIfGone _)).2 rfl
    next => exact (held.set (s := .waiting) rfl).2 rfl
  next => cases step

theorem unheld_pollRecv {turn : Nat} (unheld : Unheld h) (step : h.pollRecv turn = some h') :
    Unheld h' := by
  have held : HeldBy h turn := fun i _ => unheld i
  unfold pollRecv at step
  split at step
  next =>
    rcases Option.or_eq_some_iff.mp step with taken | ⟨_, concluded⟩
    · obtain ⟨taking, took, accepted⟩ := Option.bind_eq_some_iff.mp taken
      obtain ⟨ticket, moved⟩ := recvs_take took
      exact unheld_accept (held.set moved).1 accepted
    · exact (held.set (recvs_conclude concluded)).2 rfl
  next => exact unheld_accept held step
  next => cases step

theorem unheld_ask (unheld : Unheld h) : Unheld h.ask := by
  intro i state found
  rcases getElem?_concat_eq_some_iff.mp found with before | ⟨_, rfl⟩
  · exact unheld i state before
  · rfl

theorem unheld_startRecv (unheld : Unheld h) : Unheld h.startRecv := by
  unfold startRecv
  cases step : h.ask.pollRecv h.nextTurn with
  | none => exact unheld_ask unheld
  | some h' => exact unheld_pollRecv (unheld_ask unheld) step

theorem unheld_abandon {turn : Nat} (unheld : Unheld h) (step : h.abandon turn = some h') :
    Unheld h' :=
  (HeldBy.set (fun i _ => unheld i) (recvs_abandon step).2).2 rfl

/-! ## Steps -/

theorem unheld_step {l : Label α} (unheld : Unheld h) (step : h.step l = some h') : Unheld h' := by
  cases l with
  | send job signal =>
    obtain ⟨_, step⟩ := Option.ite_none_right_eq_some.mp step
    cases step
    exact unheld.of_recvs (recvs_startSend h job signal)
  | pollSend ticket => exact unheld.of_recvs (recvs_pollSend step)
  | recv =>
    obtain ⟨_, step⟩ := Option.ite_none_left_eq_some.mp step
    cases step
    exact unheld_startRecv unheld
  | pollRecv turn => exact unheld_pollRecv unheld step
  | abandon turn => exact unheld_abandon unheld step
  | cancel signal => cases step; exact unheld.of_recvs rfl
  | dropSender => cases step; exact unheld.of_recvs rfl
  | dropReceiver => cases step; exact unheld.of_recvs (recvs_dropIfGone _)

/-- A receive that takes a delivery accepts or drops it in the same piece. -/
theorem unheld_stepPiece {l : Piece α} (unheld : Unheld h) (step : h.stepPiece l = some h')
    (whole : ∀ turn, l ≠ .take turn) : Unheld h' := by
  cases l with
  | whole l => exact unheld_step unheld step
  | offer job signal =>
    obtain ⟨_, step⟩ := Option.ite_none_right_eq_some.mp step
    cases step
    exact unheld.of_recvs (recvs_offer h job signal)
  | shutOut ticket => exact unheld.of_recvs (recvs_shutOut step)
  | post ticket => exact unheld.of_recvs (recvs_post step)
  | sight ticket => exact unheld.of_recvs (recvs_sight step)
  | ask =>
    obtain ⟨_, step⟩ := Option.ite_none_left_eq_some.mp step
    cases step
    exact unheld_ask unheld
  | take turn => exact absurd rfl (whole turn)

theorem unheld_new (receivers : Nat) : Unheld (new receivers : Handoff α) := nofun

end CommandPool.Handoff
