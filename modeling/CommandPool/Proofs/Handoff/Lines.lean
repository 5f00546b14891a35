import CommandPool.Proofs.Handoff.Parts

/-!
# Who is in line

Who waits is in line, on both sides, and who is in line waits.  So when something can
be done for the first one in line, it is done for one that waits, and nobody who waits
is passed over for ever.  When no receiver is left the slot is empty: what was in it is
lost by then.
-/

namespace CommandPool.Handoff

variable {α : Type} {h h' : Handoff α}

/-- Both lines hold the ones that wait, and without a receiver the slot is empty. -/
structure Lined (h : Handoff α) : Prop where
  line : ∀ ticket, ticket ∈ h.line ↔ h.sendState? ticket = some .waiting
  turns : ∀ turn, turn ∈ h.turns ↔ h.recvs[turn]? = some .waiting
  emptied : h.receiversGone = true → h.slot = none

/-! ## Sends -/

/-- Signals and the sender play no part. -/
theorem lined_of_same (lined : Lined h) (sends : h'.sends = h.sends) (recvs : h'.recvs = h.recvs)
    (line : h'.line = h.line) (turns : h'.turns = h.turns) (slot : h'.slot = h.slot)
    (receivers : h'.receivers = h.receivers) : Lined h' where
  line ticket := by
    rw [line, sendState?, sends, ← sendState?]
    exact lined.line ticket
  turns turn := by
    rw [turns, recvs]
    exact lined.turns turn
  emptied gone := by
    rw [slot]
    refine lined.emptied ?_
    rwa [receiversGone, holding, receivers, turns, recvs, ← holding, ← receiversGone] at gone

/-- A send that does not wait goes on. -/
theorem lined_setSend {ticket : Nat} {old new : SendState} (lined : Lined h)
    (at_ticket : h.sendState? ticket = some old) (before : old ≠ .waiting)
    (after : new ≠ .waiting) : Lined (h.setSend ticket new) where
  line other := by
    refine (lined.line other).trans ?_
    rw [sendState?_setSend]
    split
    next equal =>
      subst equal
      simp [at_ticket, before, after]
    next => rfl
  turns := lined.turns
  emptied := lined.emptied

/-- A send that waits leaves the line. -/
theorem lined_leaveLine (lined : Lined h) (ticket : Nat) (new : SendState)
    (after : new ≠ .waiting) : Lined ((h.leaveLine ticket).setSend ticket new) where
  line other := by
    have left : other ∈ ((h.leaveLine ticket).setSend ticket new).line ↔
        other ∈ h.line ∧ other ≠ ticket := by
      simp [setSend, leaveLine]
    rw [left, lined.line, sendState?_setSend]
    show _ ↔ (if ticket = other then (h.sendState? other).map _ else h.sendState? other) = _
    split
    next equal => simp [equal, after]
    next other => simp [Ne.symm other]
  turns := lined.turns
  emptied := lined.emptied

theorem lined_offer (lined : Lined h) (job : α) (signal : Nat) :
    Lined (h.offer job signal) := by
  have absent : h.sendState? h.nextTicket = none := by simp [sendState?, nextTicket]
  unfold offer
  split
  next =>
    refine ⟨fun ticket => ?_, lined.turns, lined.emptied⟩
    rw [sendState?_eq_some_iff_of_concat rfl, ← lined.line]
    simp [nextTicket]
  next =>
    refine ⟨fun ticket => ?_, lined.turns, lined.emptied⟩
    rw [sendState?_eq_some_iff_of_concat rfl, ← lined.line]
    simp

theorem lined_shutOut {ticket : Nat} (lined : Lined h) (step : h.shutOut ticket = some h') :
    Lined h' := by
  obtain ⟨_, step⟩ := Option.ite_none_right_eq_some.mp step
  cases step
  exact lined_leaveLine lined ticket _ nofun

theorem lined_post {ticket : Nat} (lined : Lined h) (step : h.post ticket = some h') :
    Lined h' := by
  simp only [post, Bool.and_eq_true, Bool.not_eq_true', Option.ite_none_right_eq_some,
    Option.some.injEq] at step
  obtain ⟨⟨⟨⟨_, present⟩, _⟩, _⟩, rfl⟩ := step
  have left := lined_leaveLine lined ticket .posted nofun
  refine ⟨left.line, left.turns, fun gone => ?_⟩
  cases present.symm.trans gone

theorem lined_sight {ticket : Nat} (lined : Lined h) (step : h.sight ticket = some h') :
    Lined h' := by
  simp only [sight, Bool.and_eq_true, decide_eq_true_eq, Option.ite_none_right_eq_some,
    Option.some.injEq] at step
  obtain ⟨⟨posted, _⟩, rfl⟩ := step
  exact lined_setSend lined posted nofun nofun

theorem lined_withdraw {ticket : Nat} (lined : Lined h) (step : h.withdraw ticket = some h') :
    Lined h' := by
  obtain ⟨leaving, step⟩ := Option.ite_none_right_eq_some.mp step
  cases step
  exact lined_setSend lined leaving nofun nofun

theorem lined_pollSend {ticket : Nat} (lined : Lined h) (step : h.pollSend ticket = some h') :
    Lined h' := by
  unfold pollSend at step
  split at step
  next =>
    split at step
    next => cases step; exact lined_leaveLine lined ticket _ nofun
    next =>
      rcases Option.or_eq_some_iff.mp step with out | ⟨_, posted⟩
      · exact lined_shutOut lined out
      · exact lined_post lined posted
  next =>
    obtain ⟨seen, sighted, withdrawn⟩ := Option.bind_eq_some_iff.mp step
    exact lined_withdraw (lined_sight lined sighted) withdrawn
  next => exact lined_withdraw lined step
  next taken => cases step; exact lined_setSend lined taken nofun nofun
  next lost => cases step; exact lined_setSend lined lost nofun nofun
  next => cases step
  next => cases step

theorem lined_startSend (lined : Lined h) (job : α) (signal : Nat) :
    Lined (h.startSend job signal) := by
  have offered := lined_offer lined job signal
  unfold startSend
  dsimp only
  cases polled : (h.offer job signal).pollSend h.nextTicket with
  | none => exact offered
  | some q => exact lined_pollSend offered polled

/-! ## Receives -/

/-- What was in the slot is lost when no receiver is left. -/
theorem lined_dropIfGone (line : ∀ ticket, ticket ∈ h.line ↔ h.sendState? ticket = some .waiting)
    (turns : ∀ turn, turn ∈ h.turns ↔ h.recvs[turn]? = some .waiting) : Lined h.dropIfGone := by
  unfold dropIfGone
  split
  next gone =>
    split
    next none => exact ⟨line, turns, fun _ => none⟩
    next ticket _ =>
      have emptied : Lined { h with slot := none } := ⟨line, turns, fun _ => rfl⟩
      dsimp only
      split
      next posted => exact lined_setSend emptied posted nofun nofun
      next => exact emptied
  next present => exact ⟨line, turns, fun gone => absurd gone present⟩

/-- A receive leaves the line for a state in which it does not wait. -/
theorem mem_turns_leave {turn : Nat} {old new : RecvState} (lined : Lined h)
    (at_turn : h.recvs[turn]? = some old) (after : new ≠ .waiting) (other : Nat) :
    other ∈ (h.leaveTurns turn).turns ↔ (h.recvs.set turn new)[other]? = some .waiting := by
  rw [← recvs_setRecv, recvs_setRecv_eq_some_iff at_turn, ← lined.turns]
  simp [leaveTurns, Ne.symm after, and_comm]

theorem lined_ask (lined : Lined h) : Lined h.ask where
  line := lined.line
  turns turn := by
    have asked : turn ∈ h.ask.turns ↔ turn ∈ h.turns ∨ turn = h.recvs.length := by
      simp [ask, nextTurn]
    rw [asked, lined.turns, ask, getElem?_concat_eq_some_iff]
    simp
  emptied gone := by
    simp [receiversGone, ask] at gone

theorem lined_take {turn : Nat} (lined : Lined h) (step : h.take turn = some h') : Lined h' := by
  obtain ⟨first, step⟩ := Option.ite_none_right_eq_some.mp step
  obtain ⟨ticket, _, rfl⟩ := Option.map_eq_some_iff.mp step
  have waiting := (lined.turns turn).mp (List.mem_of_mem_head? first)
  exact ⟨lined.line, mem_turns_leave lined waiting nofun, fun _ => rfl⟩

theorem lined_accept {turn : Nat} (lined : Lined h) (step : h.accept turn = some h') :
    Lined h' := by
  unfold accept at step
  split at step
  next ticket holding =>
    have found_iff := fun new i => recvs_setRecv_eq_some_iff (h := h) holding new i .waiting
    have absent : turn ∉ h.turns := by
      rw [lined.turns, holding]
      nofun
    split at step <;> cases step
    next still =>
      simp only [awaits, Bool.or_eq_true, beq_iff_eq] at still
      have taken : Lined (h.setSend ticket .taken) := by
        rcases still with posted | leaving
        · exact lined_setSend lined posted nofun nofun
        · exact lined_setSend lined leaving nofun nofun
      refine lined_dropIfGone taken.line fun other => ?_
      refine (lined.turns other).trans (Iff.trans ?_ (found_iff (.got ticket) other).symm)
      by_cases equal : other = turn
      · subst equal
        simp [holding]
      · simp [equal]
    next =>
      refine ⟨lined.line, fun other => ?_, fun gone => ?_⟩
      · refine Iff.trans ?_ (found_iff .waiting other).symm
        show other ∈ h.turns ++ [turn] ↔ _
        rw [List.mem_append, List.mem_singleton, lined.turns]
        by_cases equal : other = turn <;> simp [equal]
      · simp [receiversGone] at gone
  next => cases step

/-- A receive that waits gives up or ends without a job. -/
theorem lined_leave {turn : Nat} {new : RecvState} (lined : Lined h)
    (waiting : h.recvs[turn]? = some .waiting) (after : new ≠ .waiting) :
    Lined ((h.setRecv turn new).leaveTurns turn).dropIfGone :=
  lined_dropIfGone lined.line (mem_turns_leave lined waiting after)

theorem lined_pollRecv {turn : Nat} (lined : Lined h) (step : h.pollRecv turn = some h') :
    Lined h' := by
  unfold pollRecv at step
  split at step
  next waiting =>
    rcases Option.or_eq_some_iff.mp step with taken | ⟨_, concluded⟩
    · obtain ⟨held, took, accepted⟩ := Option.bind_eq_some_iff.mp taken
      exact lined_accept (lined_take lined took) accepted
    · obtain ⟨_, step⟩ := Option.ite_none_right_eq_some.mp concluded
      cases step
      exact lined_leave lined waiting nofun
  next => exact lined_accept lined step
  next => cases step

theorem lined_startRecv (lined : Lined h) : Lined h.startRecv := by
  unfold startRecv
  cases step : h.ask.pollRecv h.nextTurn with
  | none => exact lined_ask lined
  | some h' => exact lined_pollRecv (lined_ask lined) step

theorem lined_abandon {turn : Nat} (lined : Lined h) (step : h.abandon turn = some h') :
    Lined h' := by
  obtain ⟨waiting, step⟩ := Option.ite_none_right_eq_some.mp step
  cases step
  exact lined_leave lined waiting nofun

/-! ## The two sides -/

theorem lined_dropReceiver (lined : Lined h) : Lined h.dropReceiver :=
  lined_dropIfGone (h := { h with receivers := h.receivers - 1 }) lined.line lined.turns

/-! ## Steps -/

theorem lined_step {l : Label α} (lined : Lined h) (step : h.step l = some h') : Lined h' := by
  cases l with
  | send job signal =>
    obtain ⟨_, step⟩ := Option.ite_none_right_eq_some.mp step
    cases step
    exact lined_startSend lined job signal
  | pollSend ticket => exact lined_pollSend lined step
  | recv =>
    obtain ⟨_, step⟩ := Option.ite_none_left_eq_some.mp step
    cases step
    exact lined_startRecv lined
  | pollRecv turn => exact lined_pollRecv lined step
  | abandon turn => exact lined_abandon lined step
  | cancel signal => cases step; exact lined_of_same lined rfl rfl rfl rfl rfl rfl
  | dropSender => cases step; exact lined_of_same lined rfl rfl rfl rfl rfl rfl
  | dropReceiver => cases step; exact lined_dropReceiver lined

theorem lined_stepPiece {l : Piece α} (lined : Lined h) (step : h.stepPiece l = some h') :
    Lined h' := by
  cases l with
  | whole l => exact lined_step lined step
  | offer job signal =>
    obtain ⟨_, step⟩ := Option.ite_none_right_eq_some.mp step
    cases step
    exact lined_offer lined job signal
  | shutOut ticket => exact lined_shutOut lined step
  | post ticket => exact lined_post lined step
  | sight ticket => exact lined_sight lined step
  | ask =>
    obtain ⟨_, step⟩ := Option.ite_none_left_eq_some.mp step
    cases step
    exact lined_ask lined
  | take turn => exact lined_take lined step

theorem lined_new (receivers : Nat) : Lined (new receivers : Handoff α) where
  line ticket := by simp [new, sendState?]
  turns turn := by simp [new]
  emptied _ := rfl

end CommandPool.Handoff
