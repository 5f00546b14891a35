import CommandPool.Proofs.Handoff.Deliveries

/-!
# Nobody waits for ever in a handoff

A poll changes something unless whoever is polled has to wait for somebody else.  If no
poll changes anything any more, then all sends have ended: a send in line would be the
first one and could post its delivery or see that no receiver is left, and a delivery in
the slot would be taken by the receive whose turn it is.
-/

namespace CommandPool.Handoff

variable {α : Type} {h : Handoff α} {ticket turn : Nat}

/-! ## Polls that change something -/

theorem accept_ne_none (holding : h.recvs[turn]? = some (.holding ticket)) :
    h.accept turn ≠ none := by
  unfold accept
  rw [holding]
  dsimp only
  split <;> nofun

theorem pollRecv_ne_none_of_holding (holding : h.recvs[turn]? = some (.holding ticket)) :
    h.pollRecv turn ≠ none := by
  rw [pollRecv, holding]
  exact accept_ne_none holding

/-- Who has the turn takes what is in the slot. -/
theorem pollRecv_ne_none_of_slot (lined : Lined h) (first : h.turns.head? = some turn)
    (full : h.slot = some ticket) : h.pollRecv turn ≠ none := by
  have waiting := (lined.turns turn).mp (List.mem_of_mem_head? first)
  let held : Handoff α :=
    { (h.leaveTurns turn).setRecv turn (.holding ticket) with slot := none }
  have takes : h.take turn = some held := by
    rw [take, if_pos first, full]
    rfl
  have holding : held.recvs[turn]? = some (.holding ticket) :=
    List.getElem?_set_self (List.getElem?_eq_some_iff.mp waiting).1
  rw [pollRecv, waiting]
  intro stuck
  have unmoved := (Option.or_eq_none_iff.mp stuck).1
  rw [takes] at unmoved
  exact accept_ne_none holding unmoved

/-- Who has the turn ends when the slot is empty and the sender is gone. -/
theorem pollRecv_ne_none_of_gone (lined : Lined h) (first : h.turns.head? = some turn)
    (empty : h.slot = none) (gone : h.senderGone = true) : h.pollRecv turn ≠ none := by
  have waiting := (lined.turns turn).mp (List.mem_of_mem_head? first)
  rw [pollRecv, waiting]
  intro stuck
  have unmoved := (Option.or_eq_none_iff.mp stuck).2
  have now : (decide (h.turns.head? = some turn) && h.slot.isNone && h.senderGone) = true := by
    simp [first, empty, gone]
  rw [conclude, if_pos now] at unmoved
  cases unmoved

/-- A send that waits ends when no receiver is left. -/
theorem pollSend_ne_none_of_gone (waiting : h.sendState? ticket = some .waiting)
    (gone : h.receiversGone = true) : h.pollSend ticket ≠ none := by
  rw [pollSend, waiting]
  dsimp only
  split
  next => nofun
  next =>
    intro stuck
    have unmoved := (Option.or_eq_none_iff.mp stuck).1
    rw [shutOut, waiting, gone] at unmoved
    cases unmoved

/-- The first one in line posts its delivery in the empty slot. -/
theorem pollSend_ne_none_of_first (waiting : h.sendState? ticket = some .waiting)
    (first : h.line.head? = some ticket) (empty : h.slot = none) : h.pollSend ticket ≠ none := by
  cases gone : h.receiversGone with
  | true => exact pollSend_ne_none_of_gone waiting gone
  | false =>
    rw [pollSend, waiting]
    dsimp only
    split
    next => nofun
    next =>
      intro stuck
      have unmoved := (Option.or_eq_none_iff.mp stuck).2
      rw [post, waiting, gone, empty, first] at unmoved
      simp at unmoved

/-- A send that is polled without any effect has ended, waits in line or waits for its
delivery to be accepted. -/
theorem state_of_stuck {state : SendState} (at_ticket : h.sendState? ticket = some state)
    (stuck : h.pollSend ticket = none) :
    state.isEnded = true ∨ state = .waiting ∨ state = .posted := by
  rw [pollSend, at_ticket] at stuck
  cases state with
  | waiting => exact Or.inr (Or.inl rfl)
  | posted => exact Or.inr (Or.inr rfl)
  | ended how => exact Or.inl rfl
  | leaving =>
    rw [withdraw, at_ticket] at stuck
    cases stuck
  | _ => cases stuck

/-! ## No poll changes anything -/

theorem unheld_of_stuck
    (recvs : ∀ turn state, h.recvs[turn]? = some state → state.isEnded = false →
      h.pollRecv turn = none) (turn ticket : Nat) :
    h.recvs[turn]? ≠ some (.holding ticket) := fun holding =>
  pollRecv_ne_none_of_holding holding (recvs turn _ holding rfl)

theorem slot_of_stuck (lined : Lined h)
    (recvs : ∀ turn state, h.recvs[turn]? = some state → state.isEnded = false →
      h.pollRecv turn = none) (alone : h.turns = [] → h.receivers = 0) : h.slot = none := by
  cases turns : h.turns with
  | nil =>
    refine lined.emptied ?_
    have unheld : h.holding = false := by
      refine List.any_eq_false.mpr fun state member => ?_
      obtain ⟨turn, found⟩ := List.getElem?_of_mem member
      cases state with
      | holding ticket => exact absurd found (unheld_of_stuck recvs turn ticket)
      | _ => nofun
    rw [receiversGone, alone turns, turns, unheld]
    rfl
  | cons turn others =>
    have first : h.turns.head? = some turn := by rw [turns]; rfl
    have waiting := (lined.turns turn).mp (List.mem_of_mem_head? first)
    cases full : h.slot with
    | none => rfl
    | some ticket =>
      exact absurd (recvs turn _ waiting rfl) (pollRecv_ne_none_of_slot lined first full)

/-- If no poll changes anything, then all sends have ended, and no receive is in line
unless a further send may come. -/
theorem ended_of_stuck (lined : Lined h) (placed : Placed h)
    (sends : ∀ ticket, h.pollSend ticket = none)
    (recvs : ∀ turn state, h.recvs[turn]? = some state → state.isEnded = false →
      h.pollRecv turn = none) (alone : h.turns = [] → h.receivers = 0) :
    h.sending = false ∧ (h.senderGone = true → h.turns = []) := by
  have empty := slot_of_stuck lined recvs alone
  refine ⟨List.any_eq_false.mpr fun s member => ?_, fun gone => ?_⟩
  · obtain ⟨ticket, found⟩ := List.getElem?_of_mem member
    have at_ticket : h.sendState? ticket = some s.state :=
      sendState?_eq_some_iff.mpr ⟨s, found, rfl⟩
    rcases state_of_stuck at_ticket (sends ticket) with ended | waiting | posted
    · simp [ended]
    · -- Somebody is the first in line, and the slot is empty.
      rw [waiting] at at_ticket
      have inLine := (lined.line ticket).mpr at_ticket
      cases line : h.line with
      | nil => rw [line] at inLine; cases inLine
      | cons next others =>
        have first : h.line.head? = some next := by rw [line]; rfl
        have also := (lined.line next).mp (List.mem_of_mem_head? first)
        exact absurd (sends next) (pollSend_ne_none_of_first also first empty)
    · rw [posted] at at_ticket
      obtain ⟨place, lies⟩ := placed.posted ticket at_ticket
      cases place with
      | slot => cases empty.symm.trans lies
      | hands turn => exact absurd lies (unheld_of_stuck recvs turn ticket)
  · cases turns : h.turns with
    | nil => rfl
    | cons turn others =>
      have first : h.turns.head? = some turn := by rw [turns]; rfl
      have waiting := (lined.turns turn).mp (List.mem_of_mem_head? first)
      exact absurd (recvs turn _ waiting rfl) (pollRecv_ne_none_of_gone lined first empty gone)

end CommandPool.Handoff
