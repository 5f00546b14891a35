import CommandPool.Handoff.Piece

/-!
# What the parts of a poll change

A handoff is seen here through the state of each send and of each receive.  Most
parts of a poll change one of them at one place, and leave the line of receives and
the two sides alone.  `dropIfGone_cases` and the lemmas about single fields say so;
proofs about whole polls use them instead of the definitions.
-/

namespace CommandPool

/-- The delivery of a send in this state was accepted. -/
def SendState.isAccepted : SendState → Bool
  | .taken => true
  | .ended .accepted => true
  | _ => false

/-- A receive in this state does not move any more. -/
def RecvState.isEnded : RecvState → Bool
  | .waiting => false
  | .holding _ => false
  | _ => true

namespace Handoff

variable {α : Type} {h : Handoff α}

/-! ## Sends -/

theorem sendState?_eq_some_iff {ticket : Nat} {state : SendState} :
    h.sendState? ticket = some state ↔ ∃ s, h.sends[ticket]? = some s ∧ s.state = state := by
  simp [sendState?]

@[simp] theorem sendState?_setSend (h : Handoff α) (ticket other : Nat) (state : SendState) :
    (h.setSend ticket state).sendState? other =
      if ticket = other then (h.sendState? other).map fun _ => state else h.sendState? other := by
  simp only [sendState?, setSend, List.getElem?_modify]
  split
  next => simp [Function.comp_def]
  next => simp

theorem lt_length_of_sendState? {ticket : Nat} {state : SendState}
    (at_ticket : h.sendState? ticket = some state) : ticket < h.sends.length := by
  obtain ⟨s, found, _⟩ := sendState?_eq_some_iff.mp at_ticket
  exact (List.getElem?_eq_some_iff.mp found).1

/-- An entry of a list with one more at its end. -/
theorem getElem?_concat_eq_some_iff {β : Type} {l : List β} {b found : β} {i : Nat} :
    (l ++ [b])[i]? = some found ↔ l[i]? = some found ∨ i = l.length ∧ found = b := by
  rw [List.getElem?_append]
  split
  next inside => simp [Nat.ne_of_lt inside]
  next outside =>
    have absent : l[i]? = none := List.getElem?_eq_none (Nat.not_lt.mp outside)
    rw [absent, List.getElem?_singleton]
    split
    next first =>
      have last : i = l.length := by omega
      simp [last, eq_comm]
    next later =>
      have past : i ≠ l.length := by omega
      simp [past]

/-- The states of the sends with one more at the end. -/
theorem sendState?_eq_some_iff_of_concat {h' : Handoff α} {s : Send α}
    (sends : h'.sends = h.sends ++ [s]) {ticket : Nat} {state : SendState} :
    h'.sendState? ticket = some state ↔
      h.sendState? ticket = some state ∨ ticket = h.sends.length ∧ state = s.state := by
  simp only [sendState?_eq_some_iff, sends, getElem?_concat_eq_some_iff]
  constructor
  · rintro ⟨found, before | ⟨last, rfl⟩, rfl⟩
    · exact Or.inl ⟨found, before, rfl⟩
    · exact Or.inr ⟨last, rfl⟩
  · rintro (⟨found, before, same⟩ | ⟨last, rfl⟩)
    · exact ⟨found, Or.inl before, same⟩
    · exact ⟨s, Or.inr ⟨last, rfl⟩, rfl⟩

theorem sendEnd?_eq_some_iff {ticket : Nat} {how : SendEnd} :
    h.sendEnd? ticket = some how ↔ h.sendState? ticket = some (.ended how) := by
  unfold sendEnd?
  split
  next at_ticket => simp [at_ticket]
  next other =>
    constructor
    · simp
    · intro at_ticket
      exact absurd at_ticket (other how)

/-- The sender is gone exactly when no send can start and every send has ended. -/
theorem senderGone_iff :
    h.senderGone = true ↔
      h.senderOpen = false ∧
        ∀ ticket state, h.sendState? ticket = some state → state.isEnded = true := by
  simp only [senderGone, sending, Bool.and_eq_true, Bool.not_eq_true', List.any_eq_false,
    Bool.not_eq_true', Bool.not_eq_false]
  refine and_congr_right fun _ => ?_
  constructor
  · intro ended ticket state at_ticket
    obtain ⟨s, found, rfl⟩ := sendState?_eq_some_iff.mp at_ticket
    exact ended s (List.mem_of_getElem? found)
  · intro ended s member
    obtain ⟨ticket, found⟩ := List.getElem?_of_mem member
    exact ended ticket s.state (sendState?_eq_some_iff.mpr ⟨s, found, rfl⟩)

theorem not_senderGone_of_running {ticket : Nat} {state : SendState}
    (at_ticket : h.sendState? ticket = some state) (running : state.isEnded = false) :
    h.senderGone ≠ true := by
  intro gone
  have ended := (senderGone_iff.mp gone).2 ticket state at_ticket
  rw [running] at ended
  cases ended

/-! ## Fields that a part leaves alone -/

@[simp] theorem recvs_setSend (h : Handoff α) (ticket : Nat) (state : SendState) :
    (h.setSend ticket state).recvs = h.recvs := rfl

@[simp] theorem recvs_setRecv (h : Handoff α) (turn : Nat) (state : RecvState) :
    (h.setRecv turn state).recvs = h.recvs.set turn state := rfl

@[simp] theorem sendState?_setRecv (h : Handoff α) (turn ticket : Nat) (state : RecvState) :
    (h.setRecv turn state).sendState? ticket = h.sendState? ticket := rfl

theorem recvs_setRecv_eq_some_iff {turn : Nat} {old : RecvState}
    (at_turn : h.recvs[turn]? = some old) (new : RecvState) (i : Nat) (state : RecvState) :
    (h.setRecv turn new).recvs[i]? = some state ↔
      (i = turn ∧ state = new) ∨ (i ≠ turn ∧ h.recvs[i]? = some state) := by
  have inside : turn < h.recvs.length := (List.getElem?_eq_some_iff.mp at_turn).1
  by_cases equal : i = turn
  · subst equal
    simp [List.getElem?_set_self inside, eq_comm]
  · simp [List.getElem?_set_ne (Ne.symm equal), equal]

/-- A receive that has ended is not one that has not. -/
theorem ne_of_running {turn i : Nat} {old state : RecvState} (at_turn : h.recvs[turn]? = some old)
    (running : old.isEnded = false) (found : h.recvs[i]? = some state)
    (ended : state.isEnded = true) : i ≠ turn := by
  rintro rfl
  rw [Option.some.inj (found.symm.trans at_turn), running] at ended
  cases ended

theorem not_mem_turns_leaveTurns (h : Handoff α) (turn : Nat) :
    turn ∉ (h.leaveTurns turn).turns := by
  simp [leaveTurns]

/-- When the last receiver is gone, at most the slot is emptied and the send whose
delivery was there has lost it. -/
theorem dropIfGone_cases (h : Handoff α) :
    h.dropIfGone = h ∨ h.dropIfGone = { h with slot := none } ∨
      ∃ ticket, h.sendState? ticket = some .posted ∧
        h.dropIfGone = { h with slot := none }.setSend ticket .lost := by
  unfold dropIfGone
  split
  next =>
    split
    next => exact Or.inl rfl
    next ticket _ =>
      by_cases posted : h.sendState? ticket = some .posted
      · refine Or.inr (Or.inr ⟨ticket, posted, ?_⟩)
        exact if_pos posted
      · refine Or.inr (Or.inl ?_)
        exact if_neg posted
  next => exact Or.inl rfl

@[simp] theorem recvs_dropIfGone (h : Handoff α) : h.dropIfGone.recvs = h.recvs := by
  rcases dropIfGone_cases h with same | emptied | ⟨ticket, _, lost⟩
  · rw [same]
  · rw [emptied]
  · rw [lost]; rfl

end Handoff

end CommandPool
