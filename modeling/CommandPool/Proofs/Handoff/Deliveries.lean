import CommandPool.Proofs.Handoff.Lines

/-!
# Where deliveries lie

A delivery that was posted lies in the slot until a receive takes it, and then in the
hands of that receive until it is accepted or dropped.  It lies in one place only, and
as long as it lies there it is not accepted: its send waits for that, is about to give
up or has given up.
-/

namespace CommandPool

/-- The delivery of the send may lie somewhere, and is not accepted. -/
def SendState.isOut : SendState → Bool
  | .posted => true
  | .leaving => true
  | .ended (.refused _) => true
  | _ => false

namespace Handoff

variable {α : Type} {h h' : Handoff α}

/-- Where a delivery may lie. -/
inductive Place where
  | slot
  | hands (turn : Nat)
  deriving DecidableEq

/-- The delivery of this ticket lies there. -/
def Lies (h : Handoff α) (ticket : Nat) : Place → Prop
  | .slot => h.slot = some ticket
  | .hands turn => h.recvs[turn]? = some (.holding ticket)

/-- A delivery that waits to be accepted lies somewhere.  One that lies somewhere is not
accepted, and lies nowhere else. -/
structure Placed (h : Handoff α) : Prop where
  posted : ∀ ticket, h.sendState? ticket = some .posted → ∃ place, h.Lies ticket place
  out : ∀ ticket place, h.Lies ticket place →
    ∃ state, h.sendState? ticket = some state ∧ state.isOut = true
  once : ∀ ticket i j, h.Lies ticket i → h.Lies ticket j → i = j

/-! ## Changes of places -/

theorem Lies.ticket_eq {ticket other : Nat} {place : Place} (lies : h.Lies ticket place)
    (also : h.Lies other place) : other = ticket := by
  cases place with
  | slot => exact Option.some.inj (also.symm.trans lies)
  | hands turn => cases also.symm.trans lies; rfl

/-- The lines, the signals and the two sides play no part. -/
theorem placed_of_same (placed : Placed h) (sends : h'.sends = h.sends)
    (lies : ∀ ticket place, h'.Lies ticket place ↔ h.Lies ticket place) : Placed h' where
  posted ticket found := by
    rw [sendState?, sends, ← sendState?] at found
    exact (placed.posted ticket found).imp fun place => (lies ticket place).mpr
  out ticket place lay := by
    rw [sendState?, sends, ← sendState?]
    exact placed.out ticket place ((lies ticket place).mp lay)
  once ticket i j at_i at_j :=
    placed.once ticket i j ((lies ticket i).mp at_i) ((lies ticket j).mp at_j)

/-- A send goes on while its delivery stays where it lies, if it does. -/
theorem placed_setSend {ticket : Nat} {old new : SendState} (placed : Placed h)
    (at_ticket : h.sendState? ticket = some old) (after : new ≠ .posted)
    (out : old.isOut = true → new.isOut = true) : Placed (h.setSend ticket new) where
  posted other found := by
    rw [sendState?_setSend] at found
    split at found
    next equal =>
      subst equal
      rw [at_ticket] at found
      exact absurd (Option.some.inj found) after
    next => exact placed.posted other found
  out other place lies := by
    obtain ⟨state, found, isOut⟩ := placed.out other place lies
    rw [sendState?_setSend]
    split
    next equal =>
      subst equal
      cases found.symm.trans at_ticket
      exact ⟨new, by rw [found]; rfl, out isOut⟩
    next => exact ⟨state, found, isOut⟩
  once := placed.once

/-- A delivery is taken away from where it lies. -/
theorem Placed.removed {ticket : Nat} (placed : Placed h) (there : Place)
    (lay : h.Lies ticket there)
    (states : ∀ other ≠ ticket, h'.sendState? other = h.sendState? other)
    (after : h'.sendState? ticket ≠ some .posted)
    (lies : ∀ other place, h'.Lies other place ↔ h.Lies other place ∧ place ≠ there) :
    Placed h' where
  posted other found := by
    have different : other ≠ ticket := by
      rintro rfl
      exact after found
    rw [states other different] at found
    obtain ⟨place, before⟩ := placed.posted other found
    refine ⟨place, (lies other place).mpr ⟨before, ?_⟩⟩
    rintro rfl
    exact different (lay.ticket_eq before)
  out other place now := by
    obtain ⟨before, elsewhere⟩ := (lies other place).mp now
    have different : other ≠ ticket := by
      rintro rfl
      exact elsewhere (placed.once other place there before lay)
    rw [states other different]
    exact placed.out other place before
  once other i j at_i at_j :=
    placed.once other i j ((lies other i).mp at_i).1 ((lies other j).mp at_j).1

/-! ## Sends -/

theorem placed_offer (placed : Placed h) (job : α) (signal : Nat) :
    Placed (h.offer job signal) := by
  have offered : ∀ {h' : Handoff α} {s : Send α}, h'.sends = h.sends ++ [s] →
      s.state ≠ .posted → (∀ ticket place, h'.Lies ticket place ↔ h.Lies ticket place) →
      Placed h' := by
    intro h' s sends after lies
    have states := fun ticket state => @sendState?_eq_some_iff_of_concat _ h h' s sends ticket state
    refine ⟨fun ticket found => ?_, fun ticket place lay => ?_, fun ticket i j at_i at_j => ?_⟩
    · rcases (states ticket _).mp found with before | ⟨_, new⟩
      · exact (placed.posted ticket before).imp fun place => (lies ticket place).mpr
      · exact absurd new.symm after
    · obtain ⟨state, found, out⟩ := placed.out ticket place ((lies ticket place).mp lay)
      exact ⟨state, (states ticket state).mpr (Or.inl found), out⟩
    · exact placed.once ticket i j ((lies ticket i).mp at_i) ((lies ticket j).mp at_j)
  unfold offer
  split
  next =>
    refine @offered _ ⟨job, signal, .waiting⟩ rfl nofun fun ticket place => ?_
    cases place <;> rfl
  next =>
    refine @offered _ ⟨job, signal, .ended (.refused .closed)⟩ rfl nofun fun ticket place => ?_
    cases place <;> rfl

theorem placed_leaveLine (placed : Placed h) (ticket : Nat) : Placed (h.leaveLine ticket) :=
  placed_of_same placed rfl fun _ place => by cases place <;> rfl

theorem placed_refuse {ticket : Nat} (placed : Placed h)
    (waiting : h.sendState? ticket = some .waiting) (e : SubmitError) :
    Placed (h.refuse ticket e) := by
  have found : (h.leaveLine ticket).sendState? ticket = some .waiting := waiting
  exact placed_setSend (placed_leaveLine placed ticket) found nofun nofun

theorem placed_shutOut {ticket : Nat} (placed : Placed h) (step : h.shutOut ticket = some h') :
    Placed h' := by
  simp only [shutOut, Bool.and_eq_true, decide_eq_true_eq, Option.ite_none_right_eq_some,
    Option.some.injEq] at step
  obtain ⟨⟨waiting, _⟩, rfl⟩ := step
  exact placed_refuse placed waiting .closed

/-- A send that waits has no delivery anywhere, and posts one in the empty slot. -/
theorem placed_post {ticket : Nat} (placed : Placed h) (step : h.post ticket = some h') :
    Placed h' := by
  simp only [post, Bool.and_eq_true, decide_eq_true_eq, Option.isNone_iff_eq_none,
    Option.ite_none_right_eq_some, Option.some.injEq] at step
  obtain ⟨⟨⟨⟨waiting, _⟩, empty⟩, _⟩, rfl⟩ := step
  have nowhere : ∀ place, ¬ h.Lies ticket place := by
    intro place lies
    obtain ⟨state, found, out⟩ := placed.out ticket place lies
    cases waiting.symm.trans found
    cases out
  have states := fun other => sendState?_setSend (h.leaveLine ticket) ticket other .posted
  have posted : ((h.leaveLine ticket).setSend ticket .posted).sendState? ticket =
      some .posted := by
    rw [states, if_pos rfl]
    exact congrArg (Option.map _) waiting
  refine ⟨fun other found => ?_, fun other place lies => ?_, fun other i j at_i at_j => ?_⟩
  · by_cases equal : ticket = other
    · subst equal
      exact ⟨.slot, rfl⟩
    · have before : h.sendState? other = some .posted :=
        ((states other).trans (if_neg equal)).symm.trans found
      obtain ⟨place, lay⟩ := placed.posted other before
      cases place with
      | slot => cases empty.symm.trans lay
      | hands turn => exact ⟨.hands turn, lay⟩
  · cases place with
    | slot =>
      cases lies
      exact ⟨.posted, posted, rfl⟩
    | hands turn =>
      have before : h.Lies other (.hands turn) := lies
      have different : ticket ≠ other := by
        rintro rfl
        exact nowhere _ before
      obtain ⟨state, found, out⟩ := placed.out other _ before
      exact ⟨state, ((states other).trans (if_neg different)).trans found, out⟩
  · cases i with
    | slot =>
      cases at_i
      cases j with
      | slot => rfl
      | hands turn => exact absurd at_j (nowhere (.hands turn))
    | hands turn =>
      cases j with
      | slot =>
        cases at_j
        exact absurd at_i (nowhere (.hands turn))
      | hands _ => exact placed.once other (.hands turn) (.hands _) at_i at_j

theorem placed_sight {ticket : Nat} (placed : Placed h) (step : h.sight ticket = some h') :
    Placed h' := by
  simp only [sight, Bool.and_eq_true, decide_eq_true_eq, Option.ite_none_right_eq_some,
    Option.some.injEq] at step
  obtain ⟨⟨posted, _⟩, rfl⟩ := step
  exact placed_setSend placed posted (by simp) fun _ => rfl

theorem placed_withdraw {ticket : Nat} (placed : Placed h) (step : h.withdraw ticket = some h') :
    Placed h' := by
  obtain ⟨leaving, step⟩ := Option.ite_none_right_eq_some.mp step
  cases step
  exact placed_setSend placed leaving nofun fun _ => rfl

theorem placed_pollSend {ticket : Nat} (placed : Placed h) (step : h.pollSend ticket = some h') :
    Placed h' := by
  unfold pollSend at step
  split at step
  next waiting =>
    split at step
    next => cases step; exact placed_refuse placed waiting .cancelled
    next =>
      rcases Option.or_eq_some_iff.mp step with out | ⟨_, posted⟩
      · exact placed_shutOut placed out
      · exact placed_post placed posted
  next =>
    obtain ⟨seen, sighted, withdrawn⟩ := Option.bind_eq_some_iff.mp step
    exact placed_withdraw (placed_sight placed sighted) withdrawn
  next => exact placed_withdraw placed step
  next taken => cases step; exact placed_setSend placed taken nofun nofun
  next lost => cases step; exact placed_setSend placed lost nofun nofun
  next => cases step
  next => cases step

theorem placed_startSend (placed : Placed h) (job : α) (signal : Nat) :
    Placed (h.startSend job signal) := by
  have offered := placed_offer placed job signal
  unfold startSend
  dsimp only
  cases polled : (h.offer job signal).pollSend h.nextTicket with
  | none => exact offered
  | some q => exact placed_pollSend offered polled

/-! ## Receives -/

/-- The delivery in the slot is lost when no receiver is left. -/
theorem placed_dropIfGone (placed : Placed h) : Placed h.dropIfGone := by
  unfold dropIfGone
  split
  next =>
    split
    next => exact placed
    next ticket inSlot =>
      have lies : ∀ {q : Handoff α}, q.slot = none → q.recvs = h.recvs →
          ∀ other place, q.Lies other place ↔ h.Lies other place ∧ place ≠ .slot := by
        intro q slot recvs other place
        cases place with
        | slot => simp [Lies, slot]
        | hands turn => simp [Lies, recvs]
      dsimp only
      split
      next posted =>
        refine placed.removed .slot inSlot (fun other different => ?_) ?_ (lies rfl rfl)
        · rw [sendState?_setSend, if_neg different.symm]
          rfl
        · rw [sendState?_setSend, if_pos rfl, posted]
          nofun
      next unposted =>
        exact placed.removed .slot inSlot (fun _ _ => rfl) unposted (lies rfl rfl)
  next => exact placed

/-- A receive is set to a state in which it holds nothing. -/
theorem lies_setRecv {turn : Nat} {old new : RecvState} (at_turn : h.recvs[turn]? = some old)
    (after : new.isHolding = false) (ticket : Nat) (place : Place) :
    (h.setRecv turn new).Lies ticket place ↔ h.Lies ticket place ∧ place ≠ .hands turn := by
  cases place with
  | slot => simp [Lies, setRecv]
  | hands i =>
    rw [Lies, recvs_setRecv_eq_some_iff at_turn]
    have empty : RecvState.holding ticket ≠ new := by
      rintro rfl
      cases after
    simp [Lies, empty, and_comm]

theorem placed_ask (placed : Placed h) : Placed h.ask := by
  refine placed_of_same placed rfl fun ticket place => ?_
  cases place with
  | slot => rfl
  | hands turn => simp [Lies, ask, getElem?_concat_eq_some_iff]

theorem placed_take {turn : Nat} (lined : Lined h) (placed : Placed h)
    (step : h.take turn = some h') : Placed h' := by
  obtain ⟨first, step⟩ := Option.ite_none_right_eq_some.mp step
  obtain ⟨ticket, inSlot, rfl⟩ := Option.map_eq_some_iff.mp step
  have waiting := (lined.turns turn).mp (List.mem_of_mem_head? first)
  have found_iff := fun other i =>
    recvs_setRecv_eq_some_iff (h := h) waiting (.holding ticket) i (.holding other)
  refine ⟨fun other posted => ?_, fun other place lies => ?_, fun other i j at_i at_j => ?_⟩
  · obtain ⟨place, lay⟩ := placed.posted other posted
    cases place with
    | slot =>
      refine ⟨.hands turn, (found_iff other turn).mpr (Or.inl ⟨rfl, ?_⟩)⟩
      have lies : h.Lies ticket .slot := inSlot
      rw [lies.ticket_eq lay]
    | hands i =>
      refine ⟨.hands i, (found_iff other i).mpr (Or.inr ⟨?_, lay⟩)⟩
      rintro rfl
      cases waiting.symm.trans lay
  · cases place with
    | slot => cases lies
    | hands i =>
      rcases (found_iff other i).mp lies with ⟨_, same⟩ | ⟨_, before⟩
      · cases same
        exact placed.out ticket .slot inSlot
      · exact placed.out other (.hands i) before
  · cases i with
    | slot => cases at_i
    | hands i =>
      cases j with
      | slot => cases at_j
      | hands j =>
        rcases (found_iff other i).mp at_i with ⟨first_i, same⟩ | ⟨_, before_i⟩ <;>
          rcases (found_iff other j).mp at_j with ⟨first_j, same'⟩ | ⟨_, before_j⟩
        · rw [first_i, first_j]
        · cases same
          cases placed.once ticket .slot (.hands j) inSlot before_j
        · cases same'
          cases placed.once ticket .slot (.hands i) inSlot before_i
        · exact placed.once other _ _ before_i before_j

theorem placed_accept {turn : Nat} (placed : Placed h) (step : h.accept turn = some h') :
    Placed h' := by
  unfold accept at step
  split at step
  next ticket holding =>
    have lay : h.Lies ticket (.hands turn) := holding
    split at step <;> cases step
    next =>
      refine placed_dropIfGone (placed.removed (.hands turn) lay (fun other different => ?_) ?_ ?_)
      · rw [sendState?_setRecv, sendState?_setSend, if_neg different.symm]
      · obtain ⟨state, found, _⟩ := placed.out ticket _ lay
        rw [sendState?_setRecv, sendState?_setSend, if_pos rfl, found]
        nofun
      · intro other place
        have same : (h.setSend ticket .taken).Lies other place ↔ h.Lies other place := by
          cases place <;> rfl
        rw [lies_setRecv (h := h.setSend ticket .taken) holding rfl, same]
    next unawaited =>
      simp only [awaits, Bool.or_eq_true, beq_iff_eq, not_or] at unawaited
      refine placed.removed (.hands turn) lay (fun _ _ => rfl) unawaited.1 fun other place => ?_
      have same : Lies { h.setRecv turn .waiting with turns := h.turns ++ [turn] } other place ↔
          (h.setRecv turn .waiting).Lies other place := by
        cases place <;> rfl
      rw [same, lies_setRecv holding rfl]
  next => cases step

/-- A receive that waits gives up or ends without a job. -/
theorem placed_leave {turn : Nat} {new : RecvState} (placed : Placed h)
    (waiting : h.recvs[turn]? = some .waiting) (after : new.isHolding = false) :
    Placed ((h.setRecv turn new).leaveTurns turn).dropIfGone := by
  refine placed_dropIfGone (placed_of_same placed rfl fun ticket place => ?_)
  have same : ((h.setRecv turn new).leaveTurns turn).Lies ticket place ↔
      (h.setRecv turn new).Lies ticket place := by
    cases place <;> rfl
  rw [same, lies_setRecv waiting after, and_iff_left_iff_imp]
  rintro lies rfl
  cases waiting.symm.trans lies

theorem placed_pollRecv {turn : Nat} (lined : Lined h) (placed : Placed h)
    (step : h.pollRecv turn = some h') : Placed h' := by
  unfold pollRecv at step
  split at step
  next waiting =>
    rcases Option.or_eq_some_iff.mp step with taken | ⟨_, concluded⟩
    · obtain ⟨held, took, accepted⟩ := Option.bind_eq_some_iff.mp taken
      exact placed_accept (placed_take lined placed took) accepted
    · obtain ⟨_, step⟩ := Option.ite_none_right_eq_some.mp concluded
      cases step
      exact placed_leave placed waiting rfl
  next => exact placed_accept placed step
  next => cases step

theorem placed_startRecv (lined : Lined h) (placed : Placed h) : Placed h.startRecv := by
  unfold startRecv
  cases step : h.ask.pollRecv h.nextTurn with
  | none => exact placed_ask placed
  | some h' => exact placed_pollRecv (lined_ask lined) (placed_ask placed) step

theorem placed_abandon {turn : Nat} (placed : Placed h) (step : h.abandon turn = some h') :
    Placed h' := by
  obtain ⟨waiting, step⟩ := Option.ite_none_right_eq_some.mp step
  cases step
  exact placed_leave placed waiting rfl

/-! ## The two sides -/

theorem placed_dropReceiver (placed : Placed h) : Placed h.dropReceiver := by
  refine placed_dropIfGone (placed_of_same placed rfl fun ticket place => ?_)
  cases place <;> rfl

theorem placed_new (receivers : Nat) : Placed (new receivers : Handoff α) where
  posted ticket found := by cases found
  out ticket place lies := by cases place <;> cases lies
  once ticket i j at_i := by cases i <;> cases at_i

end Handoff

end CommandPool
