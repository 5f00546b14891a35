import CommandPool.Proofs.Handoff.Parts

/-!
# Deliveries are taken in order

What was taken out of the slot, what lies in it and who is in line for it have the order in
which the sends were started.  Who leaves the line leaves a gap, and nobody comes back.  This
holds however polls overlap: posting takes the first one in line, and taking or losing a
delivery takes the one in the slot.
-/

namespace CommandPool.Handoff

variable {α : Type} {h h' : Handoff α} {past : List Nat}

/-! ## The order -/

/-- What is past, what is in the slot and what is in line for it are tickets in the order of
their sends. -/
def Ordered (past : List Nat) (h : Handoff α) : Prop :=
  (past ++ (h.slot.toList ++ h.line)).Sublist (List.range h.sends.length)

/-- What lies in the slot before and not after. -/
def leaves (h h' : Handoff α) : List Nat := if h'.slot.isSome then [] else h.slot.toList

/-- The tickets of the deliveries that leave the slot in a run, in this order. -/
def taken (h : Handoff α) : List (Piece α) → List Nat
  | [] => []
  | l :: ls =>
    match h.stepPiece l with
    | none => []
    | some next => h.leaves next ++ next.taken ls

theorem ordered_of_sublist (ordered : Ordered past h) (number : h'.sends.length = h.sends.length)
    (less : (h'.slot.toList ++ h'.line).Sublist (h.slot.toList ++ h.line)) : Ordered past h' := by
  rw [Ordered, number]
  exact (less.append_left past).trans ordered

/-- The slot is emptied or left alone. -/
theorem ordered_leaves (ordered : Ordered past h) (number : h'.sends.length = h.sends.length)
    (line : h'.line = h.line) (slot : h'.slot = h.slot ∨ h'.slot = none) :
    Ordered (past ++ h.leaves h') h' := by
  rw [Ordered, number, line]
  rw [Ordered] at ordered
  unfold leaves
  rcases slot with same | emptied
  · rw [same]
    cases full : h.slot with
    | none => simpa [full] using ordered
    | some ticket => simpa [full] using ordered
  · simpa [emptied] using ordered

/-- Who is not in the slot does not leave it. -/
theorem leaves_eq_nil (kept : h.slot.isSome = true → h'.slot.isSome = true) :
    h.leaves h' = [] := by
  unfold leaves
  split
  next => rfl
  next empty =>
    cases full : h.slot with
    | none => rfl
    | some ticket => exact absurd (kept (by rw [full]; rfl)) empty

/-! ## Sends -/

theorem length_setSend (h : Handoff α) (ticket : Nat) (state : SendState) :
    (h.setSend ticket state).sends.length = h.sends.length := by
  simp [setSend]

theorem ordered_setSend (ordered : Ordered past h) (ticket : Nat) (state : SendState) :
    Ordered past (h.setSend ticket state) :=
  ordered_of_sublist ordered (length_setSend h ticket state) (.refl _)

theorem ordered_leaveLine (ordered : Ordered past h) (ticket : Nat) :
    Ordered past (h.leaveLine ticket) :=
  ordered_of_sublist ordered rfl (List.filter_sublist.append_left _)

theorem ordered_offer (ordered : Ordered past h) (job : α) (signal : Nat) :
    Ordered past (h.offer job signal) := by
  unfold offer
  split
  next =>
    show List.Sublist (past ++ (h.slot.toList ++ (h.line ++ [h.nextTicket]))) _
    rw [List.length_append, List.length_singleton, List.range_succ, ← List.append_assoc,
      ← List.append_assoc, List.append_assoc past]
    exact ordered.append_right _
  next =>
    refine List.Sublist.trans ordered ?_
    rw [List.length_append, List.length_singleton, List.range_succ]
    exact List.sublist_append_left _ _

theorem ordered_shutOut {ticket : Nat} (ordered : Ordered past h)
    (step : h.shutOut ticket = some h') : Ordered past h' := by
  obtain ⟨_, step⟩ := Option.ite_none_right_eq_some.mp step
  cases step
  exact ordered_setSend (ordered_leaveLine ordered ticket) ticket _

/-- The first one in line goes into the slot. -/
theorem ordered_post {ticket : Nat} (ordered : Ordered past h)
    (step : h.post ticket = some h') : Ordered past h' := by
  simp only [post, Bool.and_eq_true, Option.ite_none_right_eq_some, Option.some.injEq,
    beq_iff_eq, Option.isNone_iff_eq_none] at step
  obtain ⟨⟨⟨_, empty⟩, first⟩, rfl⟩ := step
  obtain ⟨rest, line⟩ := List.head?_eq_some_iff.mp first
  refine ordered_of_sublist ordered (length_setSend _ ticket .posted) ?_
  have left : (h.leaveLine ticket).line = rest.filter (· ≠ ticket) := by
    simp [leaveLine, line]
  show List.Sublist ([ticket] ++ (h.leaveLine ticket).line) _
  rw [left, empty, line]
  exact List.filter_sublist.cons_cons ticket

theorem ordered_sight {ticket : Nat} (ordered : Ordered past h)
    (step : h.sight ticket = some h') : Ordered past h' := by
  obtain ⟨_, step⟩ := Option.ite_none_right_eq_some.mp step
  cases step
  exact ordered_setSend ordered ticket _

theorem ordered_withdraw {ticket : Nat} (ordered : Ordered past h)
    (step : h.withdraw ticket = some h') : Ordered past h' := by
  obtain ⟨_, step⟩ := Option.ite_none_right_eq_some.mp step
  cases step
  exact ordered_setSend ordered ticket _

theorem ordered_pollSend {ticket : Nat} (ordered : Ordered past h)
    (step : h.pollSend ticket = some h') : Ordered past h' := by
  unfold pollSend at step
  split at step
  next =>
    split at step
    next => cases step; exact ordered_setSend (ordered_leaveLine ordered ticket) ticket _
    next =>
      rcases Option.or_eq_some_iff.mp step with out | ⟨_, posted⟩
      · exact ordered_shutOut ordered out
      · exact ordered_post ordered posted
  next =>
    obtain ⟨seen, sighted, withdrawn⟩ := Option.bind_eq_some_iff.mp step
    exact ordered_withdraw (ordered_sight ordered sighted) withdrawn
  next => exact ordered_withdraw ordered step
  next => cases step; exact ordered_setSend ordered ticket _
  next => cases step; exact ordered_setSend ordered ticket _
  next => cases step
  next => cases step

/-- A poll of a send leaves what is in the slot there. -/
theorem slot_pollSend {ticket : Nat} (step : h.pollSend ticket = some h') :
    h'.slot = h.slot ∨ h.slot = none := by
  unfold pollSend at step
  split at step
  next =>
    split at step
    next => cases step; exact Or.inl rfl
    next =>
      rcases Option.or_eq_some_iff.mp step with out | ⟨_, posted⟩
      · obtain ⟨_, step⟩ := Option.ite_none_right_eq_some.mp out
        cases step
        exact Or.inl rfl
      · simp only [post, Bool.and_eq_true, Option.ite_none_right_eq_some,
          Option.isNone_iff_eq_none] at posted
        exact Or.inr posted.1.1.2
  next =>
    obtain ⟨seen, sighted, withdrawn⟩ := Option.bind_eq_some_iff.mp step
    obtain ⟨_, sighted⟩ := Option.ite_none_right_eq_some.mp sighted
    obtain ⟨_, withdrawn⟩ := Option.ite_none_right_eq_some.mp withdrawn
    cases sighted
    cases withdrawn
    exact Or.inl rfl
  next =>
    obtain ⟨_, step⟩ := Option.ite_none_right_eq_some.mp step
    cases step
    exact Or.inl rfl
  next => cases step; exact Or.inl rfl
  next => cases step; exact Or.inl rfl
  next => cases step
  next => cases step

theorem ordered_startSend (ordered : Ordered past h) (job : α) (signal : Nat) :
    Ordered past (h.startSend job signal) := by
  have offered := ordered_offer ordered job signal
  unfold startSend
  dsimp only
  cases polled : (h.offer job signal).pollSend h.nextTicket with
  | none => exact offered
  | some q => exact ordered_pollSend offered polled

theorem slot_offer (h : Handoff α) (job : α) (signal : Nat) :
    (h.offer job signal).slot = h.slot := by
  unfold offer
  split <;> rfl

theorem slot_startSend (h : Handoff α) (job : α) (signal : Nat) :
    (h.startSend job signal).slot = h.slot ∨ h.slot = none := by
  unfold startSend
  dsimp only
  cases polled : (h.offer job signal).pollSend h.nextTicket with
  | none => exact Or.inl (slot_offer h job signal)
  | some q =>
    rw [← slot_offer h job signal]
    exact slot_pollSend polled

/-! ## Receives -/

/-- Nobody enters or leaves the line for the slot, and nothing is put there. -/
structure Drains (h h' : Handoff α) : Prop where
  number : h'.sends.length = h.sends.length
  line : h'.line = h.line
  slot : h'.slot = h.slot ∨ h'.slot = none

theorem Drains.refl (h : Handoff α) : Drains h h := ⟨rfl, rfl, Or.inl rfl⟩

theorem Drains.trans {h'' : Handoff α} (first : Drains h h') (second : Drains h' h'') :
    Drains h h'' where
  number := second.number.trans first.number
  line := second.line.trans first.line
  slot := by
    rcases second.slot with same | emptied
    · rw [same]
      exact first.slot
    · exact Or.inr emptied

theorem drains_setSend (h : Handoff α) (ticket : Nat) (state : SendState) :
    Drains h (h.setSend ticket state) :=
  ⟨length_setSend h ticket state, rfl, Or.inl rfl⟩

theorem drains_dropIfGone (h : Handoff α) : Drains h h.dropIfGone := by
  rcases dropIfGone_cases h with same | emptied | ⟨ticket, _, lost⟩
  · rw [same]
    exact .refl h
  · rw [emptied]
    exact ⟨rfl, rfl, Or.inr rfl⟩
  · rw [lost]
    exact ⟨length_setSend _ ticket .lost, rfl, Or.inr rfl⟩

theorem drains_take {turn : Nat} (step : h.take turn = some h') : Drains h h' := by
  obtain ⟨_, step⟩ := Option.ite_none_right_eq_some.mp step
  obtain ⟨ticket, _, rfl⟩ := Option.map_eq_some_iff.mp step
  exact ⟨rfl, rfl, Or.inr rfl⟩

theorem drains_accept {turn : Nat} (step : h.accept turn = some h') : Drains h h' := by
  unfold accept at step
  split at step
  next ticket _ =>
    split at step <;> cases step
    next =>
      have got : Drains h ((h.setSend ticket .taken).setRecv turn (.got ticket)) :=
        (drains_setSend h ticket .taken).trans ⟨rfl, rfl, Or.inl rfl⟩
      exact got.trans (drains_dropIfGone _)
    next => exact ⟨rfl, rfl, Or.inl rfl⟩
  next => cases step

/-- A receive that waits gives up or ends without a job. -/
theorem drains_leave (h : Handoff α) (turn : Nat) (state : RecvState) :
    Drains h ((h.setRecv turn state).leaveTurns turn).dropIfGone := by
  have left : Drains h ((h.setRecv turn state).leaveTurns turn) := ⟨rfl, rfl, Or.inl rfl⟩
  exact left.trans (drains_dropIfGone _)

theorem drains_pollRecv {turn : Nat} (step : h.pollRecv turn = some h') : Drains h h' := by
  unfold pollRecv at step
  split at step
  next =>
    rcases Option.or_eq_some_iff.mp step with taken | ⟨_, concluded⟩
    · obtain ⟨held, took, accepted⟩ := Option.bind_eq_some_iff.mp taken
      exact (drains_take took).trans (drains_accept accepted)
    · obtain ⟨_, step⟩ := Option.ite_none_right_eq_some.mp concluded
      cases step
      exact drains_leave h turn .closed
  next => exact drains_accept step
  next => cases step

theorem drains_ask (h : Handoff α) : Drains h h.ask := ⟨rfl, rfl, Or.inl rfl⟩

theorem drains_startRecv (h : Handoff α) : Drains h h.startRecv := by
  unfold startRecv
  cases step : h.ask.pollRecv h.nextTurn with
  | none => exact drains_ask h
  | some h' => exact (drains_ask h).trans (drains_pollRecv step)

theorem drains_abandon {turn : Nat} (step : h.abandon turn = some h') : Drains h h' := by
  obtain ⟨_, step⟩ := Option.ite_none_right_eq_some.mp step
  cases step
  exact drains_leave h turn .abandoned

theorem drains_dropReceiver (h : Handoff α) : Drains h h.dropReceiver := by
  have less : Drains h { h with receivers := h.receivers - 1 } := ⟨rfl, rfl, Or.inl rfl⟩
  exact less.trans (drains_dropIfGone _)

/-! ## Steps and runs -/

theorem ordered_drains (ordered : Ordered past h) (drains : Drains h h') :
    Ordered (past ++ h.leaves h') h' :=
  ordered_leaves ordered drains.number drains.line drains.slot

/-- A piece that puts nothing in place of what is in the slot. -/
theorem ordered_kept (ordered : Ordered past h') (slot : h'.slot = h.slot ∨ h.slot = none) :
    Ordered (past ++ h.leaves h') h' := by
  have kept : h.slot.isSome = true → h'.slot.isSome = true := by
    rcases slot with same | empty
    · rw [same]
      exact id
    · rw [empty]
      nofun
  rw [leaves_eq_nil kept, List.append_nil]
  exact ordered

theorem ordered_step {l : Label α} (ordered : Ordered past h) (step : h.step l = some h') :
    Ordered (past ++ h.leaves h') h' := by
  cases l with
  | send job signal =>
    obtain ⟨_, step⟩ := Option.ite_none_right_eq_some.mp step
    cases step
    exact ordered_kept (ordered_startSend ordered job signal) (slot_startSend h job signal)
  | pollSend ticket => exact ordered_kept (ordered_pollSend ordered step) (slot_pollSend step)
  | recv =>
    obtain ⟨_, step⟩ := Option.ite_none_left_eq_some.mp step
    cases step
    exact ordered_drains ordered (drains_startRecv h)
  | pollRecv turn => exact ordered_drains ordered (drains_pollRecv step)
  | abandon turn => exact ordered_drains ordered (drains_abandon step)
  | cancel signal => cases step; exact ordered_drains ordered ⟨rfl, rfl, Or.inl rfl⟩
  | dropSender => cases step; exact ordered_drains ordered ⟨rfl, rfl, Or.inl rfl⟩
  | dropReceiver => cases step; exact ordered_drains ordered (drains_dropReceiver h)

theorem ordered_stepPiece {l : Piece α} (ordered : Ordered past h)
    (step : h.stepPiece l = some h') : Ordered (past ++ h.leaves h') h' := by
  cases l with
  | whole l => exact ordered_step ordered step
  | offer job signal =>
    obtain ⟨_, step⟩ := Option.ite_none_right_eq_some.mp step
    cases step
    exact ordered_kept (ordered_offer ordered job signal) (Or.inl (slot_offer h job signal))
  | shutOut ticket =>
    have out := ordered_shutOut ordered step
    obtain ⟨_, step⟩ := Option.ite_none_right_eq_some.mp step
    cases step
    exact ordered_kept out (Or.inl rfl)
  | post ticket =>
    have posted := ordered_post ordered step
    simp only [stepPiece, post, Bool.and_eq_true, Option.ite_none_right_eq_some,
      Option.isNone_iff_eq_none] at step
    exact ordered_kept posted (Or.inr step.1.1.2)
  | sight ticket =>
    have sighted := ordered_sight ordered step
    obtain ⟨_, step⟩ := Option.ite_none_right_eq_some.mp step
    cases step
    exact ordered_kept sighted (Or.inl rfl)
  | ask =>
    obtain ⟨_, step⟩ := Option.ite_none_left_eq_some.mp step
    cases step
    exact ordered_drains ordered (drains_ask h)
  | take turn => exact ordered_drains ordered (drains_take step)

theorem ordered_pieces {ls : List (Piece α)} (ordered : Ordered past h)
    (run : h.pieces ls = some h') : Ordered (past ++ h.taken ls) h' := by
  induction ls generalizing h past with
  | nil =>
    cases run
    rwa [taken, List.append_nil]
  | cons l ls ih =>
    obtain ⟨next, step, rest⟩ := Option.bind_eq_some_iff.mp run
    rw [taken, step, ← List.append_assoc]
    exact ih (ordered_stepPiece ordered step) rest

theorem ordered_new (receivers : Nat) : Ordered [] (new receivers : Handoff α) := .refl _

/-- However polls overlap, deliveries leave the slot in the order of their sends. -/
theorem deliveries_are_taken_in_order {receivers : Nat} {ls : List (Piece α)}
    (run : (new receivers).pieces ls = some h) :
    ((new receivers : Handoff α).taken ls).Sublist (List.range h.sends.length) :=
  (List.sublist_append_left _ _).trans (ordered_pieces (ordered_new receivers) run)

end CommandPool.Handoff
