import CommandPool.Proofs.Handoff.Agreement

/-!
# When a job is got

A poll of a send moves no receive, and a poll of a receive moves that one only.  So
a job is newly got in one way: by the receive that is polled.
-/

namespace CommandPool.Handoff

variable {α : Type} {h h' : Handoff α}

/-! ## Sends move no receive -/

theorem recvs_offer (h : Handoff α) (job : α) (signal : Nat) :
    (h.offer job signal).recvs = h.recvs := by
  unfold offer
  split <;> rfl

theorem recvs_shutOut {ticket : Nat} (step : h.shutOut ticket = some h') :
    h'.recvs = h.recvs := by
  obtain ⟨_, step⟩ := Option.ite_none_right_eq_some.mp step
  cases step
  rfl

theorem recvs_post {ticket : Nat} (step : h.post ticket = some h') : h'.recvs = h.recvs := by
  obtain ⟨_, step⟩ := Option.ite_none_right_eq_some.mp step
  cases step
  rfl

theorem recvs_sight {ticket : Nat} (step : h.sight ticket = some h') : h'.recvs = h.recvs := by
  obtain ⟨_, step⟩ := Option.ite_none_right_eq_some.mp step
  cases step
  rfl

theorem recvs_withdraw {ticket : Nat} (step : h.withdraw ticket = some h') :
    h'.recvs = h.recvs := by
  obtain ⟨_, step⟩ := Option.ite_none_right_eq_some.mp step
  cases step
  rfl

theorem recvs_pollSend {ticket : Nat} (step : h.pollSend ticket = some h') :
    h'.recvs = h.recvs := by
  unfold pollSend at step
  split at step
  next =>
    split at step
    next => cases step; rfl
    next =>
      rcases Option.or_eq_some_iff.mp step with out | ⟨_, posted⟩
      · exact recvs_shutOut out
      · exact recvs_post posted
  next =>
    obtain ⟨seen, sighted, withdrawn⟩ := Option.bind_eq_some_iff.mp step
    rw [recvs_withdraw withdrawn, recvs_sight sighted]
  next => exact recvs_withdraw step
  next => cases step; rfl
  next => cases step; rfl
  next => cases step
  next => cases step

theorem recvs_startSend (h : Handoff α) (job : α) (signal : Nat) :
    (h.startSend job signal).recvs = h.recvs := by
  simp only [startSend]
  cases step : (h.offer job signal).pollSend h.nextTicket with
  | none => exact recvs_offer h job signal
  | some h' => exact (recvs_pollSend step).trans (recvs_offer h job signal)

/-! ## A receive moves alone -/

theorem recvs_take {turn : Nat} (step : h.take turn = some h') :
    ∃ ticket, h'.recvs = h.recvs.set turn (.holding ticket) := by
  simp only [take, Option.ite_none_right_eq_some, Option.map_eq_some_iff] at step
  obtain ⟨_, ticket, _, rfl⟩ := step
  exact ⟨ticket, rfl⟩

theorem recvs_accept {turn : Nat} (step : h.accept turn = some h') :
    ∃ state, h'.recvs = h.recvs.set turn state := by
  unfold accept at step
  split at step
  next ticket _ =>
    split at step
    next => cases step; exact ⟨.got ticket, by simp⟩
    next => cases step; exact ⟨.waiting, rfl⟩
  next => cases step

theorem recvs_conclude {turn : Nat} (step : h.conclude turn = some h') :
    h'.recvs = h.recvs.set turn .closed := by
  obtain ⟨_, step⟩ := Option.ite_none_right_eq_some.mp step
  cases step
  exact recvs_dropIfGone _

theorem recvs_abandon {turn : Nat} (step : h.abandon turn = some h') :
    h.recvs[turn]? = some .waiting ∧ h'.recvs = h.recvs.set turn .abandoned := by
  obtain ⟨waiting, step⟩ := Option.ite_none_right_eq_some.mp step
  cases step
  exact ⟨waiting, recvs_dropIfGone _⟩

/-- A poll moves a receive that has not ended, and no other one. -/
theorem recvs_pollRecv {turn : Nat} (step : h.pollRecv turn = some h') :
    (∀ ticket, h.recvs[turn]? ≠ some (.got ticket)) ∧
      ∃ state, h'.recvs = h.recvs.set turn state := by
  unfold pollRecv at step
  split at step
  next waiting =>
    refine ⟨fun ticket got => (nomatch waiting.symm.trans got), ?_⟩
    rcases Option.or_eq_some_iff.mp step with taken | ⟨_, concluded⟩
    · obtain ⟨held, took, accepted⟩ := Option.bind_eq_some_iff.mp taken
      obtain ⟨ticket, first⟩ := recvs_take took
      obtain ⟨state, second⟩ := recvs_accept accepted
      exact ⟨state, by rw [second, first, List.set_set]⟩
    · exact ⟨_, recvs_conclude concluded⟩
  next holding =>
    exact ⟨fun ticket got => (nomatch holding.symm.trans got), recvs_accept step⟩
  next => cases step

theorem recvs_startRecv (h : Handoff α) : ∃ state, h.startRecv.recvs = h.recvs ++ [state] := by
  unfold startRecv
  cases step : h.ask.pollRecv h.nextTurn with
  | none => exact ⟨.waiting, rfl⟩
  | some h' =>
    obtain ⟨_, state, moved⟩ := recvs_pollRecv step
    refine ⟨state, ?_⟩
    rw [Option.getD_some, moved, ask, nextTurn, List.set_append_right _ _ (Nat.le_refl _)]
    simp

/-! ## Jobs that are newly got -/

/-- From `h` to `h'` no receive other than that of this turn has got a job, and that
one had none in `h`. -/
structure Receives (h h' : Handoff α) (turn : Nat) : Prop where
  before : ∀ ticket, h.recvs[turn]? ≠ some (.got ticket)
  others : ∀ i ≠ turn, h'.recvs[i]? = h.recvs[i]?

theorem receives_of_set {turn : Nat} {state : RecvState}
    (before : ∀ ticket, h.recvs[turn]? ≠ some (.got ticket))
    (moved : h'.recvs = h.recvs.set turn state) : Receives h h' turn := by
  refine ⟨before, fun i other => ?_⟩
  rw [moved, List.getElem?_set_ne other.symm]

theorem receives_pollRecv {turn : Nat} (step : h.pollRecv turn = some h') :
    Receives h h' turn := by
  obtain ⟨before, state, moved⟩ := recvs_pollRecv step
  exact receives_of_set before moved

theorem receives_startRecv (h : Handoff α) : Receives h h.startRecv h.nextTurn := by
  obtain ⟨state, moved⟩ := recvs_startRecv h
  refine ⟨fun ticket => by simp [nextTurn], fun i other => ?_⟩
  rw [moved, List.getElem?_append]
  split
  next => rfl
  next outside =>
    have after : 1 ≤ i - h.recvs.length := by
      unfold nextTurn at other
      omega
    rw [List.getElem?_eq_none (by simpa using after), List.getElem?_eq_none (by omega)]

/-- The job that a receive has newly got was not got before, and the other ones are
as they were. -/
theorem Receives.got_iff {turn ticket : Nat} (receives : Receives h h' turn)
    (got : h'.recvs[turn]? = some (.got ticket)) (other : Nat) :
    h'.Got other ↔ other = ticket ∨ h.Got other := by
  constructor
  · rintro ⟨i, found⟩
    by_cases equal : i = turn
    · subst equal
      rw [got] at found
      cases found
      exact Or.inl rfl
    · exact Or.inr ⟨i, receives.others i equal ▸ found⟩
  · rintro (rfl | ⟨i, found⟩)
    · exact ⟨turn, got⟩
    · have equal : i ≠ turn := by
        rintro rfl
        exact receives.before _ found
      exact ⟨i, (receives.others i equal).trans found⟩

theorem Receives.not_got {turn ticket : Nat} (receives : Receives h h' turn)
    (agrees : Agrees h') (got : h'.recvs[turn]? = some (.got ticket)) : ¬ h.Got ticket := by
  rintro ⟨i, found⟩
  have equal : i ≠ turn := by
    rintro rfl
    exact receives.before _ found
  exact equal (agrees.got_once ticket i turn ((receives.others i equal).trans found) got)

/-- If the receive that moved has no job, no job is newly got. -/
theorem Receives.got_same {turn : Nat} (receives : Receives h h' turn)
    (without : ∀ ticket, h'.recvs[turn]? ≠ some (.got ticket)) (other : Nat) :
    h'.Got other ↔ h.Got other := by
  refine exists_congr fun i => ?_
  by_cases equal : i = turn
  · subst equal
    exact iff_of_false (without other) (receives.before other)
  · rw [receives.others i equal]

/-- A receive that waits moves, and gets no job. -/
theorem got_same_of_set {turn : Nat} {state : RecvState} (waiting : h.recvs[turn]? = some .waiting)
    (moved : h'.recvs = h.recvs.set turn state) (without : ∀ ticket, state ≠ .got ticket)
    (ticket : Nat) : h'.Got ticket ↔ h.Got ticket := by
  refine (receives_of_set ?_ moved).got_same ?_ ticket
  · intro other got
    cases waiting.symm.trans got
  · intro other got
    rw [moved, List.getElem?_set_self (List.getElem?_eq_some_iff.mp waiting).1] at got
    exact without other (Option.some.inj got)

theorem got_same_take {turn : Nat} (agrees : Agrees h) (step : h.take turn = some h')
    (ticket : Nat) : h'.Got ticket ↔ h.Got ticket := by
  have first := (Option.ite_none_right_eq_some.mp step).1
  obtain ⟨taken, moved⟩ := recvs_take step
  exact got_same_of_set (agrees.waits turn (List.mem_of_mem_head? first)) moved nofun ticket

theorem got_same_abandon {turn : Nat} (step : h.abandon turn = some h') (ticket : Nat) :
    h'.Got ticket ↔ h.Got ticket := by
  obtain ⟨waiting, moved⟩ := recvs_abandon step
  exact got_same_of_set waiting moved nofun ticket

theorem got_same_ask (h : Handoff α) (ticket : Nat) : h.ask.Got ticket ↔ h.Got ticket := by
  refine exists_congr fun turn => ?_
  rw [ask, List.getElem?_append]
  split
  next => rfl
  next outside =>
    rw [List.getElem?_eq_none (Nat.le_of_not_lt outside), List.getElem?_singleton]
    split <;> simp

theorem got_same_of_recvs (same : h'.recvs = h.recvs) (ticket : Nat) :
    h'.Got ticket ↔ h.Got ticket := by
  rw [Got, same, ← Got]

end CommandPool.Handoff
