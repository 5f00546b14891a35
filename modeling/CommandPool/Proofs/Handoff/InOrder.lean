import CommandPool.Proofs.Handoff.Standing
import CommandPool.Proofs.Handoff.Taken
import CommandPool.Proofs.Handoff.Takers
import CommandPool.Proofs.Handoff.Whole

/-!
# First in, first out

Deliveries are taken in the order of their sends, and nobody who waits for the first one is passed
over.  This is all that holds however polls overlap.  A receive that is held up between taking a
delivery and accepting it is overtaken by the next one, and one that has dropped a withdrawn
delivery waits behind receives that were started after it
(`jobs_are_handed_over_out_of_order`).

If a receive accepts what it takes before others move, jobs are returned in the order of their
sends.  If moreover a send that has not seen its signal posts before others move, and all sends
watch one signal, whoever returns with a job leaves nobody behind who still waits.  A delivery is
withdrawn only after the signal was given, and from then on no send posts.  So the line is out of
order only when nothing is handed over any more (`InTurn.sorted`).
-/

namespace CommandPool.Handoff

variable {α : Type} {h h' : Handoff α} {signal : Nat}

/-! ## Receives in the order in which they were started -/

/-- The sends watch one signal.  Receives are in line in the order in which they were
started, until the signal was given and nothing is in the slot any more. -/
structure InTurn (signal : Nat) (h : Handoff α) : Prop where
  watched : ∀ other ∈ h.signals, other = signal
  /-- A delivery in the slot is withdrawn only after the signal. -/
  posted : ∀ ticket, h.slot = some ticket →
    h.sendState? ticket = some .posted ∨ h.isGiven signal = true
  sorted : h.turns.Pairwise (· < ·) ∨ h.slot = none ∧ h.isGiven signal = true

theorem InTurn.isCancelled (inTurn : InTurn signal h) {ticket : Nat} {state : SendState}
    (at_ticket : h.sendState? ticket = some state) :
    h.isCancelled ticket = h.isGiven signal := by
  obtain ⟨s, found, _⟩ := sendState?_eq_some_iff.mp at_ticket
  have watched := inTurn.watched s.signal (List.mem_map_of_mem (List.mem_of_getElem? found))
  rw [Handoff.isCancelled, found, Option.any_some, watched]

/-- The receives, the line of sends and the two sides play no part. -/
theorem inTurn_of_same (inTurn : InTurn signal h) (sends : h'.sends = h.sends)
    (turns : h'.turns = h.turns) (slot : h'.slot = h.slot) (given : h'.given = h.given) :
    InTurn signal h' where
  watched := by
    rw [signals, sends]
    exact inTurn.watched
  posted := by
    simp only [sendState?, sends, slot, isGiven, given]
    exact inTurn.posted
  sorted := by
    rw [turns, slot, isGiven, given]
    exact inTurn.sorted

/-! ### Sends -/

/-- A send moves whose delivery is not in the slot, or the signal was given. -/
theorem inTurn_setSend {ticket : Nat} {old : SendState} (inTurn : InTurn signal h)
    (new : SendState) (at_ticket : h.sendState? ticket = some old)
    (aside : old ≠ .posted ∨ h.isGiven signal = true) : InTurn signal (h.setSend ticket new) where
  watched := by
    rw [(standing_setSend h ticket new).signals]
    exact inTurn.watched
  posted other full := by
    rcases inTurn.posted other full with posted | given
    · rcases aside with unposted | given
      · have different : ticket ≠ other := by
          rintro rfl
          exact unposted (Option.some.inj (at_ticket.symm.trans posted))
        rw [sendState?_setSend, if_neg different]
        exact Or.inl posted
      · exact Or.inr given
    · exact Or.inr given
  sorted := inTurn.sorted

theorem inTurn_refuse {ticket : Nat} (inTurn : InTurn signal h)
    (waiting : h.sendState? ticket = some .waiting) (e : SubmitError) :
    InTurn signal (h.refuse ticket e) :=
  inTurn_setSend (h := h.leaveLine ticket) (inTurn_of_same inTurn rfl rfl rfl rfl) _ waiting
    (Or.inl (by simp))

theorem inTurn_shutOut {ticket : Nat} (inTurn : InTurn signal h)
    (step : h.shutOut ticket = some h') : InTurn signal h' := by
  simp only [shutOut, Bool.and_eq_true, decide_eq_true_eq, Option.ite_none_right_eq_some,
    Option.some.injEq] at step
  obtain ⟨⟨waiting, _⟩, rfl⟩ := step
  exact inTurn_refuse inTurn waiting .closed

/-- A send posts only as long as the signal was not given. -/
theorem inTurn_post {ticket : Nat} (inTurn : InTurn signal h) (silent : h.isGiven signal = false)
    (step : h.post ticket = some h') : InTurn signal h' := by
  simp only [post, Bool.and_eq_true, decide_eq_true_eq, Option.ite_none_right_eq_some,
    Option.some.injEq] at step
  obtain ⟨⟨⟨⟨waiting, _⟩, _⟩, _⟩, rfl⟩ := step
  refine ⟨?_, fun other full => Or.inl ?_, Or.inl ?_⟩
  · exact (inTurn_setSend (h := h.leaveLine ticket) (inTurn_of_same inTurn rfl rfl rfl rfl)
      .posted waiting (Or.inl (by simp))).watched
  · cases full
    show ((h.leaveLine ticket).setSend ticket .posted).sendState? ticket = _
    rw [sendState?_setSend, if_pos rfl]
    exact congrArg (Option.map _) waiting
  · refine inTurn.sorted.resolve_right fun spent => ?_
    cases silent.symm.trans spent.2

theorem inTurn_withdraw {ticket : Nat} (inTurn : InTurn signal h)
    (step : h.withdraw ticket = some h') : InTurn signal h' := by
  obtain ⟨leaving, step⟩ := Option.ite_none_right_eq_some.mp step
  cases step
  exact inTurn_setSend inTurn _ leaving (Or.inl (by simp))

theorem inTurn_sight {ticket : Nat} (inTurn : InTurn signal h)
    (step : h.sight ticket = some h') : InTurn signal h' := by
  simp only [sight, Bool.and_eq_true, decide_eq_true_eq, Option.ite_none_right_eq_some,
    Option.some.injEq] at step
  obtain ⟨⟨posted, cancelled⟩, rfl⟩ := step
  rw [inTurn.isCancelled posted] at cancelled
  exact inTurn_setSend inTurn _ posted (Or.inr cancelled)

theorem inTurn_pollSend {ticket : Nat} (inTurn : InTurn signal h)
    (step : h.pollSend ticket = some h') : InTurn signal h' := by
  unfold pollSend at step
  split at step
  next waiting =>
    split at step
    next => cases step; exact inTurn_refuse inTurn waiting .cancelled
    next silent =>
      rcases Option.or_eq_some_iff.mp step with out | ⟨_, posted⟩
      · exact inTurn_shutOut inTurn out
      · rw [inTurn.isCancelled waiting, Bool.not_eq_true] at silent
        exact inTurn_post inTurn silent posted
  next =>
    obtain ⟨seen, sighted, withdrawn⟩ := Option.bind_eq_some_iff.mp step
    exact inTurn_withdraw (inTurn_sight inTurn sighted) withdrawn
  next => exact inTurn_withdraw inTurn step
  next taken => cases step; exact inTurn_setSend inTurn _ taken (Or.inl (by simp))
  next lost => cases step; exact inTurn_setSend inTurn _ lost (Or.inl (by simp))
  next => cases step
  next => cases step

theorem inTurn_offer (inTurn : InTurn signal h) (job : α) : InTurn signal (h.offer job signal) := by
  have watched : ∀ s : Send α, s.signal = signal →
      ∀ other ∈ (h.sends ++ [s]).map (·.signal), other = signal := by
    intro s watches other member
    rw [List.map_append, List.mem_append] at member
    rcases member with before | new
    · exact inTurn.watched other before
    · rw [List.mem_singleton.mp new]
      exact watches
  have posted : ∀ (h' : Handoff α) (s : Send α), h'.sends = h.sends ++ [s] →
      ∀ ticket, h.slot = some ticket →
        h'.sendState? ticket = some .posted ∨ h.isGiven signal = true := by
    intro h' s sends ticket full
    refine (inTurn.posted ticket full).imp_left fun found => ?_
    exact (sendState?_eq_some_iff_of_concat sends).mpr (Or.inl found)
  unfold offer
  split
  next => exact ⟨watched _ rfl, posted _ _ rfl, inTurn.sorted⟩
  next => exact ⟨watched _ rfl, posted _ _ rfl, inTurn.sorted⟩

theorem inTurn_startSend (inTurn : InTurn signal h) (job : α) :
    InTurn signal (h.startSend job signal) := by
  have offered := inTurn_offer inTurn job
  unfold startSend
  dsimp only
  cases polled : (h.offer job signal).pollSend h.nextTicket with
  | none => exact offered
  | some q => exact inTurn_pollSend offered polled

/-! ### Receives -/

theorem inTurn_dropIfGone (inTurn : InTurn signal h) : InTurn signal h.dropIfGone := by
  have watched := inTurn.watched
  rw [← (standing_dropIfGone h).signals] at watched
  rcases dropIfGone_cases h with same | emptied | ⟨ticket, _, lost⟩
  · rw [same]
    exact inTurn
  · rw [emptied] at watched ⊢
    exact ⟨watched, nofun, inTurn.sorted.imp_right fun spent => ⟨rfl, spent.2⟩⟩
  · rw [lost] at watched ⊢
    exact ⟨watched, nofun, inTurn.sorted.imp_right fun spent => ⟨rfl, spent.2⟩⟩

/-- A receive leaves the line. -/
theorem inTurn_leaveTurns (inTurn : InTurn signal h) (turn : Nat) :
    InTurn signal (h.leaveTurns turn) :=
  ⟨inTurn.watched, inTurn.posted, inTurn.sorted.imp_left fun sorted => sorted.filter _⟩

/-- A receive that waits gives up or ends without a job. -/
theorem inTurn_leave (inTurn : InTurn signal h) (turn : Nat) (state : RecvState) :
    InTurn signal ((h.setRecv turn state).leaveTurns turn).dropIfGone := by
  have moved : InTurn signal (h.setRecv turn state) := inTurn_of_same inTurn rfl rfl rfl rfl
  exact inTurn_dropIfGone (inTurn_leaveTurns moved turn)

theorem inTurn_ask (lined : Lined h) (inTurn : InTurn signal h) : InTurn signal h.ask := by
  refine ⟨inTurn.watched, inTurn.posted, inTurn.sorted.imp_left fun sorted => ?_⟩
  refine List.pairwise_append.mpr ⟨sorted, List.pairwise_singleton _ _, fun turn member new => ?_⟩
  rw [List.mem_singleton]
  rintro rfl
  exact (List.getElem?_eq_some_iff.mp ((lined.turns turn).mp member)).1

/-- A receive takes the delivery in the slot and accepts it, or goes to the end of the line.
In the second case the signal was given. -/
theorem inTurn_takeAccept {turn : Nat} {held : Handoff α} (inTurn : InTurn signal h)
    (took : h.take turn = some held) (step : held.accept turn = some h') : InTurn signal h' := by
  simp only [take, Option.ite_none_right_eq_some, Option.map_eq_some_iff] at took
  obtain ⟨_, ticket, full, rfl⟩ := took
  have sorted : h.turns.Pairwise (· < ·) := by
    refine inTurn.sorted.resolve_right fun spent => ?_
    cases full.symm.trans spent.1
  unfold accept at step
  split at step
  next other holding =>
    split at step <;> cases step
    next =>
      refine inTurn_dropIfGone ⟨?_, fun other full => (by cases full), Or.inl (sorted.filter _)⟩
      intro other member
      exact inTurn.watched other ((standing_setSend h _ .taken).signals ▸ member)
    next unawaited =>
      have same : other = ticket := by
        have here := holding
        rw [recvs_setRecv] at here
        have inside := (List.getElem?_eq_some_iff.mp here).1
        rw [List.getElem?_set_self (by simpa using inside)] at here
        cases here
        rfl
      subst same
      refine ⟨inTurn.watched, fun other full => (by cases full), Or.inr ⟨rfl, ?_⟩⟩
      refine (inTurn.posted other full).resolve_left fun posted => unawaited ?_
      simp only [awaits, Bool.or_eq_true, beq_iff_eq]
      exact Or.inl posted
  next => cases step

theorem inTurn_pollRecv {turn : Nat} (unheld : Unheld h) (inTurn : InTurn signal h)
    (step : h.pollRecv turn = some h') : InTurn signal h' := by
  unfold pollRecv at step
  split at step
  next =>
    rcases Option.or_eq_some_iff.mp step with taken | ⟨_, concluded⟩
    · obtain ⟨held, took, accepted⟩ := Option.bind_eq_some_iff.mp taken
      exact inTurn_takeAccept inTurn took accepted
    · obtain ⟨_, step⟩ := Option.ite_none_right_eq_some.mp concluded
      cases step
      exact inTurn_leave inTurn turn .closed
  next holding => cases unheld turn _ holding
  next => cases step

theorem inTurn_startRecv (lined : Lined h) (unheld : Unheld h) (inTurn : InTurn signal h) :
    InTurn signal h.startRecv := by
  have asked := inTurn_ask lined inTurn
  unfold startRecv
  cases step : h.ask.pollRecv h.nextTurn with
  | none => exact asked
  | some h' => exact inTurn_pollRecv (unheld_ask unheld) asked step

theorem inTurn_abandon {turn : Nat} (inTurn : InTurn signal h) (step : h.abandon turn = some h') :
    InTurn signal h' := by
  obtain ⟨_, step⟩ := Option.ite_none_right_eq_some.mp step
  cases step
  exact inTurn_leave inTurn turn .abandoned

theorem inTurn_cancel (inTurn : InTurn signal h) (other : Nat) :
    InTurn signal (h.cancel other) := by
  have still : h.isGiven signal = true → (h.cancel other).isGiven signal = true := by
    simp only [isGiven, cancel, List.contains_iff_mem]
    exact List.mem_cons_of_mem other
  exact ⟨inTurn.watched, fun ticket full => (inTurn.posted ticket full).imp_right still,
    inTurn.sorted.imp_right fun spent => ⟨spent.1, still spent.2⟩⟩

/-! ### Steps -/

/-- A send that is started in the piece watches this signal. -/
def Piece.Watches (signal : Nat) : Piece α → Prop
  | .whole (.send _ other) => other = signal
  | .offer _ other => other = signal
  | _ => True

theorem inTurn_step {l : Label α} (lined : Lined h) (unheld : Unheld h) (inTurn : InTurn signal h)
    (step : h.step l = some h') (watches : (Piece.whole l).Watches signal) :
    InTurn signal h' := by
  cases l with
  | send job other =>
    obtain ⟨_, step⟩ := Option.ite_none_right_eq_some.mp step
    cases step
    cases watches
    exact inTurn_startSend inTurn job
  | pollSend ticket => exact inTurn_pollSend inTurn step
  | recv =>
    obtain ⟨_, step⟩ := Option.ite_none_left_eq_some.mp step
    cases step
    exact inTurn_startRecv lined unheld inTurn
  | pollRecv turn => exact inTurn_pollRecv unheld inTurn step
  | abandon turn => exact inTurn_abandon inTurn step
  | cancel other => cases step; exact inTurn_cancel inTurn other
  | dropSender => cases step; exact inTurn_of_same inTurn rfl rfl rfl rfl
  | dropReceiver =>
    cases step
    exact inTurn_dropIfGone (h := { h with receivers := h.receivers - 1 })
      (inTurn_of_same inTurn rfl rfl rfl rfl)

/-- A send posts in the piece in which it finds that its signal was not given. -/
theorem inTurn_stepPiece {l : Piece α} (lined : Lined h) (unheld : Unheld h)
    (inTurn : InTurn signal h) (step : h.stepPiece l = some h') (watches : l.Watches signal)
    (accepts : ∀ turn, l ≠ .take turn) (looks : ∀ ticket, l ≠ .post ticket) :
    InTurn signal h' := by
  cases l with
  | whole l => exact inTurn_step lined unheld inTurn step watches
  | offer job other =>
    obtain ⟨_, step⟩ := Option.ite_none_right_eq_some.mp step
    cases step
    cases watches
    exact inTurn_offer inTurn job
  | shutOut ticket => exact inTurn_shutOut inTurn step
  | post ticket => exact absurd rfl (looks ticket)
  | sight ticket => exact inTurn_sight inTurn step
  | ask =>
    obtain ⟨_, step⟩ := Option.ite_none_left_eq_some.mp step
    cases step
    exact inTurn_ask lined inTurn
  | take turn => exact absurd rfl (accepts turn)

/-! ## Jobs that are returned -/

/-- The ticket of the job with which the receive of this turn has ended. -/
def got? (h : Handoff α) (turn : Nat) : Option Nat :=
  match h.recvs[turn]? with
  | some (.got ticket) => some ticket
  | _ => none

/-- The ticket of the job with which the receive that is polled in a piece returns. -/
def returns? (h : Handoff α) (l : Piece α) (next : Handoff α) : Option Nat :=
  match l with
  | .whole .recv => next.got? h.nextTurn
  | .whole (.pollRecv turn) => next.got? turn
  | _ => none

/-- The tickets of the jobs that receives return in a run, in the order in which they do. -/
def returned (h : Handoff α) : List (Piece α) → List Nat
  | [] => []
  | l :: ls =>
    match h.stepPiece l with
    | none => []
    | some next => (h.returns? l next).toList ++ next.returned ls

theorem got?_eq_some_iff {turn ticket : Nat} :
    h.got? turn = some ticket ↔ h.recvs[turn]? = some (.got ticket) := by
  unfold got?
  split
  next other found => simp [found]
  next other =>
    constructor
    · nofun
    · exact fun found => absurd found (other ticket)

/-- A job is newly got by the receive that is polled. -/
theorem newly_got {l : Piece α} {turn ticket : Nat} (step : h.stepPiece l = some h')
    (before : h.recvs[turn]? ≠ some (.got ticket)) (got : h'.recvs[turn]? = some (.got ticket)) :
    l = .whole .recv ∧ turn = h.nextTurn ∨ l = .whole (.pollRecv turn) := by
  have polled : ∀ other, Receives h h' other → turn = other := fun other receives =>
    Decidable.byContradiction fun different => before (receives.others turn different ▸ got)
  have still : h'.recvs ≠ h.recvs := fun same => before (same ▸ got)
  cases l with
  | whole l =>
    cases l with
    | send job signal =>
      obtain ⟨_, step⟩ := Option.ite_none_right_eq_some.mp step
      cases step
      exact absurd (recvs_startSend h job signal) still
    | pollSend ticket => exact absurd (recvs_pollSend step) still
    | recv =>
      obtain ⟨_, step⟩ := Option.ite_none_left_eq_some.mp step
      cases step
      exact Or.inl ⟨rfl, polled _ (receives_startRecv h)⟩
    | pollRecv other =>
      rw [polled other (receives_pollRecv step)]
      exact Or.inr rfl
    | abandon other =>
      obtain ⟨waiting, moved⟩ := recvs_abandon step
      obtain rfl := polled other
        (receives_of_set (fun _ found => nomatch waiting.symm.trans found) moved)
      rw [moved, List.getElem?_set_self (List.getElem?_eq_some_iff.mp waiting).1] at got
      cases got
    | cancel other => cases step; exact absurd rfl still
    | dropSender => cases step; exact absurd rfl still
    | dropReceiver => cases step; exact absurd (recvs_dropIfGone _) still
  | offer job signal =>
    obtain ⟨_, step⟩ := Option.ite_none_right_eq_some.mp step
    cases step
    exact absurd (recvs_offer h job signal) still
  | shutOut ticket => exact absurd (recvs_shutOut step) still
  | post ticket => exact absurd (recvs_post step) still
  | sight ticket => exact absurd (recvs_sight step) still
  | ask =>
    obtain ⟨_, step⟩ := Option.ite_none_left_eq_some.mp step
    cases step
    rcases getElem?_concat_eq_some_iff.mp got with found | ⟨_, made⟩
    · exact absurd found before
    · cases made
  | take other =>
    obtain ⟨held, moved⟩ := recvs_take step
    rw [moved, List.getElem?_set] at got
    split at got
    next =>
      split at got
      next => cases got
      next => cases got
    next => exact absurd got before

/-- What a piece returns is what is newly got. -/
theorem got_iff_of_stepPiece {l : Piece α} (agrees : Agrees h) (step : h.stepPiece l = some h')
    (ticket : Nat) : h'.Got ticket ↔ h.Got ticket ∨ h.returns? l h' = some ticket := by
  constructor
  · rintro ⟨turn, got⟩
    by_cases before : h.recvs[turn]? = some (.got ticket)
    · exact Or.inl ⟨turn, before⟩
    · refine Or.inr ?_
      rcases newly_got step before got with ⟨rfl, rfl⟩ | rfl <;> exact got?_eq_some_iff.mpr got
  · rintro (⟨turn, got⟩ | returns)
    · exact ⟨turn, (sound_stepPiece agrees step).extends_.recv turn _ got rfl⟩
    · unfold returns? at returns
      split at returns
      next => exact ⟨_, got?_eq_some_iff.mp returns⟩
      next => exact ⟨_, got?_eq_some_iff.mp returns⟩
      next => cases returns

/-- What is returned in a run was got, and nothing else is newly got. -/
theorem mem_returned_iff {ls : List (Piece α)} (agrees : Agrees h) (run : h.pieces ls = some h')
    (ticket : Nat) : h'.Got ticket ↔ h.Got ticket ∨ ticket ∈ h.returned ls := by
  induction ls generalizing h with
  | nil => cases run; simp [returned]
  | cons l ls ih =>
    obtain ⟨next, step, rest⟩ := Option.bind_eq_some_iff.mp run
    rw [returned, step, ih (sound_stepPiece agrees step).agrees rest, List.mem_append,
      Option.mem_toList, ← or_assoc, got_iff_of_stepPiece agrees step]

/-! ## Receives that accept what they take -/

/-- The receive of this turn is the first one in line and returns with what was in the slot. -/
structure Serves (h h' : Handoff α) (turn ticket : Nat) : Prop where
  first : h.turns.head? = some turn
  full : h.slot = some ticket
  emptied : h'.slot = none

/-- A receive returns with what it holds. -/
theorem got_accept {turn ticket other : Nat} (holding : h.recvs[turn]? = some (.holding ticket))
    (step : h.accept turn = some h') (got : h'.recvs[turn]? = some (.got other)) :
    other = ticket := by
  have here : ∀ new, (h.recvs.set turn new)[turn]? = some new :=
    fun new => List.getElem?_set_self (List.getElem?_eq_some_iff.mp holding).1
  rw [accept, holding] at step
  dsimp only at step
  split at step <;> cases step
  next =>
    rw [recvs_dropIfGone, recvs_setRecv, recvs_setSend, here] at got
    cases got
    rfl
  next =>
    rw [show ({ h.setRecv turn .waiting with turns := h.turns ++ [turn] } : Handoff α).recvs =
      h.recvs.set turn .waiting from rfl, here] at got
    cases got

theorem serves_pollRecv {turn ticket : Nat} (unheld : Unheld h) (step : h.pollRecv turn = some h')
    (got : h'.recvs[turn]? = some (.got ticket)) : Serves h h' turn ticket := by
  unfold pollRecv at step
  split at step
  next waiting =>
    have here : ∀ new, (h.recvs.set turn new)[turn]? = some new :=
      fun new => List.getElem?_set_self (List.getElem?_eq_some_iff.mp waiting).1
    rcases Option.or_eq_some_iff.mp step with taken | ⟨_, concluded⟩
    · obtain ⟨held, took, accepted⟩ := Option.bind_eq_some_iff.mp taken
      simp only [take, Option.ite_none_right_eq_some, Option.map_eq_some_iff] at took
      obtain ⟨first, there, full, rfl⟩ := took
      obtain rfl := got_accept (here (.holding there)) accepted got
      exact ⟨first, full, (drains_accept accepted).slot.elim id id⟩
    · rw [recvs_conclude concluded, here] at got
      cases got
  next holding => cases unheld turn _ holding
  next => cases step

theorem serves_startRecv {ticket : Nat} (unheld : Unheld h)
    (got : h.startRecv.recvs[h.nextTurn]? = some (.got ticket)) :
    Serves h.ask h.startRecv h.nextTurn ticket := by
  unfold startRecv at got ⊢
  cases step : h.ask.pollRecv h.nextTurn with
  | none =>
    rw [step, Option.getD_none, ask, nextTurn, List.getElem?_concat_length] at got
    cases got
  | some h' =>
    rw [step] at got
    exact serves_pollRecv (unheld_ask unheld) step got

/-- What a piece returns leaves the slot in the same piece. -/
theorem leaves_of_returns? {l : Piece α} {ticket : Nat} (unheld : Unheld h)
    (step : h.stepPiece l = some h') (returns : h.returns? l h' = some ticket) :
    h.leaves h' = [ticket] := by
  have left : h.slot = some ticket → h'.slot = none → h.leaves h' = [ticket] := by
    intro full emptied
    rw [leaves, emptied, full]
    rfl
  unfold returns? at returns
  split at returns
  next =>
    obtain ⟨_, step⟩ := Option.ite_none_left_eq_some.mp step
    cases step
    have serves := serves_startRecv unheld (got?_eq_some_iff.mp returns)
    exact left serves.full serves.emptied
  next turn =>
    have serves := serves_pollRecv unheld step (got?_eq_some_iff.mp returns)
    exact left serves.full serves.emptied
  next => cases returns

/-- What is returned in a run was taken out of the slot. -/
theorem returned_sublist_taken {ls : List (Piece α)} (unheld : Unheld h)
    (accepts : ∀ turn, .take turn ∉ ls) : (h.returned ls).Sublist (h.taken ls) := by
  induction ls generalizing h with
  | nil => exact .refl _
  | cons l ls ih =>
    rw [returned, taken]
    cases step : h.stepPiece l with
    | none => exact .refl _
    | some next =>
      have now : ∀ turn, l ≠ .take turn := fun turn same =>
        accepts turn (same ▸ List.mem_cons_self)
      have later := ih (unheld_stepPiece unheld step now) fun turn member =>
        accepts turn (List.mem_cons_of_mem l member)
      refine List.Sublist.append ?_ later
      cases returns : h.returns? l next with
      | none => exact List.nil_sublist _
      | some ticket =>
        rw [leaves_of_returns? unheld step returns]
        exact .refl _

/-- The entries of a list at all its places are the list. -/
theorem filterMap_getElem?_range {β : Type} (l : List β) :
    (List.range l.length).filterMap (l[·]?) = l := by
  have entries : (List.range l.length).map (l[·]?) = l.map some := by
    refine List.ext_getElem? fun i => ?_
    rw [List.getElem?_map, List.getElem?_map]
    by_cases inside : i < l.length
    · simp [inside]
    · simp [inside]
  have whole := congrArg (List.filterMap id) entries
  simpa [List.filterMap_map, Function.comp_def] using whole

/-! ## Nobody is left behind -/

/-- What holds between the pieces of a run in which receives accept what they take, sends that
have not seen their signal post, and all sends watch one signal. -/
structure Fair (signal : Nat) (h : Handoff α) : Prop where
  agrees : Agrees h
  lined : Lined h
  unheld : Unheld h
  inTurn : InTurn signal h
  before : ∀ turn ticket, h.recvs[turn]? = some (.got ticket) → ∀ i < turn, HasEnded h i

theorem fair_new (receivers signal : Nat) : Fair signal (new receivers : Handoff α) :=
  ⟨agrees_new receivers, lined_new receivers, unheld_new receivers, ⟨nofun, nofun, Or.inl .nil⟩,
    nofun⟩

/-- Who is before the first one in line has ended. -/
theorem ended_before_first {turn ticket : Nat} (lined : Lined h) (unheld : Unheld h)
    (inTurn : InTurn signal h) (first : h.turns.head? = some turn) (full : h.slot = some ticket) :
    ∀ i < turn, HasEnded h i := by
  intro i earlier
  obtain ⟨rest, turns⟩ := List.head?_eq_some_iff.mp first
  have sorted : h.turns.Pairwise (· < ·) := by
    refine inTurn.sorted.resolve_right fun spent => ?_
    cases full.symm.trans spent.1
  rw [turns, List.pairwise_cons] at sorted
  have waiting := (lined.turns turn).mp (List.mem_of_mem_head? first)
  have inside : i < h.recvs.length :=
    Nat.lt_trans earlier (List.getElem?_eq_some_iff.mp waiting).1
  have found := List.getElem?_eq_getElem inside
  refine ⟨h.recvs[i], found, ?_⟩
  cases state : h.recvs[i] with
  | waiting =>
    have member : i ∈ h.turns := (lined.turns i).mpr (state ▸ found)
    rw [turns, List.mem_cons] at member
    rcases member with rfl | later
    · exact absurd earlier (Nat.lt_irrefl i)
    · exact absurd earlier (Nat.lt_asymm (sorted.1 i later))
  | holding other => cases unheld i _ (state ▸ found)
  | got other => rfl
  | closed => rfl
  | abandoned => rfl

theorem fair_stepPiece {l : Piece α} (fair : Fair signal h) (step : h.stepPiece l = some h')
    (watches : l.Watches signal) (accepts : ∀ turn, l ≠ .take turn)
    (looks : ∀ ticket, l ≠ .post ticket) : Fair signal h' := by
  obtain ⟨agrees, lined, unheld, inTurn, before⟩ := fair
  have sound := sound_stepPiece agrees step
  refine ⟨sound.agrees, lined_stepPiece lined step, unheld_stepPiece unheld step accepts,
    inTurn_stepPiece lined unheld inTurn step watches accepts looks, ?_⟩
  intro turn ticket got i earlier
  by_cases old : h.recvs[turn]? = some (.got ticket)
  · exact (before turn ticket old i earlier).of_extends sound.extends_
  · rcases newly_got step old got with ⟨rfl, rfl⟩ | rfl
    · obtain ⟨_, step⟩ := Option.ite_none_left_eq_some.mp step
      cases step
      have serves := serves_startRecv unheld got
      have ended := ended_before_first (lined_ask lined) (unheld_ask unheld)
        (inTurn_ask lined inTurn) serves.first serves.full i earlier
      have same : h.ask.recvs[i]? = h.recvs[i]? := List.getElem?_append_left earlier
      rw [HasEnded, same, ← HasEnded] at ended
      exact ended.of_extends sound.extends_
    · have serves := serves_pollRecv unheld step got
      have ended := ended_before_first lined unheld inTurn serves.first serves.full i earlier
      exact ended.of_extends sound.extends_

theorem fair_pieces {ls : List (Piece α)} (fair : Fair signal h)
    (watches : ∀ l ∈ ls, l.Watches signal) (accepts : ∀ turn, .take turn ∉ ls)
    (looks : ∀ ticket, .post ticket ∉ ls) (run : h.pieces ls = some h') : Fair signal h' := by
  induction ls generalizing h with
  | nil => cases run; exact fair
  | cons l ls ih =>
    obtain ⟨next, step, rest⟩ := Option.bind_eq_some_iff.mp run
    obtain ⟨now, later⟩ := List.forall_mem_cons.mp watches
    have next_fair := fair_stepPiece fair step now
      (fun turn same => accepts turn (same ▸ List.mem_cons_self))
      (fun ticket same => looks ticket (same ▸ List.mem_cons_self))
    exact ih next_fair later (fun turn member => accepts turn (List.mem_cons_of_mem l member))
      (fun ticket member => looks ticket (List.mem_cons_of_mem l member)) rest

/-- A handoff is first in, first out, as far as that does not depend on when polls overlap.  In
every run, whatever is given up, cancelled or dropped on the way:

* the jobs that are returned are those that receives have got,
* deliveries leave the slot in the order in which their sends were started, and
* when a receive has a job, every receive that was started before it has taken a delivery or has
  ended.

If receives accept what they take before others move, the jobs are returned in the order in which
their sends were started.  If moreover sends that have not seen their signal post before others
move, and all sends watch one signal, then when a receive has a job, every receive that was started
before it has ended. -/
theorem jobs_are_handed_over_in_order {receivers : Nat} {ls : List (Piece α)}
    (run : (new receivers).pieces ls = some h) :
    (∀ ticket, ticket ∈ (new receivers : Handoff α).returned ls ↔ h.Got ticket) ∧
    ((new receivers : Handoff α).taken ls).Sublist (List.range h.sends.length) ∧
    (∀ turn ticket, h.recvs[turn]? = some (.got ticket) →
      ∀ i < turn, i ∈ (new receivers : Handoff α).takers ls ∨ HasEnded h i) ∧
    ((∀ turn, .take turn ∉ ls) →
      ((new receivers : Handoff α).returned ls).Pairwise (· < ·) ∧
      (((new receivers : Handoff α).returned ls).filterMap (h.jobs[·]?)).Sublist h.jobs ∧
      ∀ signal, (∀ ticket, .post ticket ∉ ls) → (∀ l ∈ ls, l.Watches signal) →
        ∀ turn ticket, h.recvs[turn]? = some (.got ticket) → ∀ i < turn, HasEnded h i) := by
  have in_order := deliveries_are_taken_in_order run
  have none_yet : ∀ ticket, ¬ (new receivers : Handoff α).Got ticket := by simp [Got, new]
  refine ⟨fun ticket => ?_, in_order, ?_, fun accepts => ?_⟩
  · rw [mem_returned_iff (agrees_new receivers) run, or_iff_right (none_yet ticket)]
  · exact fun turn ticket got => takers_leave_nobody_behind run got
  · have order := (returned_sublist_taken (unheld_new receivers) accepts).trans in_order
    refine ⟨List.pairwise_lt_range.sublist order, ?_, fun signal looks watches => ?_⟩
    · have within := order.filterMap (h.jobs[·]?)
      rwa [← List.length_map (·.job), ← jobs, filterMap_getElem?_range] at within
    · exact (fair_pieces (fair_new receivers signal) watches accepts looks run).before

/-- Three receives wait and the first one is given up. -/
def asking : List (Piece String) :=
  [.whole .recv, .whole .recv, .whole .recv, .whole (.abandon 0), .whole (.send "first" 0),
    .whole (.send "second" 0), .whole (.pollRecv 1), .whole (.pollSend 1), .whole (.pollRecv 2)]

/-- Then a delivery is withdrawn, and the receive that takes it goes behind the next one. -/
def callingOff : List (Piece String) :=
  [.whole .recv, .ask, .offer "third" 0, .whole (.pollSend 2), .whole (.cancel 0), .sight 2,
    .whole (.pollSend 2), .whole (.pollRecv 3), .whole .dropSender]

theorem jobs_are_handed_over_in_order_skipping :
    ∃ h, (new 1).pieces (asking ++ callingOff) = some h ∧
      (new 1).returned (asking ++ callingOff) = [0, 1] ∧ h.Got 1 ∧ ¬ h.Got 2 ∧
      ["first", "second"].Sublist h.jobs ∧ h.turns = [4, 3] ∧
      h.recvs[2]? = some (.got 1) ∧ ∀ i < 2, HasEnded h i := by
  have watches : ∀ l ∈ asking ++ callingOff, l.Watches 0 := by
    simp [asking, callingOff, Piece.Watches]
  have accepts : ∀ turn, .take turn ∉ asking ++ callingOff := by simp [asking, callingOff]
  have looks : ∀ ticket, .post ticket ∉ asking ++ callingOff := by simp [asking, callingOff]
  obtain ⟨got, _, _, prompt⟩ := @jobs_are_handed_over_in_order String _ 1 (asking ++ callingOff) rfl
  obtain ⟨_, jobs, served⟩ := prompt accepts
  refine ⟨_, rfl, rfl, (got 1).mp (by decide), ?_, jobs, rfl, rfl, ?_⟩
  · exact fun third => absurd ((got 2).mpr third) (by decide)
  · exact served 0 looks watches 2 1 rfl

/-- A receive takes the first job.  Before it accepts it, the next one returns with the second. -/
def overtaking : List (Piece String) :=
  [.whole .recv, .whole .recv, .whole (.send "first" 0), .take 0, .whole (.send "second" 0),
    .whole (.pollRecv 1), .whole (.pollRecv 0)]

/-- A receive drops a withdrawn delivery and goes behind the next one.  A send that has looked
before the signal was given posts, and the next receive returns with its job. -/
def passing : List (Piece String) :=
  [.whole .recv, .whole .recv, .whole (.send "first" 0), .offer "second" 0, .whole (.cancel 0),
    .whole (.pollSend 0), .whole (.pollRecv 0), .post 1, .whole (.pollRecv 1)]

/-- Polls that overlap can reverse the order in which jobs are returned, and a receive can return
while one that was started before it holds a delivery or still waits, though all sends watch one
signal. -/
theorem jobs_are_handed_over_out_of_order :
    (∀ l ∈ overtaking ++ passing, l.Watches 0) ∧
    (∃ h, (new 2).pieces overtaking = some h ∧ h.jobs = ["first", "second"] ∧
      (new 2).returned overtaking = [1, 0] ∧
      ¬ (((new 2).returned overtaking).filterMap (h.jobs[·]?)).Sublist h.jobs) ∧
    (∃ h, (new 2).pieces overtaking.dropLast = some h ∧ h.recvs = [.holding 0, .got 1]) ∧
    ∃ h, (new 2).pieces passing = some h ∧ h.recvs = [.waiting, .got 1] := by
  refine ⟨by simp [overtaking, passing, Piece.Watches], ⟨_, rfl, rfl, rfl, ?_⟩, ⟨_, rfl, rfl⟩,
    _, rfl, rfl⟩
  decide

end CommandPool.Handoff
