import CommandPool.Proofs.Handoff.Lines
import CommandPool.Proofs.Handoff.Standing
import Mathlib.Algebra.GroupWithZero.Nat

/-!
# What is left to do in a handoff

Every poll that changes something brings a handoff nearer to its end.  `left` is a number
that says how near: a send weighs the more the further it is from its end, and as long as
its job is not accepted it carries what the job itself costs.  A delivery weighs in the
slot and in the hands of a receive.  A poll makes the number smaller, and the one that
gets a job even by the cost of the job.
-/

namespace CommandPool

/-- What is left to do for a send whose job costs so much. -/
def SendState.left (cost : Nat) : SendState → Nat
  | .waiting => cost + 5
  | .posted => cost + 2
  | .leaving => cost + 1
  | .taken => 1
  | .lost => 1
  | .ended _ => 0

/-- What is left to do for a receive. -/
def RecvState.left : RecvState → Nat
  | .holding _ => 1
  | _ => 0

/-- With one entry replaced, a sum has its summand replaced. -/
theorem sum_map_set {β : Type} (f : β → Nat) {l : List β} {i : Nat} {old : β} (new : β)
    (found : l[i]? = some old) :
    ((l.set i new).map f).sum + f old = (l.map f).sum + f new := by
  induction l generalizing i with
  | nil => cases found
  | cons b l ih =>
    cases i with
    | zero =>
      cases found
      simp only [List.set_cons_zero, List.map_cons, List.sum_cons]
      omega
    | succ i =>
      have rest := ih found
      simp only [List.set_cons_succ, List.map_cons, List.sum_cons]
      omega

namespace Handoff

variable {α : Type} {h h' : Handoff α} (cost : α → Nat)

/-- What is left to do for the sends. -/
def sendsLeft (h : Handoff α) : Nat := (h.sends.map fun s => s.state.left (cost s.job)).sum

/-- What is left to do for the receives. -/
def recvsLeft (h : Handoff α) : Nat := (h.recvs.map (·.left)).sum

/-- What is left to do for the delivery in the slot. -/
def slotLeft (h : Handoff α) : Nat := if h.slot.isSome then 2 else 0

/-- What is left to do. -/
def left (h : Handoff α) : Nat := h.sendsLeft cost + h.recvsLeft + h.slotLeft

/-! ## Changes at one place -/

theorem sendsLeft_setSend {ticket : Nat} {s : Send α} (new : SendState)
    (found : h.sends[ticket]? = some s) :
    (h.setSend ticket new).sendsLeft cost + s.state.left (cost s.job) =
      h.sendsLeft cost + new.left (cost s.job) := by
  have inside : ticket < h.sends.length := (List.getElem?_eq_some_iff.mp found).1
  have sends : (h.setSend ticket new).sends = h.sends.set ticket { s with state := new } := by
    refine List.ext_getElem? fun i => ?_
    rw [setSend, List.getElem?_modify, List.getElem?_set]
    by_cases equal : ticket = i
    · subst equal
      rw [found, if_pos rfl, if_pos inside]
      simp
    · simp [equal]
  rw [sendsLeft, sends]
  exact sum_map_set (fun s : Send α => s.state.left (cost s.job)) { s with state := new } found

theorem recvsLeft_setRecv {turn : Nat} {old : RecvState} (new : RecvState)
    (at_turn : h.recvs[turn]? = some old) :
    (h.setRecv turn new).recvsLeft + old.left = h.recvsLeft + new.left :=
  sum_map_set RecvState.left new at_turn

/-- A send that goes on is nearer to its end. -/
theorem left_setSend {ticket : Nat} {old new : SendState}
    (at_ticket : h.sendState? ticket = some old)
    (nearer : ∀ cost, new.left cost < old.left cost) :
    (h.setSend ticket new).left cost < h.left cost := by
  obtain ⟨s, found, rfl⟩ := sendState?_eq_some_iff.mp at_ticket
  have moved := sendsLeft_setSend cost new found
  have less := nearer (cost s.job)
  show (h.setSend ticket new).sendsLeft cost + h.recvsLeft + h.slotLeft < _
  unfold left
  omega

theorem left_dropIfGone (h : Handoff α) : h.dropIfGone.left cost ≤ h.left cost := by
  have emptied : ({ h with slot := none } : Handoff α).left cost ≤ h.left cost :=
    Nat.add_le_add_left (Nat.zero_le _) _
  rcases dropIfGone_cases h with same | dropped | ⟨ticket, posted, lost⟩
  · exact Nat.le_of_eq (congrArg (left cost) same)
  · rw [dropped]
    exact emptied
  · rw [lost]
    have less : ({ h with slot := none }.setSend ticket .lost).left cost <
        ({ h with slot := none } : Handoff α).left cost :=
      left_setSend cost posted fun cost => by simp only [SendState.left]; omega
    omega

/-! ## Polls of a send -/

theorem left_offer (h : Handoff α) (job : α) (signal : Nat) :
    (h.offer job signal).left cost < h.left cost + (cost job + 6) := by
  unfold offer
  split
  next =>
    simp only [left, sendsLeft, recvsLeft, slotLeft, List.map_append, List.sum_append,
      List.map_cons, List.map_nil, List.sum_cons, List.sum_nil, SendState.left]
    omega
  next =>
    simp only [left, sendsLeft, recvsLeft, slotLeft, List.map_append, List.sum_append,
      List.map_cons, List.map_nil, List.sum_cons, List.sum_nil, SendState.left]
    omega

theorem left_refuse {ticket : Nat} (waiting : h.sendState? ticket = some .waiting)
    (e : SubmitError) : (h.refuse ticket e).left cost < h.left cost :=
  left_setSend (h := h.leaveLine ticket) cost waiting fun cost => by
    simp only [SendState.left]
    omega

theorem left_shutOut {ticket : Nat} (step : h.shutOut ticket = some h') :
    h'.left cost < h.left cost := by
  simp only [shutOut, Bool.and_eq_true, decide_eq_true_eq, Option.ite_none_right_eq_some,
    Option.some.injEq] at step
  obtain ⟨⟨waiting, _⟩, rfl⟩ := step
  exact left_refuse cost waiting .closed

theorem left_post {ticket : Nat} (step : h.post ticket = some h') :
    h'.left cost < h.left cost := by
  simp only [post, Bool.and_eq_true, decide_eq_true_eq, Option.isNone_iff_eq_none,
    Option.ite_none_right_eq_some, Option.some.injEq] at step
  obtain ⟨⟨⟨⟨waiting, _⟩, empty⟩, _⟩, rfl⟩ := step
  obtain ⟨s, found, state⟩ := sendState?_eq_some_iff.mp waiting
  have moved := sendsLeft_setSend (h := h.leaveLine ticket) cost .posted found
  have line : (h.leaveLine ticket).sendsLeft cost = h.sendsLeft cost := rfl
  have nothing : h.slotLeft = 0 := by simp [slotLeft, empty]
  rw [state, line] at moved
  show ((h.leaveLine ticket).setSend ticket .posted).sendsLeft cost + h.recvsLeft + 2 < _
  simp only [SendState.left] at moved
  unfold left
  omega

theorem left_sight {ticket : Nat} (step : h.sight ticket = some h') :
    h'.left cost < h.left cost := by
  simp only [sight, Bool.and_eq_true, decide_eq_true_eq, Option.ite_none_right_eq_some,
    Option.some.injEq] at step
  obtain ⟨⟨posted, _⟩, rfl⟩ := step
  exact left_setSend cost posted fun cost => by simp only [SendState.left]; omega

theorem left_withdraw {ticket : Nat} (step : h.withdraw ticket = some h') :
    h'.left cost < h.left cost := by
  obtain ⟨leaving, step⟩ := Option.ite_none_right_eq_some.mp step
  cases step
  exact left_setSend cost leaving fun cost => by simp only [SendState.left]; omega

theorem left_pollSend {ticket : Nat} (step : h.pollSend ticket = some h') :
    h'.left cost < h.left cost := by
  unfold pollSend at step
  split at step
  next waiting =>
    split at step
    next => cases step; exact left_refuse cost waiting .cancelled
    next =>
      rcases Option.or_eq_some_iff.mp step with out | ⟨_, posted⟩
      · exact left_shutOut cost out
      · exact left_post cost posted
  next =>
    obtain ⟨seen, sighted, withdrawn⟩ := Option.bind_eq_some_iff.mp step
    exact Nat.lt_trans (left_withdraw cost withdrawn) (left_sight cost sighted)
  next => exact left_withdraw cost step
  next taken => cases step; exact left_setSend cost taken fun _ => Nat.one_pos
  next lost => cases step; exact left_setSend cost lost fun _ => Nat.one_pos
  next => cases step
  next => cases step

theorem left_startSend (h : Handoff α) (job : α) (signal : Nat) :
    (h.startSend job signal).left cost < h.left cost + (cost job + 6) := by
  have offered := left_offer cost h job signal
  unfold startSend
  dsimp only
  cases polled : (h.offer job signal).pollSend h.nextTicket with
  | none => exact offered
  | some q => exact Nat.lt_trans (left_pollSend cost polled) offered

/-! ## Polls of a receive -/

theorem left_ask (h : Handoff α) : h.ask.left cost = h.left cost := by
  have waits : h.ask.recvs.map RecvState.left = h.recvs.map RecvState.left ++ [0] :=
    List.map_append
  show h.sendsLeft cost + (h.ask.recvs.map RecvState.left).sum + h.slotLeft = _
  rw [waits, List.sum_append]
  rfl

theorem left_take {turn : Nat} (lined : Lined h) (step : h.take turn = some h') :
    h'.left cost < h.left cost := by
  obtain ⟨first, step⟩ := Option.ite_none_right_eq_some.mp step
  obtain ⟨ticket, inSlot, rfl⟩ := Option.map_eq_some_iff.mp step
  have waiting := (lined.turns turn).mp (List.mem_of_mem_head? first)
  have moved := recvsLeft_setRecv (h := h.leaveTurns turn) (.holding ticket) waiting
  have before : (h.leaveTurns turn).recvsLeft = h.recvsLeft := rfl
  have full : h.slotLeft = 2 := by simp [slotLeft, inSlot]
  show h.sendsLeft cost + ((h.leaveTurns turn).setRecv turn (.holding ticket)).recvsLeft + 0 < _
  simp only [RecvState.left] at moved
  unfold left
  omega

/-- What a poll of a receive comes to: it has got a job and is relieved of the cost of
that, it is back in line, or it has ended without a job. -/
inductive Polled (h h' : Handoff α) (turn : Nat) : Prop where
  | got (ticket : Nat) (s : Send α) : h'.recvs[turn]? = some (.got ticket) →
      h'.sends[ticket]? = some s → h'.left cost + cost s.job < h.left cost → Polled h h' turn
  | back : h'.recvs[turn]? = some .waiting → h'.left cost < h.left cost → Polled h h' turn
  | closed : h'.recvs[turn]? = some .closed → h'.left cost ≤ h.left cost → Polled h h' turn

theorem Standing.send {ticket : Nat} {s : Send α} (standing : Standing h h')
    (found : h.sends[ticket]? = some s) : ∃ s', h'.sends[ticket]? = some s' ∧ s'.job = s.job := by
  have job : h'.jobs[ticket]? = some s.job := by
    rw [standing.jobs, Handoff.jobs, List.getElem?_map, found]
    rfl
  rw [Handoff.jobs, List.getElem?_map] at job
  exact Option.map_eq_some_iff.mp job

theorem polled_accept {turn : Nat} (step : h.accept turn = some h') : Polled cost h h' turn := by
  have standing := standing_accept step
  unfold accept at step
  split at step
  next ticket holding =>
    have here : ∀ new, (h.recvs.set turn new)[turn]? = some new :=
      fun new => List.getElem?_set_self (List.getElem?_eq_some_iff.mp holding).1
    split at step <;> cases step
    next still =>
      obtain ⟨s, found, weighs⟩ : ∃ s, h.sends[ticket]? = some s ∧
          cost s.job + 1 ≤ s.state.left (cost s.job) := by
        simp only [awaits, Bool.or_eq_true, beq_iff_eq] at still
        rcases still with posted | leaving
        · obtain ⟨s, found, state⟩ := sendState?_eq_some_iff.mp posted
          exact ⟨s, found, by rw [state]; simp only [SendState.left]; omega⟩
        · obtain ⟨s, found, state⟩ := sendState?_eq_some_iff.mp leaving
          exact ⟨s, found, by rw [state]; simp only [SendState.left]; omega⟩
      obtain ⟨s', found', job⟩ := standing.send found
      refine .got ticket s' ?_ found' ?_
      · rw [recvs_dropIfGone]
        exact here (.got ticket)
      · have sent := sendsLeft_setSend cost .taken found
        have received := recvsLeft_setRecv (h := h.setSend ticket .taken) (.got ticket) holding
        have recvs : (h.setSend ticket .taken).recvsLeft = h.recvsLeft := rfl
        have dropped := left_dropIfGone cost ((h.setSend ticket .taken).setRecv turn (.got ticket))
        have parts : ((h.setSend ticket .taken).setRecv turn (.got ticket)).left cost =
            (h.setSend ticket .taken).sendsLeft cost +
              ((h.setSend ticket .taken).setRecv turn (.got ticket)).recvsLeft + h.slotLeft := rfl
        have one : SendState.taken.left (cost s.job) = 1 := rfl
        simp only [RecvState.left] at received
        have whole : h.left cost = h.sendsLeft cost + h.recvsLeft + h.slotLeft := rfl
        rw [job]
        omega
    next =>
      refine .back (here .waiting) ?_
      have received := recvsLeft_setRecv .waiting holding
      simp only [RecvState.left] at received
      show h.sendsLeft cost + (h.setRecv turn .waiting).recvsLeft + h.slotLeft < _
      unfold left
      omega
  next => cases step

/-- A receive that waits has nothing left to do, and so it has when it ends. -/
theorem left_leave {turn : Nat} {new : RecvState} (waiting : h.recvs[turn]? = some .waiting)
    (nothing : new.left = 0) :
    ((h.setRecv turn new).leaveTurns turn).dropIfGone.left cost ≤ h.left cost := by
  have received := recvsLeft_setRecv new waiting
  have dropped := left_dropIfGone cost ((h.setRecv turn new).leaveTurns turn)
  have parts : ((h.setRecv turn new).leaveTurns turn).left cost =
      h.sendsLeft cost + (h.setRecv turn new).recvsLeft + h.slotLeft := rfl
  have whole : h.left cost = h.sendsLeft cost + h.recvsLeft + h.slotLeft := rfl
  have before : RecvState.waiting.left = 0 := rfl
  omega

theorem polled_pollRecv {turn : Nat} (lined : Lined h) (step : h.pollRecv turn = some h') :
    Polled cost h h' turn := by
  unfold pollRecv at step
  split at step
  next waiting =>
    rcases Option.or_eq_some_iff.mp step with taken | ⟨_, concluded⟩
    · obtain ⟨held, took, accepted⟩ := Option.bind_eq_some_iff.mp taken
      have less := left_take cost lined took
      cases polled_accept cost accepted with
      | got ticket s got found relieved =>
        exact .got ticket s got found (Nat.lt_trans relieved less)
      | back waits nearer => exact .back waits (Nat.lt_trans nearer less)
      | closed ended nearer => exact .closed ended (Nat.le_trans nearer (Nat.le_of_lt less))
    · obtain ⟨_, step⟩ := Option.ite_none_right_eq_some.mp concluded
      cases step
      refine .closed ?_ (left_leave cost waiting rfl)
      rw [recvs_dropIfGone]
      exact List.getElem?_set_self (List.getElem?_eq_some_iff.mp waiting).1
  next => exact polled_accept cost step
  next => cases step

theorem left_abandon {turn : Nat} (step : h.abandon turn = some h') :
    h'.left cost ≤ h.left cost := by
  obtain ⟨waiting, step⟩ := Option.ite_none_right_eq_some.mp step
  cases step
  exact left_leave cost waiting rfl

/-! ## The two sides -/

theorem left_dropReceiver (h : Handoff α) : h.dropReceiver.left cost ≤ h.left cost :=
  left_dropIfGone cost { h with receivers := h.receivers - 1 }

end Handoff

end CommandPool
