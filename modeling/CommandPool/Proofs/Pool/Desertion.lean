import CommandPool.Proofs.Pool.Quiet

/-!
# Pools without a worker

When every worker is gone, nobody is left who could take a delivery.  A send that waits
finds that out when it is polled, the delivery in the slot was lost with the last receiver,
and none is in anybody's hands.  So if no signal was given, every send whose job no worker
has ends as closed as soon as it is polled, and nothing ever happens to its job.
-/

namespace CommandPool

/-! ## Sends without a receiver -/

namespace Handoff

variable {α : Type} {h : Handoff α} {ticket : Nat}

/-- The send has ended as closed, or ends so when it is polled. -/
def IsShut (h : Handoff α) (ticket : Nat) : Prop :=
  h.sendEnd? ticket = some (.refused .closed) ∨
    ∃ q, h.pollSend ticket = some q ∧ q.sendEnd? ticket = some (.refused .closed)

theorem sendEnd?_setSend {old : SendState} (at_ticket : h.sendState? ticket = some old)
    (how : SendEnd) : (h.setSend ticket (.ended how)).sendEnd? ticket = some how := by
  rw [sendEnd?_eq_some_iff, sendState?_setSend, if_pos rfl, at_ticket]
  rfl

/-- A delivery that was posted does not lie anywhere without a receiver. -/
theorem not_posted_of_gone (gone : h.receiversGone = true) (lined : Lined h) (placed : Placed h) :
    h.sendState? ticket ≠ some .posted := by
  intro posted
  obtain ⟨place, lies⟩ := placed.posted ticket posted
  cases place with
  | slot => cases (lined.emptied gone).symm.trans lies
  | hands turn =>
    simp only [receiversGone, Bool.and_eq_true, Bool.not_eq_true'] at gone
    have unheld := List.any_eq_false.mp gone.2 _ (List.mem_of_getElem? lies)
    exact absurd rfl unheld

theorem isShut_of_gone {state : SendState} (gone : h.receiversGone = true) (given : h.given = [])
    (lined : Lined h) (placed : Placed h) (grounded : Grounded h)
    (at_ticket : h.sendState? ticket = some state) (unaccepted : state.isAccepted = false) :
    IsShut h ticket := by
  have grounds := grounded ticket state at_ticket
  cases state with
  | waiting =>
    have running : h.isCancelled ticket = false :=
      Bool.eq_false_iff.mpr fun cancelled => given_of_isCancelled cancelled given
    have polled : h.pollSend ticket = some (h.refuse ticket .closed) := by
      rw [pollSend, at_ticket]
      simp [running, shutOut, at_ticket, gone]
    exact Or.inr ⟨_, polled, sendEnd?_setSend (h := h.leaveLine ticket) at_ticket _⟩
  | posted => exact absurd at_ticket (not_posted_of_gone gone lined placed)
  | leaving => exact absurd given grounds
  | taken => cases unaccepted
  | lost =>
    have polled : h.pollSend ticket = some (h.setSend ticket (.ended (.refused .closed))) := by
      rw [pollSend, at_ticket]
    exact Or.inr ⟨_, polled, sendEnd?_setSend at_ticket _⟩
  | ended how =>
    cases how with
    | accepted => cases unaccepted
    | refused e =>
      cases e with
      | cancelled => exact absurd given grounds
      | closed => exact Or.inl (sendEnd?_eq_some_iff.mpr at_ticket)

/-- A send that is shut when it enters the line ends as closed when it is started. -/
theorem IsShut.sendEnd?_startSend {job : α} {signal : Nat}
    (shut : IsShut (h.offer job signal) h.nextTicket) :
    (h.startSend job signal).sendEnd? h.nextTicket = some (.refused .closed) := by
  unfold startSend
  dsimp only
  rcases shut with ended | ⟨q, polled, ended⟩
  · have unpolled : (h.offer job signal).pollSend h.nextTicket = none := by
      rw [pollSend, sendEnd?_eq_some_iff.mp ended]
    rw [unpolled]
    exact ended
  · rw [polled]
    exact ended

end Handoff

namespace Pool

variable {α : Type} {p p' : Pool α} {w ticket : Nat}

/-! ## No worker is left -/

theorem IsDeserted.stage? (deserted : IsDeserted p) (w : Nat) : p.stage? w = none := by
  cases at_w : p.phase? w with
  | none => rw [Pool.stage?, at_w]; rfl
  | some phase =>
    have gone := deserted w phase at_w
    rw [stage?_of_phase? at_w]
    cases phase <;> first | rfl | cases gone

theorem IsDeserted.turn? (deserted : IsDeserted p) (w : Nat) : p.turn? w = none := by
  cases at_w : p.phase? w with
  | none => rw [Pool.turn?, at_w]; rfl
  | some phase =>
    have gone := deserted w phase at_w
    rw [turn?_of_phase? at_w]
    cases phase <;> first | rfl | cases gone

/-- Nobody comes back. -/
theorem IsDeserted.of_keeps (deserted : IsDeserted p) (keeps : Keeps p p') : IsDeserted p' := by
  intro w phase at_w
  have inside : w < p.workers.length := by
    rw [← keeps.count]
    exact (List.getElem?_eq_some_iff.mp at_w).1
  have before : p.phase? w = some p.workers[w] := List.getElem?_eq_getElem inside
  have gone := deserted w _ before
  rw [Option.some.inj (at_w.symm.trans (keeps.gone w _ before gone))]
  exact gone

/-- Without a worker no receive is under way. -/
theorem IsDeserted.receiversGone (deserted : IsDeserted p) (orderly : Orderly p) :
    p.queue.receiversGone = true := by
  have idle : ∀ (turn : Nat) (state : RecvState), p.queue.recvs[turn]? = some state →
      state.isEnded = true := by
    intro turn state at_turn
    cases running : state.isEnded with
    | true => rfl
    | false =>
      have runs : p.queue.runs turn = true := by
        rw [Handoff.runs_of_state at_turn, running]
        rfl
      obtain ⟨w, waits⟩ := (orderly.attended.asked.runs turn).mp runs
      cases (deserted.turn? w).symm.trans waits
  have turns : p.queue.turns = [] := by
    refine List.eq_nil_iff_forall_not_mem.mpr fun turn inLine => ?_
    cases idle turn _ ((orderly.attended.lined.turns turn).mp inLine)
  have unheld : p.queue.holding = false := by
    refine List.any_eq_false.mpr fun state member => ?_
    obtain ⟨turn, at_turn⟩ := List.getElem?_of_mem member
    have ended := idle turn state at_turn
    cases state with
    | holding ticket => cases ended
    | waiting => cases ended
    | _ => nofun
  rw [Handoff.receiversGone, (receivers_eq_zero_iff orderly.manned).mpr deserted, turns, unheld]
  rfl

/-- Without a worker no job is taken. -/
theorem IsDeserted.got_iff {l : Piece α} (deserted : IsDeserted p) (agrees : p.queue.Agrees)
    (step : p.stepPiece l = some p') (ticket : Nat) :
    p'.queue.Got ticket ↔ p.queue.Got ticket := by
  obtain ⟨keeps, change⟩ := change_stepPiece agrees step
  cases change with
  | aside stages events got => exact got ticket
  | taken w taken s without fresh found stages =>
    have here := stages w
    rw [(deserted.of_keeps keeps).stage?, if_pos rfl] at here
    cases here
  | moved w a new b before move stages events got => exact got ticket

theorem IsDeserted.pieces {ls : List (Piece α)} (deserted : IsDeserted p)
    (chronicle : Chronicle p) (run : p.pieces ls = some p') :
    IsDeserted p' ∧ Chronicle p' ∧ ∀ ticket, p'.queue.Got ticket ↔ p.queue.Got ticket := by
  let so : Pool α → Prop := fun q =>
    IsDeserted q ∧ Chronicle q ∧ ∀ ticket, q.queue.Got ticket ↔ p.queue.Got ticket
  have kept : ∀ q q' l, so q → stepPiece q l = some q' → so q' := by
    intro q q' l ⟨deserted, chronicle, got⟩ step
    obtain ⟨keeps, change⟩ := change_stepPiece chronicle.agrees step
    refine ⟨deserted.of_keeps keeps, chronicle_change chronicle keeps change, fun ticket => ?_⟩
    exact (deserted.got_iff chronicle.agrees step ticket).trans (got ticket)
  exact holds_of_pieces so kept ⟨deserted, chronicle, fun _ => Iff.rfl⟩ run

/-! ## Submissions without a worker -/

theorem isAccepted_of_not_got {state : SendState} (agrees : p.queue.Agrees)
    (absent : ¬ p.queue.Got ticket) (at_ticket : p.queue.sendState? ticket = some state) :
    state.isAccepted = false := by
  refine Bool.eq_false_iff.mpr fun accepted => ?_
  exact absent ((agrees.got_iff ticket).mpr ⟨_, at_ticket, accepted⟩)

/-- A submission that is pending ends as closed. -/
theorem IsDeserted.isShut (deserted : IsDeserted p) (orderly : Orderly p) (calm : Calm p)
    (inside : ticket < p.queue.sends.length) (absent : ¬ p.queue.Got ticket) :
    p.queue.IsShut ticket := by
  have at_ticket : p.queue.sendState? ticket = some p.queue.sends[ticket].state :=
    Handoff.sendState?_eq_some_iff.mpr ⟨_, List.getElem?_eq_getElem inside, rfl⟩
  exact Handoff.isShut_of_gone (deserted.receiversGone orderly) calm.given orderly.attended.lined
    orderly.attended.placed calm.grounded at_ticket
    (isAccepted_of_not_got orderly.chronicle.agrees absent at_ticket)

/-- A submission that starts now ends at once as closed. -/
theorem IsDeserted.submit (deserted : IsDeserted p) (orderly : Orderly p) (calm : Calm p)
    (job : Job α) (unjoined : p.joined = none) :
    ∃ q, p.submit job = some q ∧
      q.queue.sendEnd? p.queue.nextTicket = some (.refused .closed) := by
  have open_ : p.joined.isNone = true := Option.isNone_iff_eq_none.mpr unjoined
  have offers : p.stepPiece (.offer job) =
      some { p with queue := p.queue.offer job signal } := if_pos open_
  refine ⟨_, if_pos open_, Handoff.IsShut.sendEnd?_startSend ?_⟩
  have keeps := (change_stepPiece calm.agrees offers).1
  refine (deserted.of_keeps keeps).isShut (orderly_stepPiece orderly offers)
    (calm_stepPiece calm offers rfl) ?_ ?_
  · exact Nat.lt_of_lt_of_eq (Nat.lt_succ_self _) (asks_stepPiece offers).length_sends.symm
  · rw [deserted.got_iff calm.agrees offers]
    rintro ⟨turn, got⟩
    exact absurd (calm.agrees.lt_length_of_got got) (Nat.lt_irrefl _)

end Pool

end CommandPool
