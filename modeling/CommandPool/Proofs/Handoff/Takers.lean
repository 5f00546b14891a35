import CommandPool.Proofs.Handoff.Got
import CommandPool.Proofs.Handoff.Progress

/-!
# Who takes deliveries

A receive that has taken a delivery may be held up before it accepts it, and one that finds its
delivery withdrawn goes to the end of the line.  So a receive may end before one that was started
earlier, and the line need not be in the order of turns.  But only a receive that has taken a
delivery can be overtaken: whoever takes one finds that every receive before it has ended or has
taken a delivery already.  This holds however polls overlap and whatever signals are given.
-/

namespace CommandPool

/-- The receive has taken a delivery and has not dropped it. -/
def RecvState.hasTaken : RecvState → Bool
  | .holding _ => true
  | .got _ => true
  | _ => false

namespace Handoff

variable {α : Type} {h h' : Handoff α} {took : List Nat} {turn ticket : Nat}

/-! ## Receives that take -/

/-- The receive that takes a delivery in a piece. -/
def takes? (h : Handoff α) : Piece α → Option Nat
  | .take turn => (h.take turn).map fun _ => turn
  | .whole (.pollRecv turn) => (h.take turn).map fun _ => turn
  | .whole .recv => (h.ask.take h.nextTurn).map fun _ => h.nextTurn
  | _ => none

/-- The receives that take a delivery in a run, in this order.  Who drops what it has taken may
take again. -/
def takers (h : Handoff α) : List (Piece α) → List Nat
  | [] => []
  | l :: ls =>
    match h.stepPiece l with
    | none => []
    | some next => (h.takes? l).toList ++ next.takers ls

/-- The receive of this turn has ended. -/
def HasEnded (h : Handoff α) (turn : Nat) : Prop :=
  ∃ state, h.recvs[turn]? = some state ∧ state.isEnded = true

/-- The receive of this turn has taken a delivery or has ended. -/
def Served (took : List Nat) (h : Handoff α) (turn : Nat) : Prop := turn ∈ took ∨ HasEnded h turn

/-- Only who has taken a delivery stands in line behind one that was started later, and who has
taken one has passed over nobody who has not. -/
structure Ranked (took : List Nat) (h : Handoff α) : Prop where
  turns : h.turns.Pairwise fun i j => i < j ∨ j ∈ took
  taken : ∀ turn state, h.recvs[turn]? = some state → state.hasTaken = true → turn ∈ took
  before : ∀ turn ∈ took, ∀ i < turn, Served took h i

theorem HasEnded.of_extends (ended : HasEnded h turn) (extends_ : Extends h h') :
    HasEnded h' turn := by
  obtain ⟨state, found, ended⟩ := ended
  exact ⟨state, extends_.recv turn state found ended, ended⟩

theorem Served.of_extends (served : Served took h turn) (extends_ : Extends h h')
    (more : List Nat) : Served (took ++ more) h' turn :=
  served.imp (List.mem_append_left more) (·.of_extends extends_)

/-! ## Parts of polls -/

/-- Sends and the two sides play no part. -/
theorem ranked_of_same (ranked : Ranked took h) (recvs : h'.recvs = h.recvs)
    (turns : h'.turns = h.turns) : Ranked took h' where
  turns := turns ▸ ranked.turns
  taken := recvs ▸ ranked.taken
  before := by
    simp only [Served, HasEnded, recvs]
    exact ranked.before

theorem turns_dropIfGone (h : Handoff α) : h.dropIfGone.turns = h.turns := by
  rcases dropIfGone_cases h with same | emptied | ⟨ticket, _, lost⟩
  · rw [same]
  · rw [emptied]
  · rw [lost]
    rfl

theorem ranked_dropIfGone (ranked : Ranked took h) : Ranked took h.dropIfGone :=
  ranked_of_same ranked (recvs_dropIfGone h) (turns_dropIfGone h)

theorem ranked_leaveTurns (ranked : Ranked took h) (turn : Nat) : Ranked took (h.leaveTurns turn) :=
  ⟨ranked.turns.filter _, ranked.taken, ranked.before⟩

/-- A receive that has not ended moves. -/
theorem ranked_setRecv {old : RecvState} (new : RecvState) (ranked : Ranked took h)
    (at_turn : h.recvs[turn]? = some old) (running : old.isEnded = false)
    (taken : new.hasTaken = true → turn ∈ took) : Ranked took (h.setRecv turn new) where
  turns := ranked.turns
  taken i state found has := by
    rcases (recvs_setRecv_eq_some_iff at_turn new i state).mp found with ⟨rfl, rfl⟩ | ⟨_, found⟩
    · exact taken has
    · exact ranked.taken i state found has
  before other member i earlier := by
    have served := (ranked.before other member i earlier).of_extends
      (extends_setRecv new at_turn running) []
    rwa [List.append_nil] at served

theorem ranked_ask (agrees : Agrees h) (ranked : Ranked took h) : Ranked took h.ask where
  turns := by
    refine List.pairwise_append.mpr ⟨ranked.turns, List.pairwise_singleton _ _, ?_⟩
    intro turn member last new
    rw [List.mem_singleton.mp new]
    exact Or.inl (List.getElem?_eq_some_iff.mp (agrees.waits turn member)).1
  taken turn state found has := by
    rcases getElem?_concat_eq_some_iff.mp found with found | ⟨_, rfl⟩
    · exact ranked.taken turn state found has
    · cases has
  before turn member i earlier := by
    have served := (ranked.before turn member i earlier).of_extends (sound_ask agrees).extends_ []
    rwa [List.append_nil] at served

/-- A receive takes the delivery in the slot.  Whoever was started before it and still waits is
behind it in line, so it has taken a delivery before. -/
theorem ranked_take (agrees : Agrees h) (lined : Lined h) (ranked : Ranked took h)
    (step : h.take turn = some h') : Ranked (took ++ [turn]) h' := by
  have extends_ := (sound_take agrees step).extends_
  obtain ⟨first, step⟩ := Option.ite_none_right_eq_some.mp step
  obtain ⟨ticket, _, rfl⟩ := Option.map_eq_some_iff.mp step
  obtain ⟨rest, turns⟩ := List.head?_eq_some_iff.mp first
  have waiting := agrees.waits turn (List.mem_of_mem_head? first)
  have ordered := turns ▸ ranked.turns
  rw [List.pairwise_cons] at ordered
  have passed : ∀ i < turn, Served took h i := by
    intro i earlier
    have inside := Nat.lt_trans earlier (List.getElem?_eq_some_iff.mp waiting).1
    have found := List.getElem?_eq_getElem inside
    cases state : h.recvs[i] with
    | waiting =>
      have member : i ∈ h.turns := (lined.turns i).mpr (state ▸ found)
      rw [turns, List.mem_cons] at member
      rcases member with rfl | later
      · exact absurd earlier (Nat.lt_irrefl i)
      · exact Or.inl ((ordered.1 i later).resolve_left (Nat.lt_asymm earlier))
    | holding other => exact Or.inl (ranked.taken i _ found (by rw [state]; rfl))
    | got other => exact Or.inr ⟨_, found, by rw [state]; rfl⟩
    | closed => exact Or.inr ⟨_, found, by rw [state]; rfl⟩
    | abandoned => exact Or.inr ⟨_, found, by rw [state]; rfl⟩
  refine ⟨?_, fun i state found has => ?_, fun other member i earlier => ?_⟩
  · refine (ranked.turns.filter _).imp fun before => ?_
    exact before.imp_right (List.mem_append_left _)
  · rcases (recvs_setRecv_eq_some_iff waiting _ i state).mp found with ⟨rfl, _⟩ | ⟨_, found⟩
    · exact List.mem_append_right _ List.mem_cons_self
    · exact List.mem_append_left _ (ranked.taken i state found has)
  · rcases List.mem_append.mp member with before | new
    · exact (ranked.before other before i earlier).of_extends extends_ _
    · cases List.mem_singleton.mp new
      exact (passed i earlier).of_extends extends_ _

/-- A receive that drops what it holds goes to the end of the line, behind receives that were
started after it. -/
theorem ranked_accept (ranked : Ranked took h) (step : h.accept turn = some h') :
    Ranked took h' := by
  unfold accept at step
  split at step
  next ticket holding =>
    have member := ranked.taken turn _ holding rfl
    split at step <;> cases step
    next =>
      refine ranked_dropIfGone (ranked_setRecv _ (ranked_of_same ranked ?_ ?_) holding rfl ?_)
      · rfl
      · rfl
      · exact fun _ => member
    next =>
      have moved := ranked_setRecv .waiting ranked holding rfl nofun
      refine ⟨?_, moved.taken, moved.before⟩
      refine List.pairwise_append.mpr ⟨ranked.turns, List.pairwise_singleton _ _, ?_⟩
      intro _ _ other last
      exact Or.inr (List.mem_singleton.mp last ▸ member)
  next => cases step

/-- A receive that waits gives up or ends without a job. -/
theorem ranked_leave {new : RecvState} (ranked : Ranked took h)
    (waiting : h.recvs[turn]? = some .waiting) (without : new.hasTaken = false) :
    Ranked took ((h.setRecv turn new).leaveTurns turn).dropIfGone := by
  have moved := ranked_setRecv new ranked waiting rfl (by simp [without])
  exact ranked_dropIfGone (ranked_leaveTurns moved turn)

theorem take_eq_none_of_holding (agrees : Agrees h)
    (holding : h.recvs[turn]? = some (.holding ticket)) : h.take turn = none := by
  refine if_neg fun first => ?_
  cases holding.symm.trans (agrees.waits turn (List.mem_of_mem_head? first))

/-- Where there is something to take a receive does not conclude. -/
theorem conclude_eq_none_of_take {held : Handoff α} (took : h.take turn = some held) :
    h.conclude turn = none := by
  obtain ⟨_, took⟩ := Option.ite_none_right_eq_some.mp took
  obtain ⟨ticket, full, _⟩ := Option.map_eq_some_iff.mp took
  simp [conclude, full]

theorem ranked_pollRecv (agrees : Agrees h) (lined : Lined h) (ranked : Ranked took h)
    (step : h.pollRecv turn = some h') :
    Ranked (took ++ ((h.take turn).map fun _ => turn).toList) h' := by
  unfold pollRecv at step
  split at step
  next waiting =>
    cases takes : h.take turn with
    | some held =>
      rw [takes, conclude_eq_none_of_take takes, Option.or_none] at step
      exact ranked_accept (ranked_take agrees lined ranked takes) step
    | none =>
      rw [takes] at step
      obtain ⟨_, step⟩ := Option.ite_none_right_eq_some.mp step
      cases step
      rw [Option.map_none, Option.toList_none, List.append_nil]
      exact ranked_leave ranked waiting rfl
  next holding =>
    rw [take_eq_none_of_holding agrees holding, Option.map_none, Option.toList_none,
      List.append_nil]
    exact ranked_accept ranked step
  next => cases step

theorem ranked_startRecv (agrees : Agrees h) (lined : Lined h) (ranked : Ranked took h) :
    Ranked (took ++ ((h.ask.take h.nextTurn).map fun _ => h.nextTurn).toList) h.startRecv := by
  have asked := ranked_ask agrees ranked
  have agrees' := (sound_ask agrees).agrees
  unfold startRecv
  cases step : h.ask.pollRecv h.nextTurn with
  | some h' => exact ranked_pollRecv agrees' (lined_ask lined) asked step
  | none =>
    -- The receive would not be held up if it could take.
    have idle : h.ask.take h.nextTurn = none := by
      refine Option.eq_none_iff_forall_not_mem.mpr fun held takes => ?_
      obtain ⟨first, takes⟩ := Option.ite_none_right_eq_some.mp takes
      obtain ⟨ticket, full, _⟩ := Option.map_eq_some_iff.mp takes
      exact pollRecv_ne_none_of_slot (lined_ask lined) first full step
    rw [idle, Option.map_none, Option.toList_none, List.append_nil]
    exact asked

/-! ## Polls of a send -/

theorem turns_pollSend (step : h.pollSend ticket = some h') : h'.turns = h.turns := by
  unfold pollSend at step
  split at step
  next =>
    split at step
    next => cases step; rfl
    next =>
      rcases Option.or_eq_some_iff.mp step with out | ⟨_, posted⟩
      · obtain ⟨_, out⟩ := Option.ite_none_right_eq_some.mp out
        cases out
        rfl
      · obtain ⟨_, posted⟩ := Option.ite_none_right_eq_some.mp posted
        cases posted
        rfl
  next =>
    obtain ⟨seen, sighted, withdrawn⟩ := Option.bind_eq_some_iff.mp step
    obtain ⟨_, sighted⟩ := Option.ite_none_right_eq_some.mp sighted
    obtain ⟨_, withdrawn⟩ := Option.ite_none_right_eq_some.mp withdrawn
    cases sighted
    cases withdrawn
    rfl
  next =>
    obtain ⟨_, step⟩ := Option.ite_none_right_eq_some.mp step
    cases step
    rfl
  next => cases step; rfl
  next => cases step; rfl
  next => cases step
  next => cases step

theorem turns_offer (h : Handoff α) (job : α) (signal : Nat) :
    (h.offer job signal).turns = h.turns := by
  unfold offer
  split <;> rfl

theorem turns_startSend (h : Handoff α) (job : α) (signal : Nat) :
    (h.startSend job signal).turns = h.turns := by
  simp only [startSend]
  cases step : (h.offer job signal).pollSend h.nextTicket with
  | none => exact turns_offer h job signal
  | some h' => exact (turns_pollSend step).trans (turns_offer h job signal)

/-! ## Steps and runs -/

/-- Nobody takes a delivery in the piece. -/
theorem ranked_untaken (ranked : Ranked took h) : Ranked (took ++ (none : Option Nat).toList) h :=
  (List.append_nil took).symm ▸ ranked

theorem ranked_step {l : Label α} (agrees : Agrees h) (lined : Lined h) (ranked : Ranked took h)
    (step : h.step l = some h') : Ranked (took ++ (h.takes? (.whole l)).toList) h' := by
  cases l with
  | recv =>
    obtain ⟨_, step⟩ := Option.ite_none_left_eq_some.mp step
    cases step
    exact ranked_startRecv agrees lined ranked
  | pollRecv turn => exact ranked_pollRecv agrees lined ranked step
  | send job signal =>
    obtain ⟨_, step⟩ := Option.ite_none_right_eq_some.mp step
    cases step
    exact ranked_untaken
      (ranked_of_same ranked (recvs_startSend h job signal) (turns_startSend h job signal))
  | pollSend ticket =>
    exact ranked_untaken (ranked_of_same ranked (recvs_pollSend step) (turns_pollSend step))
  | abandon turn =>
    obtain ⟨waiting, step⟩ := Option.ite_none_right_eq_some.mp step
    cases step
    exact ranked_untaken (ranked_leave ranked waiting rfl)
  | cancel signal =>
    cases step
    exact ranked_untaken (ranked_of_same ranked rfl rfl)
  | dropSender =>
    cases step
    exact ranked_untaken (ranked_of_same ranked rfl rfl)
  | dropReceiver =>
    cases step
    exact ranked_untaken (ranked_dropIfGone (ranked_of_same ranked rfl rfl))

theorem ranked_stepPiece {l : Piece α} (agrees : Agrees h) (lined : Lined h)
    (ranked : Ranked took h) (step : h.stepPiece l = some h') :
    Ranked (took ++ (h.takes? l).toList) h' := by
  cases l with
  | whole l => exact ranked_step agrees lined ranked step
  | take turn =>
    have taken : h.take turn = some h' := step
    rw [takes?, taken]
    exact ranked_take agrees lined ranked taken
  | ask =>
    obtain ⟨_, step⟩ := Option.ite_none_left_eq_some.mp step
    cases step
    exact ranked_untaken (ranked_ask agrees ranked)
  | offer job signal =>
    obtain ⟨_, step⟩ := Option.ite_none_right_eq_some.mp step
    cases step
    exact ranked_untaken
      (ranked_of_same ranked (recvs_offer h job signal) (turns_offer h job signal))
  | shutOut ticket =>
    obtain ⟨_, step⟩ := Option.ite_none_right_eq_some.mp step
    cases step
    exact ranked_untaken (ranked_of_same ranked rfl rfl)
  | post ticket =>
    obtain ⟨_, step⟩ := Option.ite_none_right_eq_some.mp step
    cases step
    exact ranked_untaken (ranked_of_same ranked rfl rfl)
  | sight ticket =>
    obtain ⟨_, step⟩ := Option.ite_none_right_eq_some.mp step
    cases step
    exact ranked_untaken (ranked_of_same ranked rfl rfl)

theorem ranked_pieces {ls : List (Piece α)} (agrees : Agrees h) (lined : Lined h)
    (ranked : Ranked took h) (run : h.pieces ls = some h') : Ranked (took ++ h.takers ls) h' := by
  induction ls generalizing h took with
  | nil =>
    cases run
    rwa [takers, List.append_nil]
  | cons l ls ih =>
    obtain ⟨next, step, rest⟩ := Option.bind_eq_some_iff.mp run
    rw [takers, step, ← List.append_assoc]
    exact ih (sound_stepPiece agrees step).agrees (lined_stepPiece lined step)
      (ranked_stepPiece agrees lined ranked step) rest

theorem ranked_new (receivers : Nat) : Ranked [] (new receivers : Handoff α) :=
  ⟨.nil, nofun, nofun⟩

/-- However polls overlap: when a receive has a job, every receive that was started before it has
taken a delivery or has ended. -/
theorem takers_leave_nobody_behind {receivers : Nat} {ls : List (Piece α)}
    (run : (new receivers).pieces ls = some h) (got : h.recvs[turn]? = some (.got ticket)) :
    ∀ i < turn, Served ((new receivers : Handoff α).takers ls) h i := by
  have ranked :=
    ranked_pieces (agrees_new receivers) (lined_new receivers) (ranked_new receivers) run
  exact ranked.before turn (ranked.taken turn _ got rfl)

end Handoff

end CommandPool
