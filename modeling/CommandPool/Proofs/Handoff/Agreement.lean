import CommandPool.Proofs.Handoff.Parts

/-!
# The two sides of a handoff agree

A delivery is accepted in one place: the receive that holds it gets the job, and
the send is marked as taken, in the same part of a poll.  The invariant `Agrees`
says that these two marks go together in every state, however polls overlap, and
that nothing is left behind when a receive ends without a job.  `Extends` says that
what has ended stays as it is.  `Sound` is both for one change, and each part of a
poll is shown to be sound once.

`sides_agree` is the statement about whole runs: a job is got at most once, a send
that has ended was accepted exactly when its job was got, and a refused job is got
neither before nor after.
-/

namespace CommandPool.Handoff

variable {α : Type} {h h' h'' : Handoff α}

/-! ## The invariant -/

/-- Some receive has ended with the job of this ticket. -/
def Got (h : Handoff α) (ticket : Nat) : Prop := ∃ turn : Nat, h.recvs[turn]? = some (.got ticket)

/-- The marks on the two sides of a handoff go together. -/
structure Agrees (h : Handoff α) : Prop where
  /-- Who is in line waits. -/
  waits : ∀ turn ∈ h.turns, h.recvs[turn]? = some .waiting
  /-- A job was got exactly when its send is marked as accepted. -/
  got_iff : ∀ ticket, h.Got ticket ↔
    ∃ state, h.sendState? ticket = some state ∧ state.isAccepted = true
  /-- A job was got once. -/
  got_once : ∀ ticket i j : Nat, h.recvs[i]? = some (.got ticket) →
    h.recvs[j]? = some (.got ticket) → i = j
  /-- A receive ends without a job only after the sender is gone. -/
  closed : ∀ turn : Nat, h.recvs[turn]? = some .closed → h.senderGone = true

/-- What has ended in `h` stands in `h'` as it stood. -/
structure Extends (h h' : Handoff α) : Prop where
  recv : ∀ (turn : Nat) (state : RecvState), h.recvs[turn]? = some state → state.isEnded = true →
    h'.recvs[turn]? = some state
  send : ∀ (ticket : Nat) (s : Send α), h.sends[ticket]? = some s →
    ∃ s', h'.sends[ticket]? = some s' ∧ s'.job = s.job ∧
      (s.state.isEnded = true → s'.state = s.state)

theorem Extends.refl (h : Handoff α) : Extends h h :=
  ⟨fun _ _ found _ => found, fun _ s found => ⟨s, found, rfl, fun _ => rfl⟩⟩

theorem Extends.trans (first : Extends h h') (second : Extends h' h'') : Extends h h'' where
  recv turn state found ended := second.recv turn state (first.recv turn state found ended) ended
  send ticket s found := by
    obtain ⟨s', found', job', same'⟩ := first.send ticket s found
    obtain ⟨s'', found'', job'', same''⟩ := second.send ticket s' found'
    refine ⟨s'', found'', job''.trans job', fun ended => ?_⟩
    rw [same'' (by rw [same' ended]; exact ended), same' ended]

/-- The end of a send stays. -/
theorem Extends.sendEnd? (extends_ : Extends h h') {ticket : Nat} {how : SendEnd}
    (ended : h.sendEnd? ticket = some how) : h'.sendEnd? ticket = some how := by
  obtain ⟨s, found, state⟩ := sendState?_eq_some_iff.mp (sendEnd?_eq_some_iff.mp ended)
  obtain ⟨s', found', _, same⟩ := extends_.send ticket s found
  refine sendEnd?_eq_some_iff.mpr (sendState?_eq_some_iff.mpr ⟨s', found', ?_⟩)
  rw [same (by rw [state]; rfl), state]

/-- A send that has ended was accepted exactly when its job was got. -/
theorem Agrees.accepted_iff (agrees : Agrees h) {ticket : Nat} {how : SendEnd}
    (ended : h.sendEnd? ticket = some how) :
    how = .accepted ↔ h.Got ticket := by
  rw [sendEnd?_eq_some_iff] at ended
  rw [agrees.got_iff ticket, ended]
  cases how with
  | accepted => simp [SendState.isAccepted]
  | refused => simp [SendState.isAccepted]

/-- The job of a send that has ended was got or refused. -/
theorem Agrees.got_or_refused (agrees : Agrees h) {ticket : Nat} (inside : ticket < h.sends.length)
    (ended : ∀ state, h.sendState? ticket = some state → state.isEnded = true) :
    h.Got ticket ∨ ∃ e, h.sendEnd? ticket = some (.refused e) := by
  have at_ticket : h.sendState? ticket = some h.sends[ticket].state :=
    sendState?_eq_some_iff.mpr ⟨_, List.getElem?_eq_getElem inside, rfl⟩
  cases state : h.sends[ticket].state with
  | ended how =>
    rw [state] at at_ticket
    have known := sendEnd?_eq_some_iff.mpr at_ticket
    cases how with
    | accepted => exact Or.inl ((agrees.accepted_iff known).mp rfl)
    | refused e => exact Or.inr ⟨e, known⟩
  | _ =>
    have := ended _ at_ticket
    rw [state] at this
    cases this

/-- A change that leaves the two sides in agreement and what has ended alone. -/
structure Sound (h h' : Handoff α) : Prop where
  agrees : Agrees h'
  extends_ : Extends h h'
  /-- A sender that is gone does not come back. -/
  gone : h.senderGone = true → h'.senderGone = true

theorem Sound.refl (agrees : Agrees h) : Sound h h := ⟨agrees, .refl h, id⟩

theorem Sound.trans (first : Sound h h') (second : Agrees h' → Sound h' h'') : Sound h h'' :=
  have next := second first.agrees
  ⟨next.agrees, first.extends_.trans next.extends_, next.gone ∘ first.gone⟩

/-! ## Changes at one place -/

theorem extends_setSend {ticket : Nat} {old : SendState} (new : SendState)
    (at_ticket : h.sendState? ticket = some old) (running : old.isEnded = false) :
    Extends h (h.setSend ticket new) := by
  refine ⟨fun _ _ found _ => found, fun other s found => ?_⟩
  by_cases equal : ticket = other
  · subst equal
    refine ⟨{ s with state := new }, by simp [setSend, found], rfl, fun ended => ?_⟩
    have state : s.state = old := by
      have known := sendState?_eq_some_iff.mpr ⟨s, found, rfl⟩
      exact Option.some.inj (known.symm.trans at_ticket)
    rw [state, running] at ended
    cases ended
  · exact ⟨s, by simp [setSend, equal, found], rfl, fun _ => rfl⟩

theorem extends_setRecv {turn : Nat} {old : RecvState} (new : RecvState)
    (at_turn : h.recvs[turn]? = some old) (running : old.isEnded = false) :
    Extends h (h.setRecv turn new) := by
  refine ⟨fun i state found ended => ?_, fun _ s found => ⟨s, found, rfl, fun _ => rfl⟩⟩
  have other := ne_of_running at_turn running found ended
  exact (recvs_setRecv_eq_some_iff at_turn new i state).mpr (Or.inr ⟨other, found⟩)

/-- Who is in line waits, also when a receive that is not in line moves. -/
theorem Agrees.waits_setRecv {turn : Nat} {old : RecvState} (agrees : Agrees h)
    (new : RecvState) (at_turn : h.recvs[turn]? = some old) (absent : turn ∉ h.turns) :
    ∀ i ∈ h.turns, (h.setRecv turn new).recvs[i]? = some .waiting := by
  intro i member
  refine (recvs_setRecv_eq_some_iff at_turn new i _).mpr (Or.inr ⟨?_, agrees.waits i member⟩)
  rintro rfl
  exact absent member

/-- A send that has not ended moves, and is not accepted by that. -/
theorem sound_setSend {ticket : Nat} {old : SendState} (new : SendState) (agrees : Agrees h)
    (at_ticket : h.sendState? ticket = some old) (running : old.isEnded = false)
    (same : new.isAccepted = old.isAccepted) : Sound h (h.setSend ticket new) := by
  have notGone := not_senderGone_of_running at_ticket running
  refine ⟨⟨agrees.waits, ?_, agrees.got_once, ?_⟩, extends_setSend new at_ticket running, ?_⟩
  · intro other
    rw [Got, recvs_setSend, ← Got, agrees.got_iff other, sendState?_setSend]
    split
    next equal =>
      subst equal
      simp [at_ticket, same]
    next => rfl
  · intro turn closed
    exact absurd (agrees.closed turn closed) notGone
  · intro gone
    exact absurd gone notGone

/-- A receive that has not ended and is not in line moves, without a job. -/
theorem sound_setRecv {turn : Nat} {old : RecvState} (new : RecvState) (agrees : Agrees h)
    (at_turn : h.recvs[turn]? = some old) (running : old.isEnded = false)
    (absent : turn ∉ h.turns) (without : ∀ ticket, new ≠ .got ticket)
    (gone : new = .closed → h.senderGone = true) : Sound h (h.setRecv turn new) := by
  have found_iff := fun i state => recvs_setRecv_eq_some_iff at_turn new i state
  have got_same : ∀ i ticket : Nat, (h.setRecv turn new).recvs[i]? = some (.got ticket) ↔
      h.recvs[i]? = some (.got ticket) := by
    intro i ticket
    rw [found_iff]
    constructor
    · rintro (⟨_, made⟩ | ⟨_, before⟩)
      · exact absurd made.symm (without ticket)
      · exact before
    · intro got
      exact Or.inr ⟨ne_of_running at_turn running got rfl, got⟩
  refine ⟨⟨agrees.waits_setRecv new at_turn absent, ?_, ?_, ?_⟩,
    extends_setRecv new at_turn running, id⟩
  · intro ticket
    simp only [Got, got_same]
    exact agrees.got_iff ticket
  · intro ticket i j got_i got_j
    exact agrees.got_once ticket i j ((got_same i ticket).mp got_i) ((got_same j ticket).mp got_j)
  · intro i closed
    rcases (found_iff i _).mp closed with ⟨_, made⟩ | ⟨_, before⟩
    · exact gone made.symm
    · exact agrees.closed i before

/-- A receive leaves the line. -/
theorem sound_leaveTurns (agrees : Agrees h) (turn : Nat) : Sound h (h.leaveTurns turn) where
  agrees :=
    { waits := fun i member => agrees.waits i (List.mem_filter.mp member).1
      got_iff := agrees.got_iff
      got_once := agrees.got_once
      closed := agrees.closed }
  extends_ := ⟨fun _ _ found _ => found, fun _ s found => ⟨s, found, rfl, fun _ => rfl⟩⟩
  gone := id

/-- A receive that waits enters the line. -/
theorem sound_pushTurn {turn : Nat} (agrees : Agrees h)
    (waiting : h.recvs[turn]? = some .waiting) : Sound h { h with turns := h.turns ++ [turn] } where
  agrees :=
    { waits := by
        intro i member
        rcases List.mem_append.mp member with before | new
        · exact agrees.waits i before
        · rw [List.mem_singleton.mp new]
          exact waiting
      got_iff := agrees.got_iff
      got_once := agrees.got_once
      closed := agrees.closed }
  extends_ := ⟨fun _ _ found _ => found, fun _ s found => ⟨s, found, rfl, fun _ => rfl⟩⟩
  gone := id

/-- The slot, the line of sends, the receivers and the signals play no part. -/
theorem sound_of_same (agrees : Agrees h) (sends : h'.sends = h.sends) (recvs : h'.recvs = h.recvs)
    (turns : h'.turns = h.turns) (senderOpen : h'.senderOpen = h.senderOpen) : Sound h h' := by
  have states : ∀ ticket, h'.sendState? ticket = h.sendState? ticket := by
    intro ticket
    simp only [sendState?, sends]
  have gone : h'.senderGone = h.senderGone := by
    simp only [senderGone, sending, sends, senderOpen]
  refine ⟨⟨?_, ?_, ?_, ?_⟩, ⟨?_, ?_⟩, ?_⟩
  · rw [turns, recvs]; exact agrees.waits
  · intro ticket; simp only [Got, recvs, states]; exact agrees.got_iff ticket
  · rw [recvs]; exact agrees.got_once
  · rw [recvs, gone]; exact agrees.closed
  · rw [recvs]; exact fun _ _ found _ => found
  · rw [sends]; exact fun _ s found => ⟨s, found, rfl, fun _ => rfl⟩
  · rw [gone]; exact id

theorem sound_dropIfGone (agrees : Agrees h) : Sound h h.dropIfGone := by
  rcases dropIfGone_cases h with same | emptied | ⟨ticket, posted, lost⟩
  · rw [same]
    exact .refl agrees
  · rw [emptied]
    exact sound_of_same agrees rfl rfl rfl rfl
  · rw [lost]
    have first : Sound h { h with slot := none } := sound_of_same agrees rfl rfl rfl rfl
    exact first.trans fun agrees => sound_setSend _ agrees posted rfl rfl

/-! ## Sends -/

/-- A job that is not in the list of sends was not got. -/
theorem Agrees.lt_length_of_got (agrees : Agrees h) {turn ticket : Nat}
    (got : h.recvs[turn]? = some (.got ticket)) : ticket < h.sends.length := by
  obtain ⟨state, at_ticket, _⟩ := (agrees.got_iff ticket).mp ⟨turn, got⟩
  exact lt_length_of_sendState? at_ticket

/-- One more send, which is not accepted yet and has ended if no send can start. -/
theorem sound_concat {s : Send α} (agrees : Agrees h) (unaccepted : s.state.isAccepted = false)
    (ended : h.senderOpen = false → s.state.isEnded = true) (sends : h'.sends = h.sends ++ [s])
    (recvs : h'.recvs = h.recvs) (turns : h'.turns = h.turns)
    (senderOpen : h'.senderOpen = h.senderOpen) : Sound h h' := by
  have gone : h.senderGone = true → h'.senderGone = true := by
    intro gone
    obtain ⟨isClosed, all⟩ := senderGone_iff.mp gone
    refine senderGone_iff.mpr ⟨senderOpen.trans isClosed, fun ticket state at_ticket => ?_⟩
    rcases (sendState?_eq_some_iff_of_concat sends).mp at_ticket with before | ⟨_, rfl⟩
    · exact all ticket state before
    · exact ended isClosed
  refine ⟨⟨?_, ?_, ?_, ?_⟩, ⟨?_, ?_⟩, gone⟩
  · rw [turns, recvs]
    exact agrees.waits
  · intro ticket
    rw [Got, recvs, ← Got, agrees.got_iff ticket]
    constructor
    · rintro ⟨state, before, accepted⟩
      exact ⟨state, (sendState?_eq_some_iff_of_concat sends).mpr (Or.inl before), accepted⟩
    · rintro ⟨state, at_ticket, accepted⟩
      rcases (sendState?_eq_some_iff_of_concat sends).mp at_ticket with before | ⟨_, rfl⟩
      · exact ⟨state, before, accepted⟩
      · rw [unaccepted] at accepted
        cases accepted
  · rw [recvs]
    exact agrees.got_once
  · intro turn closed
    rw [recvs] at closed
    exact gone (agrees.closed turn closed)
  · rw [recvs]
    exact fun _ _ found _ => found
  · intro ticket s found
    rw [sends]
    exact ⟨s, getElem?_concat_eq_some_iff.mpr (Or.inl found), rfl, fun _ => rfl⟩

theorem sound_offer (agrees : Agrees h) (job : α) (signal : Nat) :
    Sound h (h.offer job signal) := by
  unfold offer
  split
  next isOpen =>
    have notClosed : h.senderOpen = false → (SendState.waiting).isEnded = true := by
      intro isClosed
      rw [isOpen] at isClosed
      cases isClosed
    exact sound_concat (s := ⟨job, signal, .waiting⟩) agrees rfl notClosed rfl rfl rfl rfl
  next =>
    exact sound_concat (s := ⟨job, signal, .ended (.refused .closed)⟩) agrees rfl (fun _ => rfl)
      rfl rfl rfl rfl

theorem sound_refuse {ticket : Nat} (agrees : Agrees h)
    (waiting : h.sendState? ticket = some .waiting) (e : SubmitError) :
    Sound h (h.refuse ticket e) := by
  have left : Sound h (h.leaveLine ticket) := sound_of_same agrees rfl rfl rfl rfl
  exact left.trans fun agrees => sound_setSend _ agrees waiting rfl rfl

theorem sound_shutOut {ticket : Nat} (agrees : Agrees h) (step : h.shutOut ticket = some h') :
    Sound h h' := by
  simp only [shutOut, Bool.and_eq_true, decide_eq_true_eq, Option.ite_none_right_eq_some,
    Option.some.injEq] at step
  obtain ⟨⟨waiting, _⟩, rfl⟩ := step
  exact sound_refuse agrees waiting .closed

theorem sound_post {ticket : Nat} (agrees : Agrees h) (step : h.post ticket = some h') :
    Sound h h' := by
  simp only [post, Bool.and_eq_true, decide_eq_true_eq, Option.ite_none_right_eq_some,
    Option.some.injEq] at step
  obtain ⟨⟨⟨⟨waiting, _⟩, _⟩, _⟩, rfl⟩ := step
  have left : Sound h (h.leaveLine ticket) := sound_of_same agrees rfl rfl rfl rfl
  have posted := left.trans fun agrees =>
    sound_setSend .posted agrees (show _ = _ from waiting) rfl rfl
  exact posted.trans fun agrees => sound_of_same agrees rfl rfl rfl rfl

theorem sound_sight {ticket : Nat} (agrees : Agrees h) (step : h.sight ticket = some h') :
    Sound h h' := by
  simp only [sight, Bool.and_eq_true, decide_eq_true_eq, Option.ite_none_right_eq_some,
    Option.some.injEq] at step
  obtain ⟨⟨posted, _⟩, rfl⟩ := step
  exact sound_setSend _ agrees posted rfl rfl

theorem sound_withdraw {ticket : Nat} (agrees : Agrees h) (step : h.withdraw ticket = some h') :
    Sound h h' := by
  simp only [withdraw, Option.ite_none_right_eq_some, Option.some.injEq] at step
  obtain ⟨leaving, rfl⟩ := step
  exact sound_setSend _ agrees leaving rfl rfl

theorem sound_pollSend {ticket : Nat} (agrees : Agrees h) (step : h.pollSend ticket = some h') :
    Sound h h' := by
  unfold pollSend at step
  split at step
  next waiting =>
    split at step
    next =>
      cases step
      exact sound_refuse agrees waiting .cancelled
    next =>
      rcases Option.or_eq_some_iff.mp step with out | ⟨_, posted⟩
      · exact sound_shutOut agrees out
      · exact sound_post agrees posted
  next =>
    obtain ⟨seen, sighted, withdrawn⟩ := Option.bind_eq_some_iff.mp step
    exact (sound_sight agrees sighted).trans fun agrees => sound_withdraw agrees withdrawn
  next => exact sound_withdraw agrees step
  next taken =>
    cases step
    exact sound_setSend _ agrees taken rfl rfl
  next lost =>
    cases step
    exact sound_setSend _ agrees lost rfl rfl
  next => cases step
  next => cases step

theorem sound_startSend (agrees : Agrees h) (job : α) (signal : Nat) :
    Sound h (h.startSend job signal) := by
  refine (sound_offer agrees job signal).trans fun agrees => ?_
  simp only [startSend]
  cases step : (h.offer job signal).pollSend h.nextTicket with
  | none => exact .refl agrees
  | some h' => exact sound_pollSend agrees step

/-! ## Receives -/

theorem sound_ask (agrees : Agrees h) : Sound h h.ask := by
  have old : ∀ (turn : Nat) (state : RecvState), h.recvs[turn]? = some state →
      h.ask.recvs[turn]? = some state :=
    fun turn state found => getElem?_concat_eq_some_iff.mpr (Or.inl found)
  have back : ∀ (turn : Nat) (state : RecvState), h.ask.recvs[turn]? = some state →
      state ≠ .waiting → h.recvs[turn]? = some state := by
    intro turn state found other
    rcases getElem?_concat_eq_some_iff.mp found with before | ⟨_, new⟩
    · exact before
    · exact absurd new other
  refine ⟨⟨?_, ?_, ?_, ?_⟩, ⟨fun turn state found _ => old turn state found, ?_⟩, id⟩
  · intro turn member
    rcases List.mem_append.mp member with before | new
    · exact old turn _ (agrees.waits turn before)
    · rw [List.mem_singleton.mp new]
      exact getElem?_concat_eq_some_iff.mpr (Or.inr ⟨rfl, rfl⟩)
  · intro ticket
    have same : h.ask.Got ticket ↔ h.Got ticket :=
      exists_congr fun turn => ⟨fun got => back turn _ got nofun, old turn _⟩
    rw [same]
    exact agrees.got_iff ticket
  · intro ticket i j got_i got_j
    exact agrees.got_once ticket i j (back i _ got_i nofun) (back j _ got_j nofun)
  · intro turn closed
    exact agrees.closed turn (back turn _ closed nofun)
  · exact fun _ s found => ⟨s, found, rfl, fun _ => rfl⟩

theorem sound_take {turn : Nat} (agrees : Agrees h) (step : h.take turn = some h') :
    Sound h h' := by
  simp only [take, Option.ite_none_right_eq_some, Option.map_eq_some_iff] at step
  obtain ⟨first, ticket, _, rfl⟩ := step
  have waiting := agrees.waits turn (List.mem_of_mem_head? first)
  have left := sound_leaveTurns agrees turn
  have held := left.trans fun agrees =>
    sound_setRecv (.holding ticket) agrees waiting rfl (not_mem_turns_leaveTurns h turn)
      nofun nofun
  exact held.trans fun agrees => sound_of_same agrees rfl rfl rfl rfl

/-- Who holds a delivery is not in line. -/
theorem Agrees.not_mem_turns (agrees : Agrees h) {turn ticket : Nat}
    (holding : h.recvs[turn]? = some (.holding ticket)) : turn ∉ h.turns := by
  intro member
  rw [agrees.waits turn member] at holding
  cases holding

/-- With a job given to a receive, that one has it besides those that had one before. -/
theorem recvs_setRecv_got_iff {turn : Nat} {old : RecvState}
    (at_turn : h.recvs[turn]? = some old) (running : old.isEnded = false)
    (ticket i other : Nat) :
    (h.setRecv turn (.got ticket)).recvs[i]? = some (.got other) ↔
      i = turn ∧ other = ticket ∨ h.recvs[i]? = some (.got other) := by
  rw [recvs_setRecv_eq_some_iff at_turn]
  constructor
  · rintro (⟨at_i, made⟩ | ⟨_, before⟩)
    · cases made
      exact Or.inl ⟨at_i, rfl⟩
    · exact Or.inr before
  · rintro (⟨at_i, rfl⟩ | before)
    · exact Or.inl ⟨at_i, rfl⟩
    · exact Or.inr ⟨ne_of_running at_turn running before rfl, before⟩

/-- Accepting a delivery marks both sides at once. -/
theorem sound_hand {turn ticket : Nat} {old : SendState} (agrees : Agrees h)
    (holding : h.recvs[turn]? = some (.holding ticket))
    (at_ticket : h.sendState? ticket = some old) (running : old.isEnded = false)
    (unaccepted : old.isAccepted = false) :
    Sound h ((h.setSend ticket .taken).setRecv turn (.got ticket)) := by
  have fresh : ¬ h.Got ticket := by
    intro got
    obtain ⟨state, found, accepted⟩ := (agrees.got_iff ticket).mp got
    rw [Option.some.inj (found.symm.trans at_ticket), unaccepted] at accepted
    cases accepted
  have notGone := not_senderGone_of_running at_ticket running
  have got_iff := recvs_setRecv_got_iff (h := h.setSend ticket .taken) holding rfl ticket
  have sent := extends_setSend .taken at_ticket running
  have received := extends_setRecv (h := h.setSend ticket .taken) (.got ticket) holding rfl
  refine ⟨⟨agrees.waits_setRecv (.got ticket) holding (agrees.not_mem_turns holding), ?_, ?_, ?_⟩,
    sent.trans received, fun gone => absurd gone notGone⟩
  · intro other
    rw [sendState?_setRecv, sendState?_setSend]
    by_cases equal : ticket = other
    · subst equal
      rw [if_pos rfl, at_ticket]
      have got := (got_iff turn ticket).mpr (Or.inl ⟨rfl, rfl⟩)
      exact ⟨fun _ => ⟨.taken, rfl, rfl⟩, fun _ => ⟨turn, got⟩⟩
    · rw [if_neg equal, ← agrees.got_iff other]
      refine exists_congr fun i => (got_iff i other).trans (or_iff_right ?_)
      exact fun new => equal new.2.symm
  · intro other i j got_i got_j
    rcases (got_iff i other).mp got_i with ⟨at_i, same⟩ | before_i <;>
      rcases (got_iff j other).mp got_j with ⟨at_j, same'⟩ | before_j
    · rw [at_i, at_j]
    · exact absurd ⟨j, same ▸ before_j⟩ fresh
    · exact absurd ⟨i, same' ▸ before_i⟩ fresh
    · exact agrees.got_once other i j before_i before_j
  · intro i closed
    rcases (recvs_setRecv_eq_some_iff holding _ i _).mp closed with ⟨_, made⟩ | ⟨_, before⟩
    · cases made
    · exact absurd (agrees.closed i before) notGone

theorem sound_accept {turn : Nat} (agrees : Agrees h) (step : h.accept turn = some h') :
    Sound h h' := by
  unfold accept at step
  split at step
  next ticket holding =>
    split at step
    next still =>
      cases step
      simp only [awaits, Bool.or_eq_true, beq_iff_eq] at still
      have handed : Sound h ((h.setSend ticket .taken).setRecv turn (.got ticket)) := by
        rcases still with posted | leaving
        · exact sound_hand agrees holding posted rfl rfl
        · exact sound_hand agrees holding leaving rfl rfl
      exact handed.trans sound_dropIfGone
    next =>
      cases step
      have absent := agrees.not_mem_turns holding
      have back := sound_setRecv .waiting agrees holding rfl absent nofun nofun
      refine back.trans fun agrees => sound_pushTurn agrees ?_
      exact List.getElem?_set_self (List.getElem?_eq_some_iff.mp holding).1
  next => cases step

theorem sound_conclude {turn : Nat} (agrees : Agrees h) (step : h.conclude turn = some h') :
    Sound h h' := by
  simp only [conclude, Bool.and_eq_true, decide_eq_true_eq, Option.ite_none_right_eq_some,
    Option.some.injEq] at step
  obtain ⟨⟨⟨first, _⟩, gone⟩, rfl⟩ := step
  have waiting := agrees.waits turn (List.mem_of_mem_head? first)
  have left := sound_leaveTurns agrees turn
  have closed := left.trans fun agrees =>
    sound_setRecv .closed agrees waiting rfl (not_mem_turns_leaveTurns h turn) nofun
      fun _ => gone
  exact closed.trans sound_dropIfGone

theorem sound_pollRecv {turn : Nat} (agrees : Agrees h) (step : h.pollRecv turn = some h') :
    Sound h h' := by
  unfold pollRecv at step
  split at step
  next =>
    rcases Option.or_eq_some_iff.mp step with taken | ⟨_, concluded⟩
    · obtain ⟨held, took, accepted⟩ := Option.bind_eq_some_iff.mp taken
      exact (sound_take agrees took).trans fun agrees => sound_accept agrees accepted
    · exact sound_conclude agrees concluded
  next => exact sound_accept agrees step
  next => cases step

theorem sound_startRecv (agrees : Agrees h) : Sound h h.startRecv := by
  refine (sound_ask agrees).trans fun agrees => ?_
  unfold startRecv
  cases step : h.ask.pollRecv h.nextTurn with
  | none => exact .refl agrees
  | some h' => exact sound_pollRecv agrees step

theorem sound_abandon {turn : Nat} (agrees : Agrees h) (step : h.abandon turn = some h') :
    Sound h h' := by
  simp only [abandon, Option.ite_none_right_eq_some, Option.some.injEq] at step
  obtain ⟨waiting, rfl⟩ := step
  have left := sound_leaveTurns agrees turn
  have abandoned := left.trans fun agrees =>
    sound_setRecv .abandoned agrees waiting rfl (not_mem_turns_leaveTurns h turn) nofun
      nofun
  exact abandoned.trans sound_dropIfGone

/-! ## The two sides -/

theorem sound_dropSender (agrees : Agrees h) : Sound h h.dropSender where
  agrees :=
    { waits := agrees.waits
      got_iff := agrees.got_iff
      got_once := agrees.got_once
      closed := fun turn closed =>
        senderGone_iff.mpr ⟨rfl, (senderGone_iff.mp (agrees.closed turn closed)).2⟩ }
  extends_ := ⟨fun _ _ found _ => found, fun _ s found => ⟨s, found, rfl, fun _ => rfl⟩⟩
  gone := fun gone => senderGone_iff.mpr ⟨rfl, (senderGone_iff.mp gone).2⟩

theorem sound_dropReceiver (agrees : Agrees h) : Sound h h.dropReceiver := by
  have less : Sound h { h with receivers := h.receivers - 1 } :=
    sound_of_same agrees rfl rfl rfl rfl
  exact less.trans sound_dropIfGone

/-! ## Steps and runs -/

theorem sound_step {l : Label α} (agrees : Agrees h) (step : h.step l = some h') :
    Sound h h' := by
  cases l with
  | send job signal =>
    obtain ⟨_, step⟩ := Option.ite_none_right_eq_some.mp step
    cases step
    exact sound_startSend agrees job signal
  | pollSend ticket => exact sound_pollSend agrees step
  | recv =>
    obtain ⟨_, step⟩ := Option.ite_none_left_eq_some.mp step
    cases step
    exact sound_startRecv agrees
  | pollRecv turn => exact sound_pollRecv agrees step
  | abandon turn => exact sound_abandon agrees step
  | cancel signal =>
    cases step
    exact sound_of_same agrees rfl rfl rfl rfl
  | dropSender =>
    cases step
    exact sound_dropSender agrees
  | dropReceiver =>
    cases step
    exact sound_dropReceiver agrees

theorem sound_stepPiece {l : Piece α} (agrees : Agrees h) (step : h.stepPiece l = some h') :
    Sound h h' := by
  cases l with
  | whole l => exact sound_step agrees step
  | offer job signal =>
    obtain ⟨_, step⟩ := Option.ite_none_right_eq_some.mp step
    cases step
    exact sound_offer agrees job signal
  | shutOut ticket => exact sound_shutOut agrees step
  | post ticket => exact sound_post agrees step
  | sight ticket => exact sound_sight agrees step
  | ask =>
    obtain ⟨_, step⟩ := Option.ite_none_left_eq_some.mp step
    cases step
    exact sound_ask agrees
  | take turn => exact sound_take agrees step

theorem sound_pieces {ls : List (Piece α)} (agrees : Agrees h) (run : h.pieces ls = some h') :
    Sound h h' := by
  induction ls generalizing h with
  | nil =>
    cases run
    exact .refl agrees
  | cons l ls ih =>
    obtain ⟨next, step, rest⟩ := Option.bind_eq_some_iff.mp run
    exact (sound_stepPiece agrees step).trans fun agrees => ih agrees rest

theorem agrees_new (receivers : Nat) : Agrees (new receivers : Handoff α) where
  waits := nofun
  got_iff := by simp [Got, new, sendState?]
  got_once := nofun
  closed := nofun

/-! ## Agreement -/

/-- In every run, however polls overlap and whichever signals are given:

* what has ended stays as it ended,
* a job that was got is one that was sent, and it was got once,
* a send that has ended was accepted exactly when its job was got,
* a job whose send was refused is got neither before nor later,
* a receive has ended without a job only if no send can start and every job that
  was sent was either got or refused. -/
theorem sides_agree {receivers : Nat} {ls : List (Piece α)}
    (run : (new receivers).pieces ls = some h) :
    (∀ ms h', h.pieces ms = some h' → Extends h h') ∧
    (∀ ticket i j : Nat, h.recvs[i]? = some (.got ticket) →
      ticket < h.sends.length ∧ (h.recvs[j]? = some (.got ticket) → i = j)) ∧
    (∀ ticket how, h.sendEnd? ticket = some how → (how = .accepted ↔ h.Got ticket)) ∧
    (∀ ticket e, h.sendEnd? ticket = some (.refused e) →
      ∀ ms h', h.pieces ms = some h' → ¬ h'.Got ticket) ∧
    (∀ turn : Nat, h.recvs[turn]? = some .closed → h.senderOpen = false ∧
      ∀ ticket < h.sends.length,
        h.Got ticket ∨ ∃ e, h.sendEnd? ticket = some (.refused e)) := by
  have agrees := (sound_pieces (agrees_new receivers) run).agrees
  refine ⟨?_, ?_, ?_, ?_, ?_⟩
  · intro ms h' rest
    exact (sound_pieces agrees rest).extends_
  · intro ticket i j got
    exact ⟨agrees.lt_length_of_got got, agrees.got_once ticket i j got⟩
  · intro ticket how ended
    exact agrees.accepted_iff ended
  · intro ticket e refused ms h' rest got
    have later := sound_pieces agrees rest
    have accepted := (later.agrees.accepted_iff (later.extends_.sendEnd? refused)).mpr got
    cases accepted
  · intro turn closed
    obtain ⟨isClosed, ended⟩ := senderGone_iff.mp (agrees.closed turn closed)
    exact ⟨isClosed, fun ticket inside => agrees.got_or_refused inside (ended ticket)⟩

/-- A receiver holds a delivery while the signal of its send is given and seen, and
accepts it.  The send then ends as accepted.  A later send with the same signal is
refused, and after the sender is gone a receive ends without a job. -/
def overlap : List (Piece String) :=
  [.offer "first" 0, .post 0, .ask, .take 0, .whole (.cancel 0), .sight 0, .whole (.pollRecv 0),
    .whole (.pollSend 0), .whole (.send "second" 0), .whole .dropSender, .whole .recv]

theorem sides_agree_overlap :
    ∃ h, (new 1).pieces overlap = some h ∧
      h.sendEnd? 0 = some .accepted ∧ h.Got 0 ∧
      h.sendEnd? 1 = some (.refused .cancelled) ∧ ¬ h.Got 1 ∧
      h.recvs[1]? = some .closed ∧ h.senderOpen = false := by
  obtain ⟨_, _, accepted, refused, closed⟩ := @sides_agree String _ 1 overlap rfl
  exact ⟨_, rfl, rfl, (accepted 0 .accepted rfl).mp rfl, rfl, refused 1 .cancelled rfl [] _ rfl,
    rfl, (closed 1 rfl).1⟩

end CommandPool.Handoff
