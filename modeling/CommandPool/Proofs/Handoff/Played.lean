import CommandPool.Handoff.Timeline
import CommandPool.Proofs.Handoff.InOrder

/-!
# Runs on the clock are runs of the handoff

All that the clock does to a handoff is a sequence of its steps (`moves_advance`).  Polls are
whole there, and all sends watch one signal.  So what holds however polls overlap holds on the
clock, and so does the order that depends on whole polls: the jobs that are told of were handed
over, and nobody who asked earlier was waiting still (`received_in_run`).
-/

namespace CommandPool.Handoff.Timeline

variable {α : Type} {h h' h'' : Handoff α} {s : State α} {e : Happening α}

/-- The handoff goes on by whole steps, and sends watch the signal of the clock. -/
def Moves (h h' : Handoff α) : Prop :=
  ∃ ls : List (Label α), h.pieces (ls.map .whole) = some h' ∧
    ∀ l ∈ ls, (Piece.whole l).Watches signal

theorem Moves.refl (h : Handoff α) : Moves h h := ⟨[], rfl, nofun⟩

theorem Moves.head {l : Label α} (step : h.step l = some h')
    (watches : (Piece.whole l).Watches signal) (rest : Moves h' h'') : Moves h h'' := by
  obtain ⟨ls, run, all⟩ := rest
  exact ⟨l :: ls, Option.bind_eq_some_iff.mpr ⟨h', step, run⟩,
    List.forall_mem_cons.mpr ⟨watches, all⟩⟩

theorem Moves.single {l : Label α} (step : h.step l = some h')
    (watches : (Piece.whole l).Watches signal) : Moves h h' :=
  .head step watches (.refl h')

theorem Moves.trans (first : Moves h h') (rest : Moves h' h'') : Moves h h'' := by
  obtain ⟨ls, run, all⟩ := first
  induction ls generalizing h with
  | nil =>
    cases run
    exact rest
  | cons l ls ih =>
    obtain ⟨next, step, run⟩ := Option.bind_eq_some_iff.mp run
    obtain ⟨watches, all⟩ := List.forall_mem_cons.mp all
    exact .head step watches (ih run all)

/-- On the clock nobody is passed over. -/
theorem Moves.fair (moves : Moves h h') (fair : Fair signal h) : Fair signal h' := by
  obtain ⟨ls, run, all⟩ := moves
  refine fair_pieces fair ?_ ?_ ?_ run
  · intro l member
    obtain ⟨m, inside, rfl⟩ := List.mem_map.mp member
    exact all m inside
  · simp
  · simp

theorem extends_of_moves (moves : Moves h h') (agrees : Agrees h) : Extends h h' := by
  obtain ⟨ls, run, -⟩ := moves
  induction ls generalizing h with
  | nil =>
    cases run
    exact .refl _
  | cons l ls ih =>
    obtain ⟨next, step, run⟩ := Option.bind_eq_some_iff.mp run
    have sound := sound_stepPiece agrees step
    exact sound.extends_.trans (ih sound.agrees run)

/-! ## What the clock does -/

theorem moves_start (h : Handoff α) (now : Nat) (action : Action α) :
    Moves h (start h now action).1 := by
  cases action with
  | send job =>
    rw [start]
    split
    next isOpen => exact .single (l := .send job signal) (if_pos isOpen) rfl
    next => exact .refl h
  | recv limit =>
    rw [start]
    split
    next => exact .refl h
    next some_receiver => exact .single (l := .recv) (if_neg some_receiver) trivial
  | cancel => exact .single (l := .cancel signal) rfl trivial
  | dropSender => exact .single (l := .dropSender) rfl trivial
  | dropReceiver =>
    rw [start]
    split
    next => exact .refl h
    next => exact .single (l := .dropReceiver) rfl trivial

theorem moves_startDue (now : Nat) (es : List (Happening α)) (h : Handoff α) :
    Moves h (startDue now h es).1 := by
  induction es generalizing h with
  | nil => exact .refl h
  | cons e es ih =>
    rw [startDue]
    split
    next =>
      split
      next => exact (moves_start h now e.action).trans (ih _)
      next => exact ih h
    next => exact ih h

theorem moves_pollOnce (poll : pollOnce h = some h') : Moves h h' := by
  rcases Option.or_eq_some_iff.mp poll with sent | ⟨_, received⟩
  · obtain ⟨ticket, _, step⟩ := List.exists_of_findSome?_eq_some sent
    exact .single (l := .pollSend ticket) step trivial
  · obtain ⟨turn, _, step⟩ := List.exists_of_findSome?_eq_some received
    exact .single (l := .pollRecv turn) step trivial

theorem moves_settle (budget : Nat) (h : Handoff α) : Moves h (settle budget h) := by
  induction budget generalizing h with
  | zero => exact .refl h
  | succ budget ih =>
    rw [settle]
    split
    next next poll => exact (moves_pollOnce poll).trans (ih next)
    next => exact .refl h

theorem moves_expire (now : Nat) (h : Handoff α) (e : Happening α) :
    Moves h (expire now h e) := by
  unfold expire
  split
  next turn limit _ =>
    split
    next =>
      cases step : h.abandon turn with
      | none => exact .refl h
      | some h' => exact .single (l := .abandon turn) step trivial
    next => exact .refl h
  next => exact .refl h

theorem moves_expire_all (now : Nat) (es : List (Happening α)) (h : Handoff α) :
    Moves h (es.foldl (expire now) h) := by
  induction es generalizing h with
  | nil => exact .refl h
  | cons e es ih => exact (moves_expire now h e).trans (ih _)

theorem moves_instant (now : Nat) (s : State α) : Moves s.handoff (instant now s).handoff :=
  (moves_startDue now s.happenings s.handoff).trans <| (moves_settle _ _).trans <|
    (moves_expire_all now _ _).trans (moves_settle _ _)

theorem moves_advance (stop budget : Nat) (s : State α) :
    Moves s.handoff (advance stop budget s).handoff := by
  induction budget generalizing s with
  | zero => exact .refl _
  | succ budget ih =>
    rw [advance]
    split
    next t _ =>
      split
      next => exact (moves_instant t s).trans (ih _)
      next => exact .refl _
    next => exact .refl _

/-! ## What the clock tells -/

/-- A receive has got this job. -/
def Received (h : Handoff α) (job : α) : Prop :=
  ∃ turn ticket : Nat, h.recvs[turn]? = some (.got ticket) ∧ h.jobs[ticket]? = some job

/-- If the happening is told to have received a job, a receive has got it. -/
def IsTrue (h : Handoff α) (e : Happening α) : Prop :=
  ∀ time job, e.status = .finished time (.received job) → Received h job

theorem Received.of_extends {job : α} (received : Received h job) (extends_ : Extends h h') :
    Received h' job := by
  obtain ⟨turn, ticket, got, job_at⟩ := received
  rw [jobs, List.getElem?_map] at job_at
  obtain ⟨send, found, rfl⟩ := Option.map_eq_some_iff.mp job_at
  obtain ⟨send', found', same, _⟩ := extends_.send ticket send found
  refine ⟨turn, ticket, extends_.recv turn _ got rfl, ?_⟩
  rw [jobs, List.getElem?_map, found', Option.map_some, same]

theorem IsTrue.of_extends (true_ : IsTrue h e) (extends_ : Extends h h') : IsTrue h' e :=
  fun time job status => (true_ time job status).of_extends extends_

/-- Nothing is received before the first poll. -/
theorem isTrue_start (h h' : Handoff α) (now : Nat) (e : Happening α) :
    IsTrue h' { e with status := (start h now e.action).2 } := by
  intro time job status
  cases action : e.action <;> simp only [start, action] at status
  case send => split at status <;> cases status
  case recv => split at status <;> cases status
  all_goals cases status

/-- Happenings that start tell nothing, and the others what they told. -/
theorem isTrue_startDue (now : Nat) (es : List (Happening α)) (h : Handoff α) {last : Handoff α}
    (all : ∀ e ∈ es, IsTrue last e) : ∀ e ∈ (startDue now h es).2, IsTrue last e := by
  induction es generalizing h with
  | nil => exact nofun
  | cons e es ih =>
    obtain ⟨first, rest⟩ := List.forall_mem_cons.mp all
    rw [startDue]
    split
    next =>
      split
      next => exact List.forall_mem_cons.mpr ⟨isTrue_start h last now e, ih _ rest⟩
      next => exact List.forall_mem_cons.mpr ⟨first, ih h rest⟩
    next => exact List.forall_mem_cons.mpr ⟨first, ih h rest⟩

/-- What is noted is what has ended. -/
theorem isTrue_note (now : Nat) (true_ : IsTrue h e) : IsTrue h (note h now e) := by
  unfold note
  split
  next w _ =>
    split
    next r result =>
      intro time job status
      cases status
      cases w with
      | send ticket =>
        obtain ⟨how, _, same⟩ := Option.map_eq_some_iff.mp result
        cases same
      | recv turn limit =>
        simp only [result?] at result
        split at result
        next ticket got =>
          obtain ⟨send, found, same⟩ := Option.map_eq_some_iff.mp result
          cases same
          refine ⟨turn, ticket, got, ?_⟩
          rw [jobs, List.getElem?_map, found, Option.map_some]
        all_goals cases result
    next => exact true_
  next => exact true_

/-- The state of a run on the clock: nobody is passed over, and what is told is true. -/
structure Told (s : State α) : Prop where
  fair : Fair signal s.handoff
  all : ∀ e ∈ s.happenings, IsTrue s.handoff e

theorem Told.quiesce (told : Told s) (now : Nat) : Told (quiesce now s) := by
  have moves := moves_settle (pollBudget s.handoff) s.handoff
  have extends_ := extends_of_moves moves told.fair.agrees
  refine ⟨moves.fair told.fair, fun e member => ?_⟩
  obtain ⟨before, inside, rfl⟩ := List.mem_map.mp member
  exact isTrue_note now ((told.all before inside).of_extends extends_)

theorem Told.moves (told : Told s) (moves : Moves s.handoff h) : Told { s with handoff := h } where
  fair := moves.fair told.fair
  all e member := (told.all e member).of_extends (extends_of_moves moves told.fair.agrees)

theorem Told.instant (told : Told s) (now : Nat) : Told (instant now s) := by
  have begun := told.moves (moves_startDue now s.happenings s.handoff)
  have started : Told ⟨(startDue now s.handoff s.happenings).1,
      (startDue now s.handoff s.happenings).2⟩ :=
    ⟨begun.fair, isTrue_startDue now _ _ begun.all⟩
  have polled := started.quiesce now
  exact (polled.moves (moves_expire_all now _ _)).quiesce now

theorem Told.advance (told : Told s) (stop budget : Nat) : Told (advance stop budget s) := by
  induction budget generalizing s with
  | zero => exact told
  | succ budget ih =>
    rw [Timeline.advance]
    split
    next t _ =>
      split
      next => exact ih (told.instant t)
      next => exact told
    next => exact told

/-- Before anything starts nothing is told. -/
theorem told_unstarted {es : List (Happening α)} (all : ∀ e ∈ es, e.status = .unstarted) :
    Told ⟨new 1, es⟩ := by
  refine ⟨fair_new 1 signal, fun e member time job status => ?_⟩
  rw [all e member] at status
  cases status

/-- The jobs that are told to be received in a run on the clock were handed over in a run of the
handoff, and no receive that was started earlier than one with a job was waiting still. -/
theorem received_in_run (happenings : List (Nat × Action α)) :
    ∃ (ls : List (Label α)) (h : Handoff α), (new 1).pieces (ls.map .whole) = some h ∧
      (∀ l ∈ ls, (Piece.whole l).Watches signal) ∧
      (∀ time job, some (time, .received job) ∈ run happenings → Received h job) ∧
      ∀ turn ticket, h.recvs[turn]? = some (.got ticket) → ∀ i < turn, HasEnded h i := by
  let stop := (happenings.map (·.1)).max?.getD 0 + patience
  let budget := 2 * happenings.length + 1
  let begun : State α := ⟨new 1, happenings.map fun event => ⟨event.1, event.2, .unstarted⟩⟩
  have unstarted : Told begun := by
    refine told_unstarted fun e member => ?_
    obtain ⟨event, _, rfl⟩ := List.mem_map.mp member
    rfl
  obtain ⟨ls, pieces, watches⟩ := moves_advance stop budget begun
  have told := unstarted.advance stop budget
  refine ⟨ls, _, pieces, watches, fun time job member => ?_, told.fair.before⟩
  obtain ⟨e, member, outcome⟩ := List.mem_map.mp member
  refine told.all e member time job ?_
  unfold Happening.outcome? at outcome
  split at outcome
  next status =>
    cases outcome
    exact status
  next => cases outcome

end CommandPool.Handoff.Timeline
