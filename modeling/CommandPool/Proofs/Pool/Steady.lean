import CommandPool.Proofs.Handoff.Grounds
import CommandPool.Proofs.Pool.ExactlyOnce
import CommandPool.Proofs.Pool.Requests
import CommandPool.Proofs.Pool.Workers

/-!
# Runs that are not cancelled

A worker goes for one of four reasons: an action takes it down, the run is cancelled, a
wait of its job was cut short, or the sender is gone.  So in a run that is not cancelled
the workers stay until the sender is gone, unless their actions take them down.  As long
as one is left no send fails: every job that is submitted to an open pool is accepted.
-/

namespace CommandPool

/-! ## Receives that end without a job -/

namespace Handoff

variable {α : Type} {h h' : Handoff α}

theorem not_closed_of_accept {turn : Nat} (step : h.accept turn = some h') :
    h'.recvs[turn]? ≠ some .closed := by
  unfold accept at step
  split at step
  next ticket holding =>
    have inside : turn < h.recvs.length := (List.getElem?_eq_some_iff.mp holding).1
    split at step <;> cases step <;> intro closed
    next =>
      rw [recvs_dropIfGone, recvs_setRecv, recvs_setSend, List.getElem?_set_self inside] at closed
      cases closed
    next =>
      have waits : (h.setRecv turn .waiting).recvs[turn]? = some .waiting :=
        List.getElem?_set_self inside
      cases closed.symm.trans waits
  next => cases step

/-- A receive ends without a job only when the sender is gone. -/
theorem senderGone_of_pollRecv {turn : Nat} (step : h.pollRecv turn = some h')
    (closed : h'.recvs[turn]? = some .closed) : h.senderGone = true := by
  unfold pollRecv at step
  split at step
  next =>
    rcases Option.or_eq_some_iff.mp step with taken | ⟨_, concluded⟩
    · obtain ⟨held, took, accepted⟩ := Option.bind_eq_some_iff.mp taken
      exact absurd closed (not_closed_of_accept accepted)
    · simp only [conclude, Bool.and_eq_true, Option.ite_none_right_eq_some] at concluded
      exact concluded.1.2
  next => exact absurd closed (not_closed_of_accept step)
  next => cases step

/-- After the sender is gone every send has ended. -/
theorem exists_sendEnd? {ticket : Nat} (gone : h.senderGone = true)
    (inside : ticket < h.sends.length) : ∃ how, h.sendEnd? ticket = some how := by
  have at_ticket : h.sendState? ticket = some h.sends[ticket].state :=
    sendState?_eq_some_iff.mpr ⟨_, List.getElem?_eq_getElem inside, rfl⟩
  have ended := (senderGone_iff.mp gone).2 ticket _ at_ticket
  cases state : h.sends[ticket].state with
  | ended how => exact ⟨how, sendEnd?_eq_some_iff.mpr (state ▸ at_ticket)⟩
  | _ => rw [state] at ended; cases ended

theorem senderGone_of_startRecv (closed : h.startRecv.recvs[h.nextTurn]? = some .closed) :
    h.senderGone = true := by
  unfold startRecv at closed
  cases step : h.ask.pollRecv h.nextTurn with
  | none =>
    have waits : h.ask.recvs[h.nextTurn]? = some .waiting := List.getElem?_concat_length
    rw [step] at closed
    cases closed.symm.trans waits
  | some h' =>
    rw [step] at closed
    have gone : h.ask.senderGone = true := senderGone_of_pollRecv step closed
    exact gone

end Handoff

namespace Pool

variable {α : Type} {p p' : Pool α} {w : Nat}

/-! ## Why a worker goes -/

/-- A reason for a worker to be gone in this phase after a piece. -/
inductive Leaves (p : Pool α) (l : Piece α) (w : Nat) : Phase α → Prop where
  | crashed (traces : Traces) : l = .whole (.crash w traces) → Leaves p l w .panicked
  | cancelled : p.cancelled = true → Leaves p l w .stopped
  | cutShort (a : Stage α) (t : Task α) : p.stage? w = some a → a.task? = some t →
      t.interrupted = true → Leaves p l w .stopped
  | senderGone : p.queue.senderGone = true → Leaves p l w .stopped

/-- A worker that goes on after a node stops only if a wait was cut short. -/
theorem leaves_of_proceed {l : Piece α} {r : Pool α} {t : Task α} {outcome : Outcome}
    {phase : Phase α} (inside : w < r.workers.length)
    (now : (r.proceed w t outcome).phase? w = some phase) (gone : phase.isGone = true)
    (cutShort : t.interrupted = true → Leaves p l w .stopped) : Leaves p l w phase := by
  have here : ∀ new : Phase α, (r.workers.set w new)[w]? = some new :=
    fun new => List.getElem?_set_self inside
  unfold proceed at now
  split at now
  next =>
    cases (here _).symm.trans now
    cases gone
  next =>
    split at now
    next cut =>
      cases (here _).symm.trans now
      exact cutShort cut
    next =>
      cases (here _).symm.trans now
      cases gone

/-- The same for a node that fails, with its event noted. -/
theorem leaves_of_failNode {l : Piece α} {r : Pool α} {t : Task α} {error : JobError}
    {phase : Phase α} (inside : w < r.workers.length)
    (now : (r.failNode w t error).phase? w = some phase) (gone : phase.isGone = true)
    (cutShort : t.interrupted = true → Leaves p l w .stopped) : Leaves p l w phase :=
  leaves_of_proceed (r := r.emit _) inside now gone cutShort

theorem leaves_of_settleAsk {l : Piece α} {q : Handoff (Job α)} {turn : Nat} {old phase : Phase α}
    (at_w : p.phase? w = some old) (present : old.isGone = false)
    (now : ({ p with queue := q }.settleAsk w turn).phase? w = some phase)
    (gone : phase.isGone = true)
    (closed : q.recvs[turn]? = some .closed → p.queue.senderGone = true) :
    Leaves p l w phase := by
  have here : ∀ new : Phase α, (p.workers.set w new)[w]? = some new :=
    fun new => List.getElem?_set_self (List.getElem?_eq_some_iff.mp at_w).1
  unfold settleAsk at now
  split at now
  next =>
    split at now
    next =>
      cases (here _).symm.trans now
      cases gone
    next =>
      cases at_w.symm.trans now
      rw [present] at gone
      cases gone
  next ended =>
    cases (here _).symm.trans now
    exact .senderGone (closed ended)
  next =>
    cases (here _).symm.trans now
    cases gone

theorem leaves_look {phase : Phase α} (step : p.look w = some p')
    (now : p'.phase? w = some phase) (gone : phase.isGone = true) :
    Leaves p (.whole (.look w)) w phase := by
  obtain ⟨old, at_w, step⟩ := Option.bind_eq_some_iff.mp step
  have inside : w < p.workers.length := (List.getElem?_eq_some_iff.mp at_w).1
  have stops : ∀ {r : Pool α}, r.workers = p.workers.set w .stopped →
      r.phase? w = some phase → phase = .stopped := by
    intro r workers now
    rw [phase?, workers, List.getElem?_set_self inside] at now
    exact (Option.some.inj now).symm
  cases old with
  | idle =>
    simp only [lookFrom] at step
    split at step <;> cases step
    next cancelled =>
      rw [stops rfl now]
      exact .cancelled cancelled
    next => exact leaves_of_settleAsk at_w rfl now gone Handoff.senderGone_of_startRecv
  | asking turn =>
    simp only [lookFrom] at step
    split at step
    next cancelled =>
      cases step
      rw [stops rfl now]
      exact .cancelled ((Bool.and_eq_true _ _).mp cancelled).1
    next =>
      obtain ⟨q, polled, rfl⟩ := Option.map_eq_some_iff.mp step
      exact leaves_of_settleAsk at_w rfl now gone (Handoff.senderGone_of_pollRecv polled)
  | sleeping t error delay =>
    obtain ⟨cancelled, step⟩ := Option.ite_none_right_eq_some.mp step
    cases step
    exact leaves_of_failNode inside now gone fun _ => .cancelled cancelled
  | _ => cases step

/-- What an attempt leaves takes no worker away. -/
theorem inside_record {traces : Traces} {old : Phase α} (at_w : p.phase? w = some old) :
    w < (p.record traces).workers.length := by
  rw [(record_fields p traces).1]
  exact (List.getElem?_eq_some_iff.mp at_w).1

theorem leaves_finish {report : Report} {phase : Phase α} (step : p.finish w report = some p')
    (now : p'.phase? w = some phase) (gone : phase.isGone = true) :
    Leaves p (.whole (.finish w report)) w phase := by
  unfold finish at step
  split at step
  next t at_w =>
    have inside : w < (p.record report.traces).workers.length := inside_record at_w
    have cutShort : t.interrupted = true → Leaves p (.whole (.finish w report)) w .stopped :=
      .cutShort (.attempting t) t (stage?_of_phase? at_w) rfl
    have cancelled : (p.record report.traces).cancelled = true → p.cancelled = true := by
      rw [Pool.cancelled, (record_fields p report.traces).2.1]
      exact id
    split at step <;> cases step
    next => exact leaves_of_proceed (r := (p.record report.traces).emit _) inside now gone cutShort
    next error _ =>
      unfold afterError at now
      split at now
      next =>
        dsimp only at now
        split at now
        next isCancelled =>
          refine leaves_of_failNode (r := (p.record report.traces).emit _) inside now gone ?_
          exact fun _ => .cancelled (cancelled isCancelled)
        next =>
          cases (List.getElem?_set_self inside).symm.trans now
          cases gone
      next => exact leaves_of_failNode inside now gone cutShort
  next => cases step

theorem leaves_wake {phase : Phase α} (step : p.wake w = some p')
    (now : p'.phase? w = some phase) (gone : phase.isGone = true) :
    Leaves p (.whole (.wake w)) w phase := by
  unfold wake at step
  split at step
  next t error delay at_w =>
    have inside : w < p.workers.length := (List.getElem?_eq_some_iff.mp at_w).1
    split at step <;> cases step
    next cancelled => exact leaves_of_failNode inside now gone fun _ => .cancelled cancelled
    next =>
      cases (List.getElem?_set_self inside).symm.trans now
      cases gone
  next => cases step

theorem leaves_start {l : Piece α} {phase : Phase α} (step : p.start w = some p')
    (now : p'.phase? w = some phase) (gone : phase.isGone = true) : Leaves p l w phase := by
  unfold start at step
  split at step
  next at_w =>
    cases step
    cases (List.getElem?_set_self (List.getElem?_eq_some_iff.mp at_w).1).symm.trans now
    cases gone
  next => cases step

theorem leaves_crash {traces : Traces} {phase : Phase α} (step : p.crash w traces = some p')
    (now : p'.phase? w = some phase) : Leaves p (.whole (.crash w traces)) w phase := by
  unfold crash at step
  split at step
  next at_w =>
    cases step
    cases (List.getElem?_set_self (inside_record at_w)).symm.trans now
    exact .crashed traces rfl
  next => cases step

/-- A worker that is gone after a piece was gone before, or has a reason for it. -/
theorem leaves_stepPiece {l : Piece α} {phase : Phase α} (agrees : p.queue.Agrees)
    (step : p.stepPiece l = some p') (now : p'.phase? w = some phase)
    (gone : phase.isGone = true) : p.phase? w = some phase ∨ Leaves p l w phase := by
  by_cases named : l.worker? = some w
  · refine Or.inr ?_
    cases l with
    | whole l =>
      cases l <;> cases named <;> simp only [stepPiece, Pool.step] at step
      next => exact leaves_look step now gone
      next => exact leaves_start step now gone
      next => exact leaves_finish step now gone
      next => exact leaves_crash step now
      next => exact leaves_wake step now gone
    | ask w =>
      cases named
      simp only [stepPiece] at step
      split at step
      next at_w =>
        cases step
        cases (List.getElem?_set_self (List.getElem?_eq_some_iff.mp at_w).1).symm.trans now
        cases gone
      next => cases step
    | take w =>
      cases named
      simp only [stepPiece] at step
      split at step
      next turn at_w =>
        obtain ⟨q, _, rfl⟩ := Option.map_eq_some_iff.mp step
        cases at_w.symm.trans now
        cases gone
      next => cases step
    | _ => cases named
  · rw [phase?_of_unnamed agrees step named] at now
    exact Or.inl now

/-! ## Waits that are not cut short -/

theorem Task.interrupted_onward {t next : Task α} {outcome : Outcome}
    (found : (t.onward outcome).task? = some next) : next.interrupted = t.interrupted := by
  unfold Task.onward at found
  split at found
  next => cases found; rfl
  next => cases found

/-- While the run is not cancelled no move cuts a wait short. -/
theorem Move.uncut {s : Settings} {a b : Stage α} {new : List Event}
    (move : Move s w false a new b)
    (here : ∀ t, a.task? = some t → t.interrupted = false) (next : Task α)
    (found : b.task? = some next) : next.interrupted = false := by
  cases move with
  | attempt t =>
    cases found
    exact here next rfl
  | throttle t error =>
    cases found
    exact here t rfl
  | wait t error delay =>
    cases found
    exact here next rfl
  | panic t => cases found
  | succeed t => exact (Task.interrupted_onward found).trans (here t rfl)
  | fail t error => exact (Task.interrupted_onward found).trans (here t rfl)
  | cut t error _ cancelled => cases cancelled
  | interrupt t error delay cancelled => cases cancelled

/-- No wait of a job in progress was cut short. -/
def Uncut (p : Pool α) : Prop :=
  ∀ w a t, p.stage? w = some a → a.task? = some t → t.interrupted = false

theorem uncut_change (uncut : Uncut p) (running : p.cancelled = false) (change : Change p p') :
    Uncut p' := by
  intro i a t here task
  cases change with
  | aside stages =>
    rw [stages] at here
    exact uncut i a t here task
  | taken w ticket s without fresh found stages =>
    rw [stages] at here
    split at here
    next =>
      cases here
      cases task
      rfl
    next => exact uncut i a t here task
  | moved w b new c before move stages =>
    rw [stages] at here
    split at here
    next =>
      obtain ⟨rfl, _⟩ := Stage.shown_eq_some_iff.mp here
      rw [running] at move
      exact move.uncut (uncut w b · before) t task
    next => exact uncut i a t here task

/-! ## Sends that fail -/

theorem Acts.grounded {l : Piece α} {h h' : Handoff (Job α)} (acts : Acts h l h')
    (grounded : h.Grounded) : h'.Grounded := by
  cases acts with
  | nothing => exact grounded
  | submit job => exact Handoff.grounded_startSend grounded job signal
  | pollSubmit polled => exact Handoff.grounded_pollSend grounded polled
  | close => exact Handoff.grounded_dropSender grounded
  | cancel => exact Handoff.grounded_cancel grounded signal
  | offer job => exact Handoff.grounded_offer grounded job signal
  | shutOut part => exact Handoff.grounded_shutOut grounded part
  | post part => exact Handoff.grounded_post grounded part
  | sight part => exact Handoff.grounded_sight grounded part
  | ask w => exact Handoff.grounded_ask grounded
  | take part => exact Handoff.grounded_take grounded part
  | receive w => exact Handoff.grounded_startRecv grounded
  | pollReceive polled => exact Handoff.grounded_pollRecv grounded polled
  | abandon part => exact Handoff.grounded_abandon grounded part

theorem grounded_stepPiece {l : Piece α} (grounded : p.queue.Grounded)
    (step : p.stepPiece l = some p') : p'.queue.Grounded := by
  obtain ⟨q, acts, same | dropped⟩ := acts_stepPiece step
  · rw [same]
    exact acts.grounded grounded
  · rw [dropped]
    exact Handoff.grounded_dropReceiver (acts.grounded grounded)

/-! ## The sender goes -/

/-- A close does nothing but drop the sender, and then no send is under way. -/
theorem queue_of_closes {l : Piece α} (step : p.stepPiece l = some p') (closes : l.closes = true) :
    p'.queue = p.queue.dropSender ∧ p'.queue.senderGone = true := by
  cases l with
  | whole l =>
    cases l with
    | close =>
      obtain ⟨rfl, gone⟩ := close_eq_some step
      exact ⟨rfl, gone⟩
    | beginJoin =>
      obtain ⟨_, step⟩ := Option.ite_none_left_eq_some.mp step
      obtain ⟨closed, drops, rfl⟩ := Option.map_eq_some_iff.mp step
      obtain ⟨rfl, gone⟩ := close_eq_some drops
      exact ⟨rfl, gone⟩
    | _ => cases closes
  | _ => cases closes

/-! ## The invariant -/

/-- Some worker was not taken down. -/
def IsSpared (p : Pool α) : Prop := ∃ w phase, p.phase? w = some phase ∧ phase ≠ .panicked

/-- The worker was taken down. -/
def Phase.isPanicked : Phase α → Bool
  | .panicked => true
  | _ => false

theorem isSpared_iff : IsSpared p ↔ p.workers.any (!·.isPanicked) = true := by
  have unharmed : ∀ phase : Phase α, (!phase.isPanicked) = true ↔ phase ≠ .panicked := by
    intro phase
    cases phase <;> simp [Phase.isPanicked]
  simp only [IsSpared, phase?, List.any_eq_true, unharmed, List.mem_iff_getElem?]
  constructor
  · rintro ⟨w, phase, at_w, spared⟩
    exact ⟨phase, ⟨w, at_w⟩, spared⟩
  · rintro ⟨phase, ⟨w, at_w⟩, spared⟩
    exact ⟨w, phase, at_w, spared⟩

instance : Decidable (IsSpared p) := decidable_of_iff _ isSpared_iff.symm

/-- The run was not cancelled, and so workers stop only after the sender is gone. -/
structure Calm (p : Pool α) : Prop where
  agrees : p.queue.Agrees
  given : p.queue.given = []
  manned : Manned p
  grounded : p.queue.Grounded
  uncut : Uncut p
  /-- The sender goes when no send is under way. -/
  shut : p.queue.senderOpen = false → p.queue.senderGone = true
  stopped : ∀ w, p.phase? w = some .stopped → p.queue.senderGone = true

theorem Calm.running (calm : Calm p) : p.cancelled = false := by
  rw [Pool.cancelled, Handoff.isGiven, calm.given]
  rfl

/-- A worker that goes was taken down, or the sender is gone. -/
theorem Calm.leaves {l : Piece α} {phase : Phase α} (calm : Calm p)
    (leaves : Leaves p l w phase) : phase = .panicked ∨ p.queue.senderGone = true := by
  cases leaves with
  | crashed => exact Or.inl rfl
  | cancelled cancelled => cases cancelled.symm.trans calm.running
  | cutShort a t here task cut => cases cut.symm.trans (calm.uncut w a t here task)
  | senderGone gone => exact Or.inr gone

theorem calm_stepPiece {l : Piece α} (calm : Calm p) (step : p.stepPiece l = some p')
    (kept : l.cancels = false) : Calm p' := by
  obtain ⟨keeps, change⟩ := change_stepPiece calm.agrees step
  have asks := asks_stepPiece step
  exact {
    agrees := keeps.sound.agrees
    given := by
      rw [asks.given, kept, calm.given]
      rfl
    manned := manned_stepPiece calm.agrees calm.manned step
    grounded := grounded_stepPiece calm.grounded step
    uncut := uncut_change calm.uncut calm.running change
    shut := fun closed => by
      rw [asks.senderOpen, Bool.and_eq_false_iff, Bool.not_eq_false'] at closed
      rcases closed with before | closes
      · exact keeps.sound.gone (calm.shut before)
      · exact (queue_of_closes step closes).2
    stopped := fun i stopped => by
      rcases leaves_stepPiece calm.agrees step stopped rfl with before | leaves
      · exact keeps.sound.gone (calm.stopped i before)
      · rcases calm.leaves leaves with down | gone
        · cases down
        · exact keeps.sound.gone gone }

theorem calm_started (s : Settings) : Calm (started s false : Pool α) where
  agrees := (chronicle_started s false).agrees
  given := rfl
  manned := manned_started s false
  grounded := Handoff.grounded_new s.workers
  uncut := by
    intro w a t here
    rw [stage?_started] at here
    cases here
  shut := nofun
  stopped := by
    intro w stopped
    have idle := List.mem_of_getElem? stopped
    cases (List.mem_replicate.mp idle).2

/-- While a worker is left and the sender is open no send has failed. -/
theorem Calm.accepted_of_present {ticket : Nat} {how : SendEnd} {phase : Phase α} (calm : Calm p)
    (open_ : p.queue.senderOpen = true) (at_w : p.phase? w = some phase)
    (present : phase.isGone = false) (ended : p.queue.sendEnd? ticket = some how) :
    how = .accepted := by
  have left : 0 < p.queue.receivers := by
    rw [calm.manned]
    exact List.countP_pos_iff.mpr ⟨phase, List.mem_of_getElem? at_w, by rw [present]; rfl⟩
  have grounds := calm.grounded ticket _ (Handoff.sendEnd?_eq_some_iff.mp ended)
  cases how with
  | accepted => rfl
  | refused e =>
    cases e with
    | cancelled => exact absurd calm.given grounds
    | closed =>
      rcases grounds with none | closed
      · exact absurd none (Nat.ne_of_gt left)
      · cases closed.symm.trans open_

/-- In a calm run in which jobs are submitted only while the sender is open, all sends were
accepted when the sender is gone, if a worker is spared. -/
structure Steady (p : Pool α) : Prop extends Calm p where
  accepted : IsSpared p → p.queue.senderGone = true →
    ∀ ticket how, p.queue.sendEnd? ticket = some how → how = .accepted

/-- Who is spared after a piece was spared before. -/
theorem IsSpared.of_keeps (spared : IsSpared p') (keeps : Keeps p p') : IsSpared p := by
  obtain ⟨i, phase, at_i, unharmed⟩ := spared
  have inside : i < p.workers.length := by
    rw [← keeps.count]
    exact (List.getElem?_eq_some_iff.mp at_i).1
  refine ⟨i, p.workers[i], List.getElem?_eq_getElem inside, fun harmed => unharmed ?_⟩
  have before : p.phase? i = some .panicked := harmed ▸ List.getElem?_eq_getElem inside
  exact Option.some.inj (at_i.symm.trans (keeps.gone i _ before rfl))

/-- After the sender is gone nothing is sent. -/
theorem sendEnd?_of_senderGone {l : Piece α} {ticket : Nat} {how : SendEnd} (keeps : Keeps p p')
    (gone : p.queue.senderGone = true) (timely : l.job?.isSome = true → p.queue.senderOpen = true)
    (asks : Asks l p.queue p'.queue) (ended : p'.queue.sendEnd? ticket = some how) :
    p.queue.sendEnd? ticket = some how := by
  have closed := (Handoff.senderGone_iff.mp gone).1
  have unasked : l.job? = none := by
    rw [closed] at timely
    simpa using timely
  have inside : ticket < p'.queue.sends.length :=
    Handoff.lt_length_of_sendState? (Handoff.sendEnd?_eq_some_iff.mp ended)
  rw [asks.length_sends, unasked] at inside
  obtain ⟨how', before⟩ := Handoff.exists_sendEnd? gone inside
  cases ended.symm.trans (keeps.sound.extends_.sendEnd? before)
  exact before

theorem steady_stepPiece {l : Piece α} (steady : Steady p) (step : p.stepPiece l = some p')
    (kept : l.cancels = false) (timely : l.job?.isSome = true → p.queue.senderOpen = true) :
    Steady p' := by
  obtain ⟨keeps, _⟩ := change_stepPiece steady.agrees step
  have asks := asks_stepPiece step
  refine ⟨calm_stepPiece steady.toCalm step kept, fun spared gone ticket how ended => ?_⟩
  -- Once the sender is gone nothing changes; when it goes the spared worker is still there.
  by_cases before : p.queue.senderGone = true
  · have ended_before := sendEnd?_of_senderGone keeps before timely asks ended
    exact steady.accepted (spared.of_keeps keeps) before ticket how ended_before
  · have open_ : p.queue.senderOpen = true :=
      Bool.of_not_eq_false fun closed => before (steady.shut closed)
    have closes : l.closes = true := by
      have closed := (Handoff.senderGone_iff.mp gone).1
      simpa [asks.senderOpen, open_] using closed
    rw [(queue_of_closes step closes).1] at ended
    obtain ⟨i, phase, at_i, unharmed⟩ := spared.of_keeps keeps
    refine steady.accepted_of_present open_ at_i ?_ ended
    cases phase with
    | stopped => exact absurd (steady.stopped i at_i) before
    | panicked => exact absurd rfl unharmed
    | _ => rfl

theorem steady_started (s : Settings) : Steady (started s false : Pool α) where
  toCalm := calm_started s
  accepted := by
    intro _ _ ticket how ended
    cases ended

/-- After the sender is gone all jobs were accepted, if a worker is spared. -/
theorem Steady.all_accepted (steady : Steady p) (spared : IsSpared p)
    (gone : p.queue.senderGone = true) {ticket : Nat} (inside : ticket < p.queue.sends.length) :
    p.queue.sendEnd? ticket = some .accepted := by
  obtain ⟨how, ended⟩ := Handoff.exists_sendEnd? gone inside
  cases steady.accepted spared gone ticket how ended
  exact ended

/-! ## Runs of a certain kind -/

/-- In each step of a run, as far as it goes, the state and the label are so. -/
def Throughout {σ ι : Type} (step : σ → ι → Option σ) (so : σ → ι → Prop) : σ → List ι → Prop
  | _, [] => True
  | s, l :: ls => so s l ∧ ∀ s', step s l = some s' → Throughout step so s' ls

theorem throughout_cons {σ ι : Type} {step : σ → ι → Option σ} {so : σ → ι → Prop} {s s' : σ}
    {l : ι} {ls : List ι} (now : so s l) (next : step s l = some s')
    (rest : Throughout step so s' ls) : Throughout step so s (l :: ls) := by
  refine ⟨now, fun q also => ?_⟩
  cases next.symm.trans also
  exact rest

theorem throughout_imp {σ ι : Type} {step : σ → ι → Option σ} {so also : σ → ι → Prop} {s : σ}
    {ls : List ι} (imp : ∀ s l, so s l → also s l) (all : Throughout step so s ls) :
    Throughout step also s ls := by
  induction ls generalizing s with
  | nil => trivial
  | cons l ls ih => exact ⟨imp s l all.1, fun next stepped => ih (all.2 next stepped)⟩

instance decidableThroughout {σ ι : Type} (step : σ → ι → Option σ) (so : σ → ι → Prop)
    [∀ s l, Decidable (so s l)] : (s : σ) → (ls : List ι) → Decidable (Throughout step so s ls)
  | _, [] => .isTrue trivial
  | s, l :: ls =>
    have := fun s' => decidableThroughout step so s' ls
    inferInstanceAs (Decidable (so s l ∧ ∀ s' ∈ step s l, Throughout step so s' ls))

end Pool

end CommandPool
