import CommandPool.Proofs.Handoff.Got
import CommandPool.Proofs.Pool.Course

/-!
# What one step changes

Whatever a step or a piece of a pool is about, it does one of three things, as far as
jobs are concerned: it touches none, a worker without a job takes one, or a worker
makes one move of the job that it has.  `Change` says so, and `Keeps` says what every
change respects.  Invariants of a pool are proved from `change_stepPiece`, without the
definitions of the single steps.
-/

namespace CommandPool.Pool

variable {α : Type} {p p' : Pool α}

/-- The worker has stopped or was taken down. -/
def Phase.isGone : Phase α → Bool
  | .stopped => true
  | .panicked => true
  | _ => false

/-- What every change respects. -/
structure Keeps (p p' : Pool α) : Prop where
  sound : Handoff.Sound p.queue p'.queue
  settings : p'.settings = p.settings
  count : p'.workers.length = p.workers.length
  /-- A worker that is gone stays so. -/
  gone : ∀ i phase, p.phase? i = some phase → phase.isGone = true → p'.phase? i = some phase
  /-- The client begins to wait after the sender is gone, and goes on from a worker
  that is gone. -/
  joined : p'.joined = p.joined ∨ (p'.joined = some 0 ∧ p'.queue.senderGone = true) ∨
    ∃ k phase, p.joined = some k ∧ p'.joined = some (k + 1) ∧ p.phase? k = some phase ∧
      phase.isGone = true

/-- What a step does, as far as jobs are concerned. -/
inductive Change (p p' : Pool α) : Prop where
  /-- It touches no job. -/
  | aside
      (stages : ∀ i, p'.stage? i = p.stage? i)
      (events : ∀ ticket, eventsOf p'.history ticket = eventsOf p.history ticket)
      (got : ∀ ticket, p'.queue.Got ticket ↔ p.queue.Got ticket)
  /-- A worker without a job takes one that nobody had. -/
  | taken (w ticket : Nat) (s : Send (Job α))
      (without : p.stage? w = none)
      (fresh : ¬ p.queue.Got ticket)
      (found : p'.queue.sends[ticket]? = some s)
      (stages : ∀ i, p'.stage? i =
        if i = w then some (.ready (.first ticket s.job)) else p.stage? i)
      (events : ∀ other, eventsOf p'.history other = eventsOf p.history other)
      (got : ∀ other, p'.queue.Got other ↔ other = ticket ∨ p.queue.Got other)
  /-- A worker makes a move of its job. -/
  | moved (w : Nat) (a : Stage α) (new : List Event) (b : Stage α)
      (before : p.stage? w = some a)
      (move : Move p.settings w p.cancelled a new b)
      (stages : ∀ i, p'.stage? i = if i = w then b.shown else p.stage? i)
      (events : ∀ ticket,
        eventsOf p'.history ticket = eventsOf new ticket ++ eventsOf p.history ticket)
      (got : ∀ ticket, p'.queue.Got ticket ↔ p.queue.Got ticket)

/-! ## Frames -/

theorem phase?_of_set {w : Nat} {old new : Phase α} (at_w : p.phase? w = some old)
    (workers : p'.workers = p.workers.set w new) (i : Nat) :
    p'.phase? i = if i = w then some new else p.phase? i := by
  have inside : w < p.workers.length := (List.getElem?_eq_some_iff.mp at_w).1
  unfold phase?
  rw [workers]
  split
  next equal => rw [equal, List.getElem?_set_self inside]
  next other => rw [List.getElem?_set_ne (Ne.symm other)]

theorem stage?_of_set {w : Nat} {old new : Phase α} (at_w : p.phase? w = some old)
    (workers : p'.workers = p.workers.set w new) (i : Nat) :
    p'.stage? i = if i = w then new.stage? else p.stage? i := by
  unfold stage?
  rw [phase?_of_set at_w workers]
  split <;> rfl

theorem stage?_of_phase? {w : Nat} {phase : Phase α} (at_w : p.phase? w = some phase) :
    p.stage? w = phase.stage? := by
  rw [stage?, at_w]
  rfl

theorem stage?_of_workers (workers : p'.workers = p.workers) (i : Nat) :
    p'.stage? i = p.stage? i := by
  rw [stage?, stage?, phase?, phase?, workers]

/-- One worker that was not gone moves, and the client does not. -/
theorem keeps_of_set {w : Nat} {old new : Phase α} (at_w : p.phase? w = some old)
    (present : old.isGone = false) (workers : p'.workers = p.workers.set w new)
    (sound : Handoff.Sound p.queue p'.queue) (settings : p'.settings = p.settings)
    (joined : p'.joined = p.joined) : Keeps p p' where
  sound := sound
  settings := settings
  count := by rw [workers, List.length_set]
  gone := by
    intro i phase at_i gone
    rw [phase?_of_set at_w workers, if_neg]
    · exact at_i
    · rintro rfl
      rw [Option.some.inj (at_i.symm.trans at_w), present] at gone
      cases gone
  joined := Or.inl joined

/-- No worker moves, and the client does not. -/
theorem keeps_of_workers (workers : p'.workers = p.workers)
    (sound : Handoff.Sound p.queue p'.queue) (settings : p'.settings = p.settings)
    (joined : p'.joined = p.joined) : Keeps p p' where
  sound := sound
  settings := settings
  count := by rw [workers]
  gone := by
    intro i phase at_i _
    rw [phase?, workers]
    exact at_i
  joined := Or.inl joined

/-- Events without a node are about no job. -/
theorem eventsOf_notes {notes history : List Event} (spotless : ∀ e ∈ notes, e.spot? = none)
    (ticket : Nat) : eventsOf (notes ++ history) ticket = eventsOf history ticket := by
  have none_left : notes.filter (·.isAbout ticket) = [] := by
    refine List.filter_eq_nil_iff.mpr fun e member => ?_
    simp [Event.isAbout, spotless e member]
  rw [eventsOf, List.filter_append, none_left]
  rfl

theorem eventsOf_append (new history : List Event) (ticket : Nat) :
    eventsOf (new ++ history) ticket = eventsOf new ticket ++ eventsOf history ticket :=
  List.filter_append _ _

/-- What an attempt leaves touches no worker and no job. -/
theorem record_fields (p : Pool α) (traces : Traces) :
    (p.record traces).workers = p.workers ∧ (p.record traces).queue = p.queue ∧
      (p.record traces).settings = p.settings ∧ (p.record traces).joined = p.joined ∧
      (p.record traces).history = (traces.log.map .noted).reverse ++ p.history := by
  have fold : ∀ (log : List Log.Entry) (p : Pool α),
      let q := log.foldl (fun p e => p.emit (.noted e)) p
      q.workers = p.workers ∧ q.queue = p.queue ∧ q.settings = p.settings ∧
        q.joined = p.joined ∧ q.history = (log.map .noted).reverse ++ p.history := by
    intro log
    induction log with
    | nil => intro p; exact ⟨rfl, rfl, rfl, rfl, rfl⟩
    | cons e log ih =>
      intro p
      obtain ⟨workers, queue, settings, joined, history⟩ := ih (p.emit (.noted e))
      refine ⟨workers, queue, settings, joined, ?_⟩
      rw [List.foldl_cons, history]
      simp [emit]
  exact fold traces.log p

/-- Going on after a node sets the worker to the stage that follows, and at most takes
the worker out of the queue. -/
theorem proceed_fields (p : Pool α) (w : Nat) (t : Task α) (outcome : Outcome) :
    ∃ phase, (p.proceed w t outcome).workers = p.workers.set w phase ∧
      phase.stage? = (t.onward outcome).shown ∧
      ((p.proceed w t outcome).queue = p.queue ∨
        (p.proceed w t outcome).queue = p.queue.dropReceiver) ∧
      (p.proceed w t outcome).settings = p.settings ∧
      (p.proceed w t outcome).joined = p.joined ∧
      (p.proceed w t outcome).history = p.history := by
  unfold proceed Task.onward
  cases (t.job.after outcome).job? with
  | some next => exact ⟨.ready _, rfl, rfl, Or.inl rfl, rfl, rfl, rfl⟩
  | none =>
    cases interrupted : t.interrupted with
    | true => exact ⟨.stopped, rfl, rfl, Or.inr rfl, rfl, rfl, rfl⟩
    | false => exact ⟨.idle, rfl, rfl, Or.inl rfl, rfl, rfl, rfl⟩

/-! ## The three kinds of changes -/

theorem got_dropReceiver (h : Handoff α) (ticket : Nat) :
    h.dropReceiver.Got ticket ↔ h.Got ticket :=
  Handoff.got_same_of_recvs (Handoff.recvs_dropIfGone _) ticket

/-- The queue is left alone, or loses a receiver. -/
theorem sound_of_queue (agrees : p.queue.Agrees)
    (queue : p'.queue = p.queue ∨ p'.queue = p.queue.dropReceiver) :
    Handoff.Sound p.queue p'.queue ∧ ∀ ticket, p'.queue.Got ticket ↔ p.queue.Got ticket := by
  rcases queue with same | dropped
  · rw [same]
    exact ⟨.refl agrees, fun _ => Iff.rfl⟩
  · rw [dropped]
    exact ⟨Handoff.sound_dropReceiver agrees, got_dropReceiver p.queue⟩

/-- A worker moves from one stage to the next, and leaves the events of the move. -/
theorem moved_of_set {w : Nat} {old phase : Phase α} {a b : Stage α} {new : List Event}
    (agrees : p.queue.Agrees) (at_w : p.phase? w = some old) (stage : old.stage? = some a)
    (move : Move p.settings w p.cancelled a new b)
    (workers : p'.workers = p.workers.set w phase) (shown : phase.stage? = b.shown)
    (queue : p'.queue = p.queue ∨ p'.queue = p.queue.dropReceiver)
    (settings : p'.settings = p.settings) (joined : p'.joined = p.joined)
    (history : p'.history = new ++ p.history) : Keeps p p' ∧ Change p p' := by
  obtain ⟨sound, got⟩ := sound_of_queue agrees queue
  have present : old.isGone = false := by
    cases old <;> first | rfl | cases stage
  refine ⟨keeps_of_set at_w present workers sound settings joined, ?_⟩
  refine .moved w a new b ((stage?_of_phase? at_w).trans stage) move ?_ ?_ got
  · intro i
    rw [stage?_of_set at_w workers, shown]
  · intro ticket
    rw [history, eventsOf_append]

/-- A worker goes on after a node, with the events of that in the history already. -/
theorem moved_of_proceed {w : Nat} {t : Task α} {outcome : Outcome} {old : Phase α}
    {a : Stage α} {new : List Event} {r : Pool α} (agrees : p.queue.Agrees)
    (at_w : p.phase? w = some old) (stage : old.stage? = some a)
    (move : Move p.settings w p.cancelled a new (t.onward outcome))
    (workers : r.workers = p.workers) (queue : r.queue = p.queue)
    (settings : r.settings = p.settings) (joined : r.joined = p.joined)
    (history : r.history = new ++ p.history) :
    Keeps p (r.proceed w t outcome) ∧ Change p (r.proceed w t outcome) := by
  obtain ⟨phase, workers', shown, queue', settings', joined', history'⟩ :=
    proceed_fields r w t outcome
  rw [workers] at workers'
  rw [queue] at queue'
  exact moved_of_set agrees at_w stage move workers' shown queue' (settings'.trans settings)
    (joined'.trans joined) (history'.trans history)

/-- A worker without a job moves to a phase without one. -/
theorem aside_of_set {w : Nat} {old new : Phase α} (at_w : p.phase? w = some old)
    (present : old.isGone = false) (stage : old.stage? = none)
    (workers : p'.workers = p.workers.set w new) (without : new.stage? = none)
    (sound : Handoff.Sound p.queue p'.queue)
    (got : ∀ ticket, p'.queue.Got ticket ↔ p.queue.Got ticket)
    (settings : p'.settings = p.settings) (joined : p'.joined = p.joined)
    (history : p'.history = p.history) : Keeps p p' ∧ Change p p' := by
  refine ⟨keeps_of_set at_w present workers sound settings joined, ?_⟩
  refine .aside (fun i => ?_) (fun ticket => by rw [history]) got
  rw [stage?_of_set at_w workers]
  split
  next equal => rw [equal, stage?_of_phase? at_w, stage, without]
  next => rfl

/-- No worker moves. -/
theorem aside_of_workers {notes : List Event} (workers : p'.workers = p.workers)
    (sound : Handoff.Sound p.queue p'.queue)
    (got : ∀ ticket, p'.queue.Got ticket ↔ p.queue.Got ticket)
    (settings : p'.settings = p.settings) (joined : p'.joined = p.joined)
    (history : p'.history = notes ++ p.history) (spotless : ∀ e ∈ notes, e.spot? = none) :
    Keeps p p' ∧ Change p p' := by
  refine ⟨keeps_of_workers workers sound settings joined, ?_⟩
  refine .aside (stage?_of_workers workers) (fun ticket => ?_) got
  rw [history, eventsOf_notes spotless]

/-! ## Steps of a worker -/

/-- A worker without a job has polled its receive. -/
theorem change_settleAsk {w turn : Nat} {old : Phase α} {q : Handoff (Job α)}
    (at_w : p.phase? w = some old) (present : old.isGone = false) (stage : old.stage? = none)
    (sound : Handoff.Sound p.queue q) (receives : Handoff.Receives p.queue q turn) :
    Keeps p ({ p with queue := q }.settleAsk w turn) ∧
      Change p ({ p with queue := q }.settleAsk w turn) := by
  have aside : ∀ {new : Phase α} {p' : Pool α}, new.stage? = none →
      (∀ ticket, q.recvs[turn]? ≠ some (.got ticket)) →
      p'.workers = p.workers.set w new → (p'.queue = q ∨ p'.queue = q.dropReceiver) →
      p'.settings = p.settings → p'.joined = p.joined → p'.history = p.history →
      Keeps p p' ∧ Change p p' := by
    intro new p' without job workers queue settings joined history
    have same := receives.got_same job
    refine aside_of_set at_w present stage workers without ?_ ?_ settings joined history
    · rcases queue with same | dropped
      · rw [same]; exact sound
      · rw [dropped]; exact sound.trans Handoff.sound_dropReceiver
    · intro ticket
      rcases queue with same_queue | dropped
      · rw [same_queue]; exact same ticket
      · rw [dropped, got_dropReceiver]; exact same ticket
  unfold settleAsk
  simp only
  split
  next ticket got =>
    have inside := sound.agrees.lt_length_of_got got
    split
    next s found =>
      have workers : ({ p with queue := q }.setPhase w
          (.ready ⟨ticket, 0, s.job, 0, false⟩)).workers = p.workers.set w _ := rfl
      refine ⟨keeps_of_set at_w present workers sound rfl rfl, ?_⟩
      refine .taken w ticket s ((stage?_of_phase? at_w).trans stage)
        (receives.not_got sound.agrees got) found ?_ (fun _ => rfl) (receives.got_iff got)
      exact stage?_of_set at_w workers
    next missing =>
      rw [List.getElem?_eq_none_iff] at missing
      omega
  next closed =>
    have job : ∀ ticket, q.recvs[turn]? ≠ some (.got ticket) := by
      intro ticket got
      cases closed.symm.trans got
    exact aside rfl job rfl (Or.inr rfl) rfl rfl rfl
  next other _ =>
    exact aside rfl other rfl (Or.inl rfl) rfl rfl rfl

theorem change_look {w : Nat} (agrees : p.queue.Agrees) (step : p.look w = some p') :
    Keeps p p' ∧ Change p p' := by
  obtain ⟨phase, at_w, step⟩ := Option.bind_eq_some_iff.mp step
  cases phase with
  | idle =>
    simp only [lookFrom] at step
    split at step <;> cases step
    next =>
      exact aside_of_set at_w rfl rfl rfl rfl (Handoff.sound_dropReceiver agrees)
        (got_dropReceiver p.queue) rfl rfl rfl
    next =>
      exact change_settleAsk at_w rfl rfl (Handoff.sound_startRecv agrees)
        (Handoff.receives_startRecv p.queue)
  | asking turn =>
    simp only [lookFrom] at step
    split at step
    next =>
      cases step
      have left : Handoff.Sound p.queue ((p.queue.abandon turn).getD p.queue) ∧
          ∀ ticket, ((p.queue.abandon turn).getD p.queue).Got ticket ↔ p.queue.Got ticket := by
        cases abandoned : p.queue.abandon turn with
        | none => exact ⟨.refl agrees, fun _ => Iff.rfl⟩
        | some q =>
          exact ⟨Handoff.sound_abandon agrees abandoned, Handoff.got_same_abandon abandoned⟩
      refine aside_of_set at_w rfl rfl rfl rfl (left.1.trans Handoff.sound_dropReceiver) ?_ rfl
        rfl rfl
      exact fun ticket => (got_dropReceiver _ ticket).trans (left.2 ticket)
    next =>
      obtain ⟨q, polled, rfl⟩ := Option.map_eq_some_iff.mp step
      exact change_settleAsk at_w rfl rfl (Handoff.sound_pollRecv agrees polled)
        (Handoff.receives_pollRecv polled)
  | sleeping t error delay =>
    obtain ⟨cancelled, step⟩ := Option.ite_none_right_eq_some.mp step
    cases step
    exact moved_of_proceed agrees at_w rfl (.interrupt t error delay cancelled) rfl rfl rfl rfl rfl
  | _ => cases step

theorem change_start {w : Nat} (agrees : p.queue.Agrees) (step : p.start w = some p') :
    Keeps p p' ∧ Change p p' := by
  unfold start at step
  split at step
  next t at_w =>
    cases step
    exact moved_of_set agrees at_w rfl (.attempt t) rfl rfl (Or.inl rfl) rfl rfl rfl
  next => cases step

/-- A change after some notes were made is one from before. -/
theorem change_of_notes {r : Pool α} {notes : List Event} (workers : r.workers = p.workers)
    (queue : r.queue = p.queue) (settings : r.settings = p.settings)
    (joined : r.joined = p.joined) (history : r.history = notes ++ p.history)
    (spotless : ∀ e ∈ notes, e.spot? = none) (change : Keeps r p' ∧ Change r p') :
    Keeps p p' ∧ Change p p' := by
  obtain ⟨keeps, change⟩ := change
  have phases : ∀ i, r.phase? i = p.phase? i := by
    intro i
    rw [phase?, workers, ← phase?]
  have stages := stage?_of_workers workers
  have events : ∀ ticket, eventsOf r.history ticket = eventsOf p.history ticket := by
    intro ticket
    rw [history, eventsOf_notes spotless]
  constructor
  · refine ⟨queue ▸ keeps.sound, keeps.settings.trans settings, ?_, ?_, ?_⟩
    · rw [keeps.count, workers]
    · simpa only [phases] using keeps.gone
    · simpa only [phases, joined] using keeps.joined
  · cases change with
    | aside stages' events' got' =>
      refine .aside ?_ ?_ (queue ▸ got')
      · exact fun i => (stages' i).trans (stages i)
      · exact fun ticket => (events' ticket).trans (events ticket)
    | taken w ticket s without fresh found stages' events' got' =>
      refine .taken w ticket s (stages w ▸ without) (queue ▸ fresh) found ?_ ?_ (queue ▸ got')
      · simpa only [stages] using stages'
      · exact fun ticket => (events' ticket).trans (events ticket)
    | moved w a new b before move stages' events' got' =>
      have move : Move p.settings w p.cancelled a new b := by
        rwa [settings, cancelled, queue, ← cancelled] at move
      refine .moved w a new b (stages w ▸ before) move ?_ ?_ (queue ▸ got')
      · simpa only [stages] using stages'
      · simpa only [events] using events'

theorem change_afterError {w : Nat} {t : Task α} (error : JobError) (agrees : p.queue.Agrees)
    (at_w : p.phase? w = some (.attempting t)) :
    Keeps p (p.afterError w t error) ∧ Change p (p.afterError w t error) := by
  unfold afterError
  split
  next retry =>
    dsimp only
    split
    next cancelled =>
      exact moved_of_proceed agrees at_w rfl (.cut t error retry cancelled) rfl rfl rfl rfl rfl
    next running =>
      rw [Bool.not_eq_true] at running
      exact moved_of_set agrees at_w rfl (.throttle t error retry running) rfl rfl (Or.inl rfl)
        rfl rfl rfl
  next final =>
    rw [Bool.not_eq_true] at final
    exact moved_of_proceed agrees at_w rfl (.fail t error final) rfl rfl rfl rfl rfl

/-- An attempt leaves notes, and its end is a change after them. -/
theorem change_of_record {w : Nat} {phase : Phase α} (traces : Traces) (agrees : p.queue.Agrees)
    (at_w : p.phase? w = some phase)
    (change : ∀ r : Pool α, r.queue.Agrees → r.phase? w = some phase →
      r = p.record traces → Keeps r p' ∧ Change r p') : Keeps p p' ∧ Change p p' := by
  obtain ⟨workers, queue, settings, joined, history⟩ := record_fields p traces
  refine change_of_notes workers queue settings joined history ?_ (change _ ?_ ?_ rfl)
  · simp [Event.spot?]
  · exact queue ▸ agrees
  · rw [phase?, workers]
    exact at_w

theorem change_finish {w : Nat} {report : Report} (agrees : p.queue.Agrees)
    (step : p.finish w report = some p') : Keeps p p' ∧ Change p p' := by
  unfold finish at step
  split at step
  next t at_w =>
    refine change_of_record report.traces agrees at_w fun r agrees at_w recorded => ?_
    rw [← recorded] at step
    split at step <;> cases step
    next => exact moved_of_proceed agrees at_w rfl (.succeed t) rfl rfl rfl rfl rfl
    next error _ => exact change_afterError error agrees at_w
  next => cases step

theorem change_crash {w : Nat} {traces : Traces} (agrees : p.queue.Agrees)
    (step : p.crash w traces = some p') : Keeps p p' ∧ Change p p' := by
  unfold crash at step
  split at step
  next t at_w =>
    refine change_of_record traces agrees at_w fun r agrees at_w recorded => ?_
    rw [← recorded] at step
    cases step
    exact moved_of_set agrees at_w rfl (.panic t) rfl rfl (Or.inr rfl) rfl rfl rfl
  next => cases step

theorem change_wake {w : Nat} (agrees : p.queue.Agrees) (step : p.wake w = some p') :
    Keeps p p' ∧ Change p p' := by
  unfold wake at step
  split at step
  next t error delay at_w =>
    split at step <;> cases step
    next cancelled =>
      exact moved_of_proceed agrees at_w rfl (.interrupt t error delay cancelled) rfl rfl rfl
        rfl rfl
    next running =>
      rw [Bool.not_eq_true] at running
      exact moved_of_set agrees at_w rfl (.wait t error delay running) rfl rfl (Or.inl rfl) rfl
        rfl rfl
  next => cases step

/-! ## Steps of a client -/

/-- A poll of the queue that gets no job. -/
theorem aside_of_queue {q : Handoff (Job α)} (sound : Handoff.Sound p.queue q)
    (got : ∀ ticket, q.Got ticket ↔ p.queue.Got ticket) :
    Keeps p { p with queue := q } ∧ Change p { p with queue := q } :=
  @aside_of_workers _ p { p with queue := q } [] rfl sound got rfl rfl rfl nofun

/-- A poll of a send. -/
theorem aside_of_send {q : Handoff (Job α)} (sound : Handoff.Sound p.queue q)
    (recvs : q.recvs = p.queue.recvs) :
    Keeps p { p with queue := q } ∧ Change p { p with queue := q } :=
  aside_of_queue sound (Handoff.got_same_of_recvs recvs)

/-- A remark of a client. -/
theorem aside_of_emit {e : Event} (agrees : p.queue.Agrees) (spotless : e.spot? = none) :
    Keeps p (p.emit e) ∧ Change p (p.emit e) :=
  @aside_of_workers _ p (p.emit e) [e] rfl (.refl agrees) (fun _ => Iff.rfl) rfl rfl rfl
    (by simpa using spotless)

/-- The client that waits goes on from a worker that is gone. -/
theorem keeps_join {k : Nat} {phase : Phase α} (agrees : p.queue.Agrees)
    (waits : p.joined = some k) (at_k : p.phase? k = some phase) (gone : phase.isGone = true)
    (workers : p'.workers = p.workers) (queue : p'.queue = p.queue)
    (settings : p'.settings = p.settings) (joined : p'.joined = some (k + 1)) : Keeps p p' where
  sound := by
    rw [queue]
    exact .refl agrees
  settings := settings
  count := by rw [workers]
  gone := by
    intro i phase at_i _
    rw [phase?, workers]
    exact at_i
  joined := Or.inr (Or.inr ⟨k, phase, waits, joined, at_k, gone⟩)

theorem change_join (agrees : p.queue.Agrees) (step : p.join = some p') :
    Keeps p p' ∧ Change p p' := by
  unfold join at step
  split at step
  next => cases step
  next k waits =>
    split at step
    next at_k =>
      cases step
      refine ⟨keeps_join agrees waits at_k rfl rfl rfl rfl rfl, ?_⟩
      exact .aside (fun _ => rfl) (fun _ => rfl) (fun _ => Iff.rfl)
    next at_k =>
      cases step
      refine ⟨keeps_join agrees waits at_k rfl rfl rfl rfl rfl, ?_⟩
      exact .aside (fun _ => rfl) (fun _ => rfl) (fun _ => Iff.rfl)
    next => cases step

/-- A close drops the sender, between sends. -/
theorem close_eq_some (step : p.close = some p') :
    p' = { p with queue := p.queue.dropSender } ∧ p'.queue.senderGone = true := by
  obtain ⟨quiet, step⟩ := Option.ite_none_left_eq_some.mp step
  cases step
  rw [Bool.not_eq_true] at quiet
  exact ⟨rfl, by simpa [Handoff.senderGone, Handoff.dropSender, Handoff.sending] using quiet⟩

theorem change_close (agrees : p.queue.Agrees) (step : p.close = some p') :
    Keeps p p' ∧ Change p p' := by
  obtain ⟨rfl, _⟩ := close_eq_some step
  exact aside_of_send (Handoff.sound_dropSender agrees) rfl

theorem change_beginJoin (agrees : p.queue.Agrees) (step : p.beginJoin = some p') :
    Keeps p p' ∧ Change p p' := by
  obtain ⟨_, step⟩ := Option.ite_none_left_eq_some.mp step
  obtain ⟨closed, closes, rfl⟩ := Option.map_eq_some_iff.mp step
  obtain ⟨rfl, gone⟩ := close_eq_some closes
  constructor
  · exact ⟨Handoff.sound_dropSender agrees, rfl, rfl, fun _ _ at_i _ => at_i,
      Or.inr (Or.inl ⟨rfl, gone⟩)⟩
  · exact .aside (fun _ => rfl) (fun _ => rfl) (Handoff.got_same_of_recvs rfl)

/-! ## All steps and pieces -/

theorem change_step {l : Label α} (agrees : p.queue.Agrees) (step : p.step l = some p') :
    Keeps p p' ∧ Change p p' := by
  cases l with
  | look w => exact change_look agrees step
  | start w => exact change_start agrees step
  | finish w report => exact change_finish agrees step
  | crash w traces => exact change_crash agrees step
  | wake w => exact change_wake agrees step
  | submit job =>
    obtain ⟨_, step⟩ := Option.ite_none_right_eq_some.mp step
    cases step
    exact aside_of_send (Handoff.sound_startSend agrees job signal)
      (Handoff.recvs_startSend p.queue job signal)
  | pollSubmit ticket =>
    obtain ⟨q, polled, rfl⟩ := Option.map_eq_some_iff.mp step
    exact aside_of_send (Handoff.sound_pollSend agrees polled) (Handoff.recvs_pollSend polled)
  | close => exact change_close agrees step
  | cancel =>
    cases step
    exact aside_of_send (Handoff.sound_of_same agrees rfl rfl rfl rfl) rfl
  | beginJoin => exact change_beginJoin agrees step
  | join => exact change_join agrees step
  | _ =>
    obtain ⟨_, step⟩ := Option.ite_none_right_eq_some.mp step
    cases step
    exact aside_of_emit agrees rfl

theorem change_stepPiece {l : Piece α} (agrees : p.queue.Agrees)
    (step : p.stepPiece l = some p') : Keeps p p' ∧ Change p p' := by
  cases l with
  | whole l => exact change_step agrees step
  | offer job =>
    obtain ⟨_, step⟩ := Option.ite_none_right_eq_some.mp step
    cases step
    exact aside_of_send (Handoff.sound_offer agrees job signal)
      (Handoff.recvs_offer p.queue job signal)
  | shutOut ticket =>
    obtain ⟨q, part, rfl⟩ := Option.map_eq_some_iff.mp step
    exact aside_of_send (Handoff.sound_shutOut agrees part) (Handoff.recvs_shutOut part)
  | post ticket =>
    obtain ⟨q, part, rfl⟩ := Option.map_eq_some_iff.mp step
    exact aside_of_send (Handoff.sound_post agrees part) (Handoff.recvs_post part)
  | sight ticket =>
    obtain ⟨q, part, rfl⟩ := Option.map_eq_some_iff.mp step
    exact aside_of_send (Handoff.sound_sight agrees part) (Handoff.recvs_sight part)
  | ask w =>
    simp only [stepPiece] at step
    split at step
    next at_w =>
      cases step
      exact aside_of_set at_w rfl rfl rfl rfl (Handoff.sound_ask agrees)
        (Handoff.got_same_ask p.queue) rfl rfl rfl
    next => cases step
  | take w =>
    simp only [stepPiece] at step
    split at step
    next turn at_w =>
      obtain ⟨q, part, rfl⟩ := Option.map_eq_some_iff.mp step
      exact aside_of_queue (Handoff.sound_take agrees part) (Handoff.got_same_take agrees part)
    next => cases step

/-! ## Runs -/

/-- What each piece preserves holds at the end of a run. -/
theorem holds_of_pieces (so : Pool α → Prop) {ls : List (Piece α)}
    (kept : ∀ q q' l, so q → stepPiece q l = some q' → so q') (begins : so p)
    (run : p.pieces ls = some p') : so p' := by
  induction ls generalizing p with
  | nil => cases run; exact begins
  | cons l ls ih =>
    obtain ⟨next, step, rest⟩ := Option.bind_eq_some_iff.mp run
    exact ih (kept p next l begins step) rest

end CommandPool.Pool
