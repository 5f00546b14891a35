import CommandPool.Proofs.Pool.Draining
import CommandPool.Proofs.Pool.Pursuit
import CommandPool.Proofs.Pool.Tours

/-!
# Workers on tour

In a pool a worker moves by its own pieces, and each of them makes one move of its job.
`Plays` says what such a piece leaves: the events of the move, and the worker in the phase of
the stage that is reached.  A worker that is done with its job is idle, or has stopped if a
wait of the job was cut short.

So, if the attempts at a job give known answers, what has happened to it is a tour in every
state of the pool, and its worker alone can bring it to its end.
-/

namespace CommandPool.Pool

variable {α : Type} {p p' q : Pool α} {w ticket : Nat} {a b stage : Stage α} {t : Task α}
  {new : List Event} {answers : Answers}

/-! ## What a piece of a worker leaves -/

/-- The phase of a worker that has reached this stage of its job. -/
def Stage.phase : Stage α → Phase α
  | .ready t => .ready t
  | .attempting t => .attempting t
  | .sleeping t error delay => .sleeping t error delay
  | .finished interrupted => if interrupted then .stopped else .idle
  | .panicked => .panicked

theorem Stage.stage?_phase (b : Stage α) : b.phase.stage? = b.shown := by
  cases b with
  | finished interrupted => cases interrupted <;> rfl
  | _ => rfl

/-- The worker comes to this stage of its job, and these events are those of that. -/
structure Plays (p p' : Pool α) (w : Nat) (new : List Event) (b : Stage α) : Prop where
  workers : p'.workers = p.workers.set w b.phase
  history : ∃ notes, (∀ e ∈ notes, e.spot? = none) ∧ p'.history = new ++ (notes ++ p.history)

theorem workers_proceed (p : Pool α) (w : Nat) (t : Task α) (outcome : Outcome) :
    (p.proceed w t outcome).workers = p.workers.set w (t.onward outcome).phase := by
  unfold proceed Task.onward
  cases (t.job.after outcome).job? with
  | some next => rfl
  | none =>
    show (if t.interrupted then p.stop w else p.setPhase w .idle).workers =
      p.workers.set w (if t.interrupted then .stopped else .idle)
    cases t.interrupted <;> rfl

theorem plays_proceed {r : Pool α} {outcome : Outcome} {notes : List Event}
    (workers : r.workers = p.workers) (history : r.history = new ++ (notes ++ p.history))
    (spotless : ∀ e ∈ notes, e.spot? = none) :
    Plays p (r.proceed w t outcome) w new (t.onward outcome) where
  workers := by rw [workers_proceed, workers]
  history :=
    ⟨notes, spotless, (proceed_fields r w t outcome).choose_spec.2.2.2.2.2.trans history⟩

theorem plays_finish {report : Report} (at_w : p.phase? w = some (.attempting t))
    (step : p.finish w report = some p') :
    Plays p p' w (t.close p.settings w p.cancelled report.result).1
      (t.close p.settings w p.cancelled report.result).2 := by
  obtain ⟨workers, queue, settings, _, history⟩ := record_fields p report.traces
  have spotless : ∀ e ∈ (report.traces.log.map Event.noted).reverse, e.spot? = none := by
    simp [Event.spot?]
  have cancelled : (p.record report.traces).cancelled = p.cancelled := by
    rw [Pool.cancelled, queue, ← Pool.cancelled]
  simp only [finish, at_w] at step
  cases result : report.result with
  | ok =>
    simp only [result, Option.some.injEq] at step
    subst step
    refine plays_proceed workers ?_ spotless
    exact congrArg (_ :: ·) history
  | error e =>
    simp only [result, Option.some.injEq] at step
    subst step
    simp only [afterError, Task.close, settings]
    split
    next again =>
      have running : ∀ {e : Event}, ((p.record report.traces).emit e).cancelled = p.cancelled :=
        cancelled
      simp only [running]
      cases p.cancelled with
      | true =>
        refine plays_proceed workers ?_ spotless
        exact congrArg (_ :: _ :: ·) history
      | false =>
        refine ⟨?_, _, spotless, congrArg (_ :: ·) history⟩
        show (p.record report.traces).workers.set w _ = _
        rw [workers]
        rfl
    next final =>
      refine plays_proceed workers ?_ spotless
      exact congrArg (_ :: ·) history

/-- What a piece does that moves a worker with a job. -/
theorem plays_of_named {l : Piece α} (here : p.stage? w = some a)
    (step : p.stepPiece l = some p') (named : l.worker? = some w) :
    ∃ new b, Move p.settings w p.cancelled a new b ∧ Plays p p' w new b ∧
      ∀ t report, a = .attempting t → l = .whole (.finish w report) →
        (new, b) = t.close p.settings w p.cancelled report.result := by
  obtain ⟨phase, at_w, at_phase⟩ := Option.bind_eq_some_iff.mp here
  have spotless : ∀ e ∈ ([] : List Event), e.spot? = none := List.forall_mem_nil _
  cases l with
  | whole l =>
    cases l <;> cases named <;> simp only [stepPiece, Pool.step] at step
    next =>
      simp only [look, at_w, Option.bind_some] at step
      cases phase <;> cases at_phase
      next t => cases step
      next t => cases step
      next t error delay =>
        obtain ⟨cancelled, step⟩ := Option.ite_none_right_eq_some.mp step
        cases step
        exact ⟨_, _, .interrupt t error delay cancelled, plays_proceed rfl rfl spotless,
          by rintro _ _ ⟨⟩⟩
    next =>
      simp only [start, at_w] at step
      cases phase <;> cases at_phase <;> cases step
      next t => exact ⟨_, _, .attempt t, ⟨rfl, [], spotless, rfl⟩, by rintro _ _ ⟨⟩⟩
    next report =>
      cases phase with
      | attempting t =>
        cases at_phase
        refine ⟨_, _, t.move_close _ _ _ report.result, plays_finish at_w step, ?_⟩
        intro t report here same
        cases here
        cases same
        rfl
      | _ => simp only [finish, at_w] at step; cases step
    next traces =>
      simp only [crash, at_w] at step
      cases phase <;> cases at_phase <;> cases step
      next t =>
        obtain ⟨workers, _, _, _, history⟩ := record_fields p traces
        refine ⟨_, _, .panic t, ⟨?_, (traces.log.map .noted).reverse, ?_, ?_⟩, ?_⟩
        · show (p.record traces).workers.set w _ = _
          rw [workers]
          rfl
        · simp [Event.spot?]
        · exact congrArg (_ :: ·) history
        · rintro _ _ _ ⟨⟩
    next =>
      simp only [wake, at_w] at step
      cases phase <;> cases at_phase
      next t => cases step
      next t => cases step
      next t error delay =>
        simp only at step
        split at step <;> cases step
        next cancelled =>
          exact ⟨_, _, .interrupt t error delay cancelled, plays_proceed rfl rfl spotless,
            by rintro _ _ ⟨⟩⟩
        next running =>
          exact ⟨_, _, .wait t error delay (eq_false_of_ne_true running),
            ⟨rfl, [], spotless, rfl⟩, by rintro _ _ ⟨⟩⟩
  | ask w =>
    cases named
    simp only [stepPiece, at_w] at step
    cases phase <;> cases at_phase <;> cases step
  | take w =>
    cases named
    simp only [stepPiece, at_w] at step
    cases phase <;> cases at_phase <;> cases step
  | _ => cases named

/-- In a step a job that has a worker stays as it is, or its worker makes a move of it by a
piece of its own. -/
inductive HeardNext (p p' : Pool α) (l : Piece α) (ticket w : Nat) (a : Stage α) : Prop where
  | stays (s : Send (Job α)) : ¬ (l.worker? = some w ∧ p.stage? w = some a) →
      p'.Heard ticket w s a → eventsOf p'.history ticket = eventsOf p.history ticket →
      HeardNext p p' l ticket w a
  | plays (s : Send (Job α)) (new : List Event) (b : Stage α) : l.worker? = some w →
      p.stage? w = some a → Move p.settings w p.cancelled a new b → Plays p p' w new b →
      (∀ t report, a = .attempting t → l = .whole (.finish w report) →
        (new, b) = t.close p.settings w p.cancelled report.result) →
      p'.Heard ticket w s b →
      eventsOf p'.history ticket = new ++ eventsOf p.history ticket → HeardNext p p' l ticket w a

theorem Heard.plays {l : Piece α} {s : Send (Job α)} (heard : p.Heard ticket w s a)
    (chronicle : Chronicle p) (gotten : p.queue.Got ticket) (step : p.stepPiece l = some p') :
    HeardNext p p' l ticket w a := by
  obtain ⟨keeps, change⟩ := change_stepPiece chronicle.agrees step
  by_cases own : l.worker? = some w ∧ p.stage? w = some a
  · obtain ⟨named, here⟩ := own
    obtain ⟨new, b, move, plays, ends⟩ := plays_of_named here step named
    obtain ⟨phase, at_w, _⟩ := Option.bind_eq_some_iff.mp here
    have stages : ∀ i, p'.stage? i = if i = w then b.shown else p.stage? i := by
      intro i
      rw [stage?_of_set at_w plays.workers, b.stage?_phase]
    have events : ∀ ticket, eventsOf p'.history ticket =
        eventsOf new ticket ++ eventsOf p.history ticket := by
      obtain ⟨notes, spotless, history⟩ := plays.history
      intro ticket
      rw [history, eventsOf_append, eventsOf_notes spotless]
    obtain ⟨s', heard'⟩ := heard.moved keeps move stages events
    have mine : eventsOf new ticket = new := move.eventsOf_new heard.follows.ticket.1
    exact .plays s' new b named here move plays ends heard' (by rw [events, mine])
  · obtain ⟨s', b, new, heard', events, next⟩ := heard.next chronicle gotten keeps change
    rcases next with ⟨rfl, rfl⟩ | move
    · exact .stays s' own heard' events
    · -- Who makes a move shows the stage before it, so it is moved by a piece of its own.
      have shown : a.shown = some a := by
        cases move <;> rfl
      have here := ((heard.holder w a).mpr ⟨rfl, shown⟩)
      have still : p'.stage? w = some a := by
        rw [stage?, phase?_of_unnamed chronicle.agrees step fun named => own ⟨named, here.1⟩]
        exact here.1
      have same := ((heard'.holder w a).mp ⟨still, here.2⟩).2
      cases (Stage.shown_eq_some_iff.mp same).1
      exact absurd move.left_lt (Nat.lt_irrefl _)

/-! ## Answers -/

/-- If an attempt at this job ends, it gives the answer for its node and for the number of the
attempts at that node so far, and it does not panic. -/
def Gives (answers : Answers) (ticket : Nat) (p : Pool α) : Piece α → Prop
  | .whole (.finish w report) => ∀ t, p.phase? w = some (.attempting t) → t.ticket = ticket →
      report.result = answers t.node (countAt Event.isAttempt p.history ticket t.node)
  | .whole (.crash w _) => ∀ t, p.phase? w = some (.attempting t) → t.ticket ≠ ticket
  | _ => True

theorem Heard.heeds {l : Piece α} {s : Send (Job α)} {b : Stage α} (heard : p.Heard ticket w s a)
    (here : p.stage? w = some a) (step : p.stepPiece l = some p') (named : l.worker? = some w)
    (gives : Gives answers ticket p l)
    (ends : ∀ t report, a = .attempting t → l = .whole (.finish w report) →
      (new, b) = t.close p.settings w p.cancelled report.result) :
    Heeds answers p.settings w p.cancelled a new b := by
  rintro t rfl
  have at_w := phase?_of_stage?_attempting here
  have mine : t.ticket = ticket := heard.follows.ticket.1 t rfl
  rcases ends_of_named at_w step named with ⟨report, rfl⟩ | crashes
  · have number : countAt Event.isAttempt p.history ticket t.node = t.retries + 1 := by
      rw [← countAt_eventsOf]
      exact heard.follows.attempts_at rfl rfl
    rw [ends t report rfl rfl, gives t at_w mine, number]
  · rcases l with (_ | _) | _ <;> cases crashes
    cases named
    exact absurd mine (gives t at_w)

/-! ## The invariant -/

/-- If the job was taken, what has happened to it is a tour.  A wait was cut short in it only
if the run is cancelled. -/
def OnTour (answers : Answers) (ticket : Nat) (p : Pool α) : Prop :=
  p.queue.Got ticket → ∃ w s visits rest here stage, p.Heard ticket w s stage ∧
    Toured p.settings w ticket answers s.job.toChain visits rest here
      (eventsOf p.history ticket) stage ∧
    (isCutShort visits = true → p.cancelled = true)

theorem onTour_stepPiece {l : Piece α} (onTour : OnTour answers ticket p)
    (chronicle : Chronicle p) (step : p.stepPiece l = some p')
    (gives : Gives answers ticket p l) : OnTour answers ticket p' := by
  obtain ⟨keeps, change⟩ := change_stepPiece chronicle.agrees step
  intro gotten'
  by_cases gotten : p.queue.Got ticket
  · obtain ⟨w, s, visits, rest, here, a, heard, toured, cut⟩ := onTour gotten
    have stays : p.cancelled = true → p'.cancelled = true := (cancelled_stays · step)
    obtain ⟨s'', found, job, _⟩ := keeps.sound.extends_.send ticket s heard.found
    rw [keeps.settings]
    cases heard.plays chronicle gotten step with
    | stays s' _ heard' events =>
      cases heard'.found.symm.trans found
      rw [← job, ← events] at toured
      exact ⟨w, _, visits, rest, here, a, heard', toured, stays ∘ cut⟩
    | plays s' new b named busy move plays ends heard' events =>
      cases heard'.found.symm.trans found
      obtain ⟨visits', rest', here', toured', cut'⟩ :=
        toured.move move (heard.heeds busy step named gives ends)
      rw [← job, ← events] at toured'
      exact ⟨w, _, visits', rest', here', b, heard', toured',
        fun short => stays ((cut' short).elim cut id)⟩
  · cases change with
    | aside _ _ got => exact absurd ((got ticket).mp gotten') gotten
    | moved _ _ _ _ _ _ _ _ got => exact absurd ((got ticket).mp gotten') gotten
    | taken w taken s without fresh found stages events got =>
      cases ((got ticket).mp gotten').resolve_right gotten
      have heard := chronicle.heard_taken fresh found stages (events ticket)
      refine ⟨w, s, [], s.job.toChain, [], _, heard, ?_, nofun⟩
      rw [events, (chronicle.silent ticket fresh).events]
      exact toured_first p'.settings w ticket answers s.job

theorem onTour_pieces {ls : List (Piece α)} (onTour : OnTour answers ticket p)
    (chronicle : Chronicle p) (run : p.pieces ls = some p')
    (given : Throughout stepPiece (Gives answers ticket) p ls) : OnTour answers ticket p' := by
  induction ls generalizing p with
  | nil => cases run; exact onTour
  | cons l ls ih =>
    obtain ⟨next, step, rest⟩ := Option.bind_eq_some_iff.mp run
    obtain ⟨gives, given⟩ := given
    obtain ⟨keeps, change⟩ := change_stepPiece chronicle.agrees step
    exact ih (onTour_stepPiece onTour chronicle step gives)
      (chronicle_change chronicle keeps change) rest (given next step)

theorem onTour_started (answers : Answers) (ticket : Nat) (s : Settings) (cancelled : Bool) :
    OnTour answers ticket (started s cancelled : Pool α) := by
  rintro ⟨turn, got⟩
  cases got

/-! ## The rest of a tour -/

/-- A worker that has a job can move, and the answers allow it. -/
theorem exists_gives (answers : Answers) (ticket : Nat) (here : p.stage? w = some a) :
    ∃ l q, l.worker? = some w ∧ p.stepPiece l = some q ∧ Gives answers ticket p l := by
  obtain ⟨phase, at_w, at_phase⟩ := Option.bind_eq_some_iff.mp here
  cases phase <;> cases at_phase
  next t =>
    have starts : ∃ q, p.start w = some q := by
      rw [start, at_w]
      exact ⟨_, rfl⟩
    obtain ⟨q, step⟩ := starts
    exact ⟨.whole (.start w), q, rfl, step, trivial⟩
  next t =>
    let answer := answers t.node (countAt Event.isAttempt p.history ticket t.node)
    have ends : ∃ q, p.finish w (.plain answer) = some q := by
      rw [finish, at_w]
      cases answer <;> exact ⟨_, rfl⟩
    obtain ⟨q, step⟩ := ends
    refine ⟨.whole (.finish w (.plain answer)), q, rfl, step, fun t' also _ => ?_⟩
    cases at_w.symm.trans also
    rfl
  next t error delay =>
    have ends : ∃ q, p.wake w = some q := by
      rw [wake, at_w]
      cases p.cancelled <;> exact ⟨_, rfl⟩
    obtain ⟨q, step⟩ := ends
    exact ⟨.whole (.wake w), q, rfl, step, trivial⟩

/-- The worker of a job alone can bring it to its end. -/
theorem exists_end (answers : Answers) (chronicle : Chronicle p) (busy : p.At w a ticket) :
    ∃ ms q, p.pieces ms = some q ∧ (∀ l ∈ ms, l.worker? = some w) ∧
      Throughout stepPiece (Gives answers ticket) p ms ∧ ∀ i other, ¬ q.At i other ticket := by
  -- Each move leaves less to do.
  induction size : a.left p.settings.maxRetries using Nat.strong_induction_on
    generalizing p a with
  | _ size ih =>
    subst size
    obtain ⟨l, next, named, step, gives⟩ := exists_gives answers ticket busy.1
    obtain ⟨keeps, change⟩ := change_stepPiece chronicle.agrees step
    obtain ⟨got, s, heard⟩ := chronicle.heard_of_at busy
    cases heard.plays chronicle got step with
    | stays _ other => exact absurd ⟨named, busy.1⟩ other
    | plays s' new b _ _ move _ _ heard' =>
      cases shown : b.shown with
      | none =>
        refine ⟨[l], next, ?_, ?_, throughout_cons gives step trivial, fun i other also => ?_⟩
        · rw [pieces, step]
          rfl
        · simpa using named
        · cases shown.symm.trans ((heard'.holder i other).mp also).2
      | some other =>
        cases (Stage.shown_eq_some_iff.mp shown).1
        have less : b.left next.settings.maxRetries < a.left p.settings.maxRetries := by
          rw [keeps.settings]
          exact move.left_lt
        obtain ⟨ms, q, run, own, given, nobody⟩ :=
          ih _ less (chronicle_change chronicle keeps change)
            ((heard'.holder w b).mpr ⟨rfl, shown⟩) rfl
        refine ⟨l :: ms, q, ?_, ?_, throughout_cons gives step given, nobody⟩
        · rw [pieces, step]
          exact run
        · exact List.forall_mem_cons.mpr ⟨named, own⟩

end CommandPool.Pool
