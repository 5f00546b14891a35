import CommandPool.Proofs.Pool.Desertion
import CommandPool.Proofs.Pool.Feeders
import CommandPool.Proofs.Pool.Pursuit

/-!
# Panics are isolated

Take a run that is not cancelled, in which actions panic at any time.  A panic takes its own
worker down and nothing else: the other workers are where they were, and as long as one of
them is left the queue loses nothing but a receiver.  So while a worker is left no
submission fails but one that is begun after the close, and when the pool comes to rest
every job that was accepted was followed to its end, but for those that took their workers
down.

Once no worker is left the pool refuses what is pending and what comes later.  A feeder that
offers a job then drops its line and reads no further.  The client that waits for the
workers mourns each one that was taken down, in the order of their numbers.
-/

namespace CommandPool.Pool

variable {α : Type} {p p' : Pool α} {w ticket : Nat}

/-! ## One panic -/

/-- The worker is down, and nobody else has moved.  If a worker is left nothing has become
of the deliveries either. -/
structure TakesDown (p q : Pool α) (w : Nat) : Prop where
  down : q.phase? w = some .panicked
  others : ∀ i ≠ w, q.phase? i = p.phase? i
  queue : ¬ IsDeserted q → q.queue = { p.queue with receivers := p.queue.receivers - 1 }

theorem queue_of_crash {traces : Traces} (step : p.crash w traces = some p') :
    p'.queue = p.queue.dropReceiver := by
  unfold crash at step
  split at step
  next =>
    cases step
    exact congrArg Handoff.dropReceiver (record_fields p traces).2.1
  next => cases step

/-- A receiver that drops out takes nothing with it as long as another one is left. -/
theorem dropReceiver_of_left {h : Handoff α} (left : h.dropReceiver.receivers ≠ 0) :
    h.dropReceiver = { h with receivers := h.receivers - 1 } := by
  rw [receivers_dropReceiver] at left
  simp [Handoff.dropReceiver, Handoff.dropIfGone, Handoff.receiversGone, left]

theorem takesDown_of_crash {traces : Traces} (orderly : Orderly p)
    (step : p.crash w traces = some p') : TakesDown p p' w := by
  have piece : p.stepPiece (.whole (.crash w traces)) = some p' := step
  refine ⟨?_, fun i other => ?_, fun left => ?_⟩
  · cases loses_stepPiece piece with
    | apart spared => cases spared
    | crashed _ _ t _ down => exact down
  · refine phase?_of_unnamed orderly.chronicle.agrees piece fun same => ?_
    exact other (Option.some.inj same).symm
  · have manned := (orderly_stepPiece orderly piece).manned
    have some_left := mt (receivers_eq_zero_iff manned).mp left
    rw [queue_of_crash step] at some_left ⊢
    exact dropReceiver_of_left some_left

/-! ## Submissions that fail -/

/-- While a worker is left and the sender is open no send has failed. -/
theorem Calm.accepted_of_left {how : SendEnd} (calm : Calm p) (left : ¬ IsDeserted p)
    (open_ : p.queue.senderOpen = true) (ended : p.queue.sendEnd? ticket = some how) :
    how = .accepted := by
  simp only [IsDeserted, Classical.not_forall] at left
  obtain ⟨w, phase, at_w, present⟩ := left
  exact calm.accepted_of_present open_ at_w (eq_false_of_ne_true present) ended

theorem length_job?_le (l : Piece α) : l.job?.toList.length ≤ 1 := by
  cases l.job? <;> simp

/-- As long as a worker is left no submission fails but one that is begun after the close. -/
theorem Calm.begun_of_refused {l : Piece α} {e : SubmitError} (calm : Calm p)
    (step : p.stepPiece l = some p') (kept : l.cancels = false) (left : ¬ IsDeserted p')
    (running : p.queue.sendEnd? ticket = none)
    (refused : p'.queue.sendEnd? ticket = some (.refused e)) :
    p.queue.senderOpen = false ∧ ticket = p.queue.nextTicket := by
  have calm' := calm_stepPiece calm step kept
  have closed : p.queue.senderOpen = false := by
    refine Bool.eq_false_iff.mpr fun open_ => ?_
    cases closes : l.closes with
    | true =>
      rw [(queue_of_closes step closes).1] at refused
      cases running.symm.trans refused
    | false =>
      have still : p'.queue.senderOpen = true := by
        rw [(asks_stepPiece step).senderOpen, open_, closes]
        rfl
      cases calm'.accepted_of_left left still refused
  have outside : p.queue.sends.length ≤ ticket := by
    refine Nat.le_of_not_lt fun inside => ?_
    obtain ⟨how, ended⟩ := Handoff.exists_sendEnd? (calm.shut closed) inside
    cases running.symm.trans ended
  have inside : ticket < p'.queue.sends.length :=
    Handoff.lt_length_of_sendState? (Handoff.sendEnd?_eq_some_iff.mp refused)
  rw [(asks_stepPiece step).length_sends] at inside
  have one := length_job?_le l
  exact ⟨closed, by rw [Handoff.nextTicket]; omega⟩

/-! ## The feeder -/

namespace Fed

variable {parse : Parse α} {f f' : Fed α}

/-- The run is cancelled. -/
def Label.cancels : Label α → Bool
  | .pool l => l.cancels
  | _ => false

/-- A step is at most one piece of the pool, and no cancellation if it is not called one. -/
theorem Moves.piece {l : Label α} (moves : Moves parse f l f') (kept : l.cancels = false) :
    f'.pool = f.pool ∨ ∃ m : Piece α, m.cancels = false ∧ f.pool.stepPiece m = some f'.pool := by
  cases moves with
  | @pool l _ piece => exact Or.inr ⟨l, kept, piece⟩
  | @feed l _ _ feeds stepped =>
    cases l with
    | none => cases stepped; exact Or.inl rfl
    | some l => exact Or.inr ⟨.whole l, (kept_of_feeds feeds l rfl).1, stepped⟩
  | input => exact Or.inl rfl

/-- What every step but a cancellation preserves holds at the end of a run without one. -/
theorem holds_of_steps (so : Fed α → Prop) {ls : List (Label α)}
    (stays : ∀ g g' l, so g → g.step parse l = some g' → l.cancels = false → so g')
    (begins : so f) (run : f.steps parse ls = some f') (kept : ∀ l ∈ ls, l.cancels = false) :
    so f' := by
  induction ls generalizing f with
  | nil => cases run; exact begins
  | cons l ls ih =>
    obtain ⟨next, step, rest⟩ := Option.bind_eq_some_iff.mp run
    obtain ⟨now, kept⟩ := List.forall_mem_cons.mp kept
    exact ih (stays f next l begins step now) rest kept

/-- The state of a run that is not cancelled. -/
structure Peaceful (f : Fed α) : Prop where
  orderly : Orderly f.pool
  calm : Calm f.pool
  /-- What the feeder offers was submitted. -/
  offered : ∀ ticket line, f.feeder.feeding = .offering ticket line →
    ticket < f.pool.queue.sends.length

theorem peaceful_step {l : Label α} (peaceful : Peaceful f) (step : f.step parse l = some f')
    (kept : l.cancels = false) : Peaceful f' := by
  have moves := moves_of_step step
  have both : Orderly f'.pool ∧ Calm f'.pool := by
    rcases Moves.piece moves kept with same | ⟨m, kept, piece⟩
    · rw [same]
      exact ⟨peaceful.orderly, peaceful.calm⟩
    · exact ⟨orderly_stepPiece peaceful.orderly piece, calm_stepPiece peaceful.calm piece kept⟩
  refine ⟨both.1, both.2, fun ticket line offers => ?_⟩
  cases moves with
  | pool piece =>
    rw [(asks_stepPiece piece).length_sends]
    exact Nat.lt_add_right _ (peaceful.offered ticket line offers)
  | @feed _ p _ feeds stepped =>
    cases feeds with
    | read reads polled takes =>
      cases takes with
      | submit line text job =>
        cases offers
        have piece : f.pool.stepPiece (.whole (.submit job)) = some p := stepped
        rw [(asks_stepPiece piece).length_sends]
        exact Nat.lt_succ_self _
      | _ => cases offers
    | look waits looks =>
      cases looks with
      | wait =>
        cases offers
        have piece : f.pool.stepPiece (.whole (.pollSubmit ticket)) = some p := stepped
        rw [(asks_stepPiece piece).length_sends]
        exact peaceful.offered ticket line waits
      | _ => cases offers
  | input => exact peaceful.offered ticket line offers

theorem peaceful_started (s : Settings) (intake : Intake) :
    Peaceful (⟨started s false, .new intake⟩ : Fed α) where
  orderly := orderly_started s false
  calm := calm_started s
  offered := nofun

/-- The job that a feeder offers was refused, or the feeder goes on offering it. -/
structure Cornered (f : Fed α) (ticket : Nat) (line : String) : Prop where
  peaceful : Peaceful f
  deserted : IsDeserted f.pool
  absent : ¬ f.pool.queue.Got ticket
  feeding : f.feeder.feeding = .offering ticket line ∨ f.feeder.feeding = .finished

theorem cornered_step {l : Label α} {line : String} (cornered : Cornered f ticket line)
    (step : f.step parse l = some f') (kept : l.cancels = false) :
    Cornered f' ticket line := by
  obtain ⟨peaceful, deserted, absent, feeding⟩ := cornered
  have agrees := peaceful.calm.agrees
  have pool : IsDeserted f'.pool ∧ ¬ f'.pool.queue.Got ticket := by
    rcases Moves.piece (moves_of_step step) kept with same | ⟨m, kept, piece⟩
    · rw [same]
      exact ⟨deserted, absent⟩
    · refine ⟨deserted.of_keeps (change_stepPiece agrees piece).1, ?_⟩
      rwa [deserted.got_iff agrees piece]
  refine ⟨peaceful_step peaceful step kept, pool.1, pool.2, ?_⟩
  cases moves_of_step step with
  | pool => exact feeding
  | feed feeds =>
    have offers := feeding.resolve_right (not_finished_of_feeds feeds)
    cases feeds with
    | read reads => cases offers.symm.trans reads
    | look waits looks =>
      cases offers.symm.trans waits
      cases looks with
      | wait => exact Or.inl rfl
      | accepted accepted => exact absurd ((agrees.accepted_iff accepted).mp rfl) absent
      | cancelled => exact Or.inr rfl
      | dropped => exact Or.inr rfl
  | input => exact feeding

/-- The feeder is finished, and has noted that it drops this line. -/
def HasDropped (f : Fed α) (line : String) : Prop :=
  f.feeder.feeding = .finished ∧ .dropped line ∈ f.pool.history

theorem sendEnd?_of_pollSend {h q : Handoff α} (polled : h.pollSend ticket = some q) :
    h.sendEnd? ticket = none := by
  cases ended : h.sendEnd? ticket with
  | none => rfl
  | some how =>
    rw [Handoff.pollSend, Handoff.sendEnd?_eq_some_iff.mp ended] at polled
    cases polled

/-- A feeder that looks at a job that was refused drops the line. -/
theorem exists_hasDropped (parse : Parse α) {line : String}
    (offers : f.feeder.feeding = .offering ticket line)
    (refused : f.pool.queue.sendEnd? ticket = some (.refused .closed))
    (unjoined : f.pool.joined = none) : ∃ g, f.step parse .feed = some g ∧ HasDropped g line := by
  refine ⟨⟨f.pool.emit (.dropped line), ⟨f.feeder.intake, .finished⟩⟩, ?_, rfl, List.mem_cons_self⟩
  simp [step, Feeder.step, offers, Feeder.lookAtOffer, refused, Pool.step, unjoined]

/-- Without a worker a feeder is finished after it has looked once or twice at the job that
it offers. -/
theorem Cornered.drops {line : String} (cornered : Cornered f ticket line)
    (offers : f.feeder.feeding = .offering ticket line) (unjoined : f.pool.joined = none) :
    ∃ g, (f.steps parse [.feed] = some g ∨ f.steps parse [.feed, .feed] = some g) ∧
      HasDropped g line := by
  obtain ⟨peaceful, deserted, absent, _⟩ := cornered
  have inside := peaceful.offered ticket line offers
  have shut := deserted.isShut peaceful.orderly peaceful.calm inside absent
  by_cases refused : f.pool.queue.sendEnd? ticket = some (.refused .closed)
  · obtain ⟨g, drops, dropped⟩ := exists_hasDropped parse offers refused unjoined
    refine ⟨g, Or.inl ?_, dropped⟩
    rw [steps, drops]
    rfl
  · obtain ⟨q, polled, refused⟩ := shut.resolve_left refused
    let next : Fed α := ⟨{ f.pool with queue := q }, ⟨f.feeder.intake, .offering ticket line⟩⟩
    have looks : f.step parse .feed = some next := by
      simp [step, Feeder.step, offers, Feeder.lookAtOffer, sendEnd?_of_pollSend polled, Pool.step,
        pollSubmit, polled, next]
    obtain ⟨g, drops, dropped⟩ := exists_hasDropped (f := next) parse rfl refused unjoined
    refine ⟨g, Or.inr ?_, dropped⟩
    rw [steps, looks, Option.bind_some, steps, drops]
    rfl

end Fed

/-! ## All together -/

/-- What is logged of a worker that is found to have panicked. -/
def taskFailed : Log.Entry := ⟨.error, .pool, "worker task failed", [], ["worker", "error"]⟩

/-- What holds of a pool in which actions panic, in every state of a run that is not
cancelled. -/
structure Isolates (p : Pool α) : Prop where
  panics : ∀ w traces q, p.crash w traces = some q → TakesDown p q w
  /-- A worker is down exactly if a panic of its own is on record, and then just one is. -/
  reported : ∀ w, p.falls w = (p.isDown w).toNat
  /-- Other workers stop only when no more jobs come. -/
  stopped : ∀ w, p.phase? w = some .stopped → p.queue.senderGone = true
  /-- As long as a worker is left no submission to the open pool fails. -/
  accepted : ¬ IsDeserted p → p.queue.senderOpen = true →
    ∀ ticket how, p.queue.sendEnd? ticket = some how → how = .accepted
  /-- A submission that fails although a worker is left was begun after the close. -/
  begun : ∀ l q ticket e, p.stepPiece l = some q → l.cancels = false → ¬ IsDeserted q →
    p.queue.sendEnd? ticket = none → q.queue.sendEnd? ticket = some (.refused e) →
    p.queue.senderOpen = false ∧ ticket = p.queue.nextTicket
  /-- Each job that has a worker is followed, whatever becomes of the other workers. -/
  followed : ∀ ticket s, p.queue.sends[ticket]? = some s → p.queue.Got ticket → Fate p ticket s
  /-- The pool comes to rest, whichever pieces are taken and whatever the attempts give. -/
  bounded : ∀ ls q, p.pieces ls = some q → (∀ l ∈ ls, l.begins = false ∧ l.cancels = false) →
    ls.length ≤ p.left
  rests : ∃ ls q, p.pieces ls = some q ∧ (∀ l ∈ ls, l.begins = false ∧ l.cancels = false) ∧
    IsQuiet q
  concluded : IsQuiet p → ∀ ticket s, p.queue.sends[ticket]? = some s → Concluded p ticket s
  /-- At rest the client has joined, or it may do so. -/
  joins : IsQuiet p → p.isJoined = true ∨ ∃ q, p.beginJoin = some q
  /-- Each worker that was taken down is mourned once, in the order of their numbers. -/
  mourned : p.isJoined = true →
    IsQuiet p ∧ p.mourned = (List.range p.workers.length).filter p.isDown

/-- What holds once no worker is left. -/
structure Ceases (parse : Parse α) (f : Fed α) : Prop where
  pending : ∀ ticket < f.pool.queue.sends.length, ¬ f.pool.queue.Got ticket →
    f.pool.queue.IsShut ticket
  submits : ∀ job, f.pool.joined = none → ∃ q, f.pool.submit job = some q ∧
    q.queue.sendEnd? f.pool.queue.nextTicket = some (.refused .closed)
  /-- It stays so, and a job that no worker has never runs. -/
  never : ∀ ls q, f.pool.pieces ls = some q → IsDeserted q ∧
    ∀ ticket, ¬ f.pool.queue.Got ticket →
      ¬ q.queue.Got ticket ∧ eventsOf q.history ticket = []
  /-- No worker has the job of a line that the feeder still reads. -/
  offers : ∀ g ticket line, f.step parse .feed = some g → f.feeder.feeding = .reading →
    g.feeder.feeding = .offering ticket line → ¬ g.pool.queue.Got ticket
  /-- A feeder that offers a job that no worker has reads no further. -/
  stops : ∀ ticket line, f.feeder.feeding = .offering ticket line → ¬ f.pool.queue.Got ticket →
    ∀ ls g, f.steps parse ls = some g → (∀ l ∈ ls, l.cancels = false) →
      g.feeder.feeding = .offering ticket line ∨ g.feeder.feeding = .finished
  /-- It is finished after one look or two, and has dropped its line. -/
  drops : ∀ ticket line, f.feeder.feeding = .offering ticket line → ¬ f.pool.queue.Got ticket →
    f.pool.joined = none →
    ∃ g, (f.steps parse [.feed] = some g ∨ f.steps parse [.feed, .feed] = some g) ∧
      g.HasDropped line

namespace Fed

variable {parse : Parse α} {f f' : Fed α}

theorem Peaceful.isolates (peaceful : Peaceful f) : Isolates f.pool := by
  obtain ⟨orderly, calm, _⟩ := peaceful
  exact {
    panics := fun w traces q => takesDown_of_crash orderly
    reported := orderly.reported
    stopped := calm.stopped
    accepted := fun left open_ ticket how => calm.accepted_of_left left open_
    begun := fun l q ticket e step kept left => calm.begun_of_refused step kept left
    followed := fun ticket s => orderly.fate
    bounded := fun ls q run ongoing =>
      Nat.le_trans (Nat.le_add_left _ _) (left_pieces orderly run ongoing)
    rests := exists_quiet orderly
    concluded := fun quiet ticket s => quiet.concluded orderly calm
    joins := fun quiet => by
      cases joined : f.pool.joined with
      | none =>
        have unsent := (quiet.ended orderly).1
        exact Or.inr (by simp [beginJoin, joined, close, unsent])
      | some k => exact Or.inl (quiet.isJoined orderly (by simp [joined]))
    mourned := fun joined => by
      refine ⟨isQuiet_of_isJoined orderly.chronicle joined, ?_⟩
      have past : f.pool.passed = f.pool.workers.length := by
        rw [passed, beq_iff_eq.mp joined]
        rfl
      rw [orderly.mourns.mourned, past] }

theorem Peaceful.ceases (peaceful : Peaceful f) (deserted : IsDeserted f.pool) :
    Ceases parse f := by
  obtain ⟨orderly, calm, offered⟩ := id peaceful
  have agrees := calm.agrees
  exact {
    pending := fun ticket => deserted.isShut orderly calm
    submits := deserted.submit orderly calm
    never := fun ls q run => by
      obtain ⟨still, chronicle, got⟩ := deserted.pieces orderly.chronicle run
      refine ⟨still, fun ticket absent => ?_⟩
      rw [← got] at absent
      exact ⟨absent, (chronicle.silent ticket absent).events⟩
    offers := fun g ticket line step reads offers => by
      cases moves_of_step step with
      | input change => cases reads.symm.trans offers
      | @feed _ p _ feeds stepped =>
        cases feeds with
        | look waits => cases reads.symm.trans waits
        | read _ polled takes =>
          cases takes with
          | submit line text job =>
            cases offers
            have piece : f.pool.stepPiece (.whole (.submit job)) = some p := stepped
            rw [deserted.got_iff agrees piece]
            rintro ⟨turn, got⟩
            exact absurd (agrees.lt_length_of_got got) (Nat.lt_irrefl _)
          | _ => cases offers
    stops := fun ticket line offers absent ls g run kept =>
      (holds_of_steps (Cornered · ticket line) (fun _ _ _ => cornered_step)
        ⟨peaceful, deserted, absent, Or.inl offers⟩ run kept).feeding
    drops := fun ticket line offers absent =>
      Cornered.drops ⟨peaceful, deserted, absent, Or.inl offers⟩ offers }

end Fed

/-- A worker that is mourned is logged as such, and nothing else is, unless an action logs
the same words. -/
theorem entry?_eq_taskFailed_iff {e : Event} :
    e.entry? = some taskFailed ↔ (∃ w, e = .mourned w) ∨ e = .noted taskFailed := by
  cases e <;> simp [Event.entry?, taskFailed]

/-- In every state of a run that is not cancelled, however polls overlap and whatever the
feeder does:

* a panic takes its own worker down and nothing else, as long as a worker is left no
  submission fails that is begun before the close, the pool comes to rest, and then every
  job that was accepted was followed to its end, but for those that took their workers down,
* once no worker is left, every submission whose job no worker has ends as closed, the job
  never runs, and the feeder drops the line that it offers and reads no further,
* when the client has waited for all workers it has logged one error for each that was
  taken down, in the order of their numbers. -/
theorem panics_are_isolated {ρ : Type} {s : Settings} {build : Nat → Except (List String) ρ}
    {p₀ : Pool α} {parse : Parse α} {intake : Intake} {ls : List (Fed.Label α)} {f : Fed α}
    (opened : openWith s build false = .ok p₀)
    (run : Fed.steps parse ⟨p₀, .new intake⟩ ls = some f) (kept : ∀ l ∈ ls, l.cancels = false) :
    Isolates f.pool ∧ (IsDeserted f.pool → Ceases parse f) ∧
      ∀ e : Event, e.entry? = some taskFailed ↔ (∃ w, e = .mourned w) ∨ e = .noted taskFailed := by
  cases openWith_eq_ok opened
  have peaceful := Fed.holds_of_steps Fed.Peaceful (fun _ _ _ => Fed.peaceful_step)
    (Fed.peaceful_started s intake) run kept
  exact ⟨peaceful.isolates, peaceful.ceases, fun e => entry?_eq_taskFailed_iff⟩

/-- Both workers are in attempts, and a feeder offers the job of its line, which lies in the
slot when the attempts panic one after the other. -/
def collapse : List (Fed.Label Unit) :=
  [.pool (.whole (.submit tryFirst)), .pool (.whole (.look 0)), .pool (.whole (.start 0)),
    .pool (.whole (.submit cleanUp)), .pool (.whole (.look 1)), .pool (.whole (.start 1)), .feed,
    .pool (.whole (.crash 1 .none)), .pool (.whole (.crash 0 .none))]

/-- The feeder drops its line, and the client joins. -/
def aftermath : List (Fed.Label Unit) :=
  [.feed, .feed, .pool (.whole (.pollSubmit 0)), .pool (.whole (.pollSubmit 1)),
    .pool (.whole .beginJoin), .pool (.whole .join), .pool (.whole .join)]

/-- A line is the label of a job. -/
def labelled : Parse Unit := fun line => .ok (.single line ())

/-- A feeder that has one line to read, and its pool. -/
def tidying : Fed Unit := ⟨started pair false, .new (.single "tidy up")⟩

theorem panics_are_isolated_collapse :
    ∃ f f' : Fed Unit, tidying.steps labelled collapse = some f ∧
      tidying.steps labelled (collapse ++ aftermath) = some f' ∧
      openWith pair (fun _ => .ok ()) false = .ok tidying.pool ∧
      IsDeserted f.pool ∧ f.pool.queue.IsShut 2 ∧
      (∃ g, (f.steps labelled [.feed] = some g ∨ f.steps labelled [.feed, .feed] = some g) ∧
        g.HasDropped "tidy up") ∧
      f'.pool.isJoined = true ∧ f'.pool.mourned = [0, 1] ∧
      ∀ ticket s, f'.pool.queue.sends[ticket]? = some s → Concluded f'.pool ticket s := by
  have opened : openWith pair (fun _ => (.ok () : Except (List String) Unit)) false =
      .ok tidying.pool := by
    rfl
  have kept : ∀ l ∈ collapse ++ aftermath, l.cancels = false := by
    simp [collapse, aftermath, Fed.Label.cancels, Piece.cancels]
  have crashed : (tidying.steps labelled collapse).map (fun f =>
      (decide (IsDeserted f.pool), f.pool.queue.recvs, f.pool.queue.sends.length,
        f.feeder.feeding, f.pool.joined)) =
      some (true, [.got 0, .got 1], 3, .offering 2 "tidy up", none) := by
    decide +kernel
  have ended : (tidying.steps labelled (collapse ++ aftermath)).map (fun f =>
      (f.pool.isJoined, (List.range f.pool.workers.length).filter f.pool.isDown)) =
      some (true, [0, 1]) := by
    decide +kernel
  obtain ⟨f, run, values⟩ := Option.map_eq_some_iff.mp crashed
  obtain ⟨f', whole, values'⟩ := Option.map_eq_some_iff.mp ended
  obtain ⟨deserted, recvs, sends, offers, unjoined⟩ := by simpa only [Prod.mk.injEq] using values
  obtain ⟨joined, down⟩ := by simpa only [Prod.mk.injEq] using values'
  have absent : ¬ f.pool.queue.Got 2 := by
    rintro ⟨turn, got⟩
    have member := List.mem_of_getElem? got
    rw [recvs] at member
    simp at member
  obtain ⟨_, ceases, _⟩ :=
    panics_are_isolated opened run fun l member => kept l (List.mem_append_left _ member)
  obtain ⟨isolates, _⟩ := panics_are_isolated opened whole kept
  have alone := ceases (of_decide_eq_true deserted)
  obtain ⟨quiet, mourned⟩ := isolates.mourned joined
  refine ⟨f, f', run, whole, opened, of_decide_eq_true deserted, ?_, ?_, joined, ?_, ?_⟩
  · exact alone.pending 2 (by omega) absent
  · exact alone.drops 2 "tidy up" offers absent unjoined
  · rw [mourned, down]
  · exact isolates.concluded quiet

end CommandPool.Pool
