import CommandPool.Proofs.Pool.Balance
import CommandPool.Proofs.Pool.Itinerary
import CommandPool.Proofs.Pool.Steady

/-!
# The schedule does not matter

Take a run that nothing disturbs, in which the result of each attempt depends only on the
node and on how often it was attempted.  Then what has happened to a job and what is ahead
of it are together its itinerary, and by the end of the run no more is ahead.  So two such
runs do the same to the same job, and count the same, whichever workers take the jobs, in
whatever order and at whatever times.
-/

namespace CommandPool.Pool

variable {α : Type} {p p' : Pool α} {result : Results α}

/-! ## Runs that go as known -/

/-- An attempt panics. -/
def Piece.crashes : Piece α → Bool
  | .whole (.crash ..) => true
  | _ => false

/-- The run is cancelled, an attempt panics, or a line is rejected. -/
def Piece.disturbs (l : Piece α) : Bool := l.cancels || l.crashes || l.rejects

/-- No job is submitted after the client said that no more come. -/
def Timely (ls : List (Piece α)) : Prop :=
  ls.Pairwise fun before after => before.closes = true → after.job? = none

/-- If an attempt ends, it has the result for its node and the number of the attempts at
that node so far. -/
def Obeys (result : Results α) (p : Pool α) : Piece α → Prop
  | .whole (.finish w report) => ∀ t, p.phase? w = some (.attempting t) →
      report.result = result t.job (countAt Event.isAttempt p.history t.ticket t.node)
  | _ => True

/-- In this run these jobs are submitted to a pool that is not closed yet, nothing disturbs
them, the attempts have these results, and the client waits for all workers. -/
structure Serves (result : Results α) (jobs : List (Job α)) (p₀ : Pool α) (ls : List (Piece α))
    (p : Pool α) : Prop where
  run : p₀.pieces ls = some p
  submitted : (ls.filterMap (·.job?)).Perm jobs
  timely : Timely ls
  undisturbed : ∀ l ∈ ls, l.disturbs = false
  obeyed : Throughout stepPiece (Obeys result) p₀ ls
  joined : p.isJoined = true

/-! ## The end of an attempt -/

/-- The event that an attempt ends with, if the run is not cancelled. -/
theorem history_finish {w : Nat} {t : Task α} {report : Report} (running : p.cancelled = false)
    (at_w : p.phase? w = some (.attempting t)) (step : p.finish w report = some p') :
    ∃ notes : List Event, (∀ e ∈ notes, e.spot? = none) ∧
      p'.history = t.word p.settings w report.result :: (notes ++ p.history) := by
  obtain ⟨_, queue, settings, _, history⟩ := record_fields p report.traces
  have onward : ∀ {r : Pool α} {t' : Task α} {outcome : Outcome},
      (r.proceed w t' outcome).history = r.history :=
    (proceed_fields _ w _ _).choose_spec.2.2.2.2.2
  refine ⟨(report.traces.log.map .noted).reverse, ?_, ?_⟩
  · simp [Event.spot?]
  · rw [← history]
    unfold finish at step
    rw [at_w] at step
    cases known : report.result with
    | ok =>
      simp only [known] at step
      cases step
      exact onward
    | error e =>
      simp only [known] at step
      cases step
      rw [Task.word, ← settings]
      unfold afterError
      split
      next =>
        have still : (p.record report.traces).cancelled = false := by
          rw [Pool.cancelled, queue]
          exact running
        dsimp only
        split
        next cancelled => cases still.symm.trans cancelled
        next => rfl
      next => exact onward

theorem phase?_of_stage?_attempting {w : Nat} {t : Task α}
    (here : p.stage? w = some (.attempting t)) : p.phase? w = some (.attempting t) := by
  obtain ⟨phase, at_w, stage⟩ := Option.bind_eq_some_iff.mp here
  cases phase <;> cases stage
  exact at_w

/-- An attempt is moved on by its end or by a panic. -/
theorem ends_of_named {l : Piece α} {w : Nat} {t : Task α}
    (at_w : p.phase? w = some (.attempting t)) (step : p.stepPiece l = some p')
    (named : l.worker? = some w) :
    (∃ report, l = .whole (.finish w report)) ∨ l.crashes = true := by
  cases l with
  | whole l =>
    cases l <;> cases named
    next =>
      obtain ⟨phase, here, step⟩ := Option.bind_eq_some_iff.mp step
      cases at_w.symm.trans here
      cases step
    next =>
      simp only [stepPiece, Pool.step, start, at_w] at step
      cases step
    next report => exact Or.inl ⟨report, rfl⟩
    next => exact Or.inr rfl
    next =>
      simp only [stepPiece, Pool.step, wake, at_w] at step
      cases step
  | ask w =>
    cases named
    simp only [stepPiece, at_w] at step
    cases step
  | take w =>
    cases named
    simp only [stepPiece, at_w] at step
    cases step
  | _ => cases named

/-- An attempt does not lead to an attempt. -/
theorem Move.not_attempting {s : Settings} {w : Nat} {cancelled : Bool} {t t' : Task α}
    {new : List Event} {b : Stage α} (move : Move s w cancelled (.attempting t) new b) :
    b ≠ .attempting t' := by
  have onward : ∀ (t : Task α) (outcome : Outcome), t.onward outcome ≠ .attempting t' := by
    intro t outcome
    unfold Task.onward
    split <;> simp
  cases move <;> first | exact onward _ _ | simp

/-- The event with which an attempt ends is about its job. -/
theorem Task.isAbout_word (t : Task α) (s : Settings) (w : Nat) (r : Except JobError Unit) :
    (t.word s w r).isAbout t.ticket = true := by
  have about : ∀ e : Event, e.spot? = some (t.spot w) → e.isAbout t.ticket = true := by
    intro e at_spot
    rw [Event.isAbout, at_spot]
    exact beq_self_eq_true t.ticket
  cases r with
  | ok => exact about _ rfl
  | error e =>
    rw [Task.word]
    split <;> exact about _ rfl

/-- A move of a job in a piece that obeys the results is one of its itinerary. -/
theorem Heard.abides {l : Piece α} {ticket w : Nat} {s s' : Send (Job α)} {a b : Stage α}
    {new : List Event} (heard : p.Heard ticket w s a) (heard' : p'.Heard ticket w s' b)
    (events : eventsOf p'.history ticket = new ++ eventsOf p.history ticket)
    (move : Move p.settings w p.cancelled a new b) (agrees : p.queue.Agrees)
    (running : p.cancelled = false) (step : p.stepPiece l = some p') (obeys : Obeys result p l)
    (unharmed : l.crashes = false) : Abides result p.settings w a new := by
  rintro t rfl
  have here : p.At w (.attempting t) ticket := (heard.holder w _).mpr ⟨rfl, rfl⟩
  have at_w := phase?_of_stage?_attempting here.1
  by_cases named : l.worker? = some w
  · rcases ends_of_named at_w step named with ⟨report, rfl⟩ | crashes
    · have mine : t.ticket = ticket := heard.follows.ticket.1 t rfl
      have number : countAt Event.isAttempt p.history t.ticket t.node = t.retries + 1 := by
        rw [mine, ← countAt_eventsOf]
        exact heard.follows.attempts_at rfl rfl
      have known := obeys t at_w
      obtain ⟨notes, spotless, history⟩ := history_finish running at_w step
      rw [number] at known
      rw [known] at history
      have whole : eventsOf [t.word p.settings w (result t.job (t.retries + 1))] ticket = [_] :=
        List.filter_cons_of_pos (mine ▸ t.isAbout_word p.settings w _)
      rw [history, ← List.singleton_append, eventsOf_append, eventsOf_notes spotless, whole]
        at events
      exact (List.append_cancel_right events).symm
    · cases unharmed.symm.trans crashes
  · have same : p'.stage? w = some (.attempting t) := by
      rw [stage?, phase?_of_unnamed agrees step named]
      exact here.1
    obtain ⟨_, shown⟩ := (heard'.holder w _).mp ⟨same, here.2⟩
    exact absurd (Stage.shown_eq_some_iff.mp shown).1.symm move.not_attempting

/-! ## Jobs keep to their itineraries -/

/-- What has happened to a job and what is ahead of it are together its itinerary. -/
def Charted (result : Results α) (p : Pool α) : Prop :=
  ∀ ticket, p.queue.Got ticket → ∃ w s stage, p.Heard ticket w s stage ∧
    marks (eventsOf p.history ticket) ++ stage.prospect result p.settings.maxRetries =
      itinerary result p.settings.maxRetries s.job.toChain

theorem charted_stepPiece {l : Piece α} (charted : Charted result p) (chronicle : Chronicle p)
    (running : p.cancelled = false) (step : p.stepPiece l = some p') (obeys : Obeys result p l)
    (unharmed : l.crashes = false) : Charted result p' := by
  obtain ⟨keeps, change⟩ := change_stepPiece chronicle.agrees step
  intro ticket gotten'
  rw [keeps.settings]
  by_cases gotten : p.queue.Got ticket
  · obtain ⟨w, s, a, heard, along⟩ := charted ticket gotten
    obtain ⟨s', b, new, heard', events, next⟩ := heard.next chronicle gotten keeps change
    obtain ⟨s'', found, job, _⟩ := keeps.sound.extends_.send ticket s heard.found
    cases heard'.found.symm.trans found
    refine ⟨w, s', b, heard', ?_⟩
    rw [events, job, ← along, marks_append, List.append_assoc]
    rcases next with ⟨rfl, rfl⟩ | move
    · rfl
    · have abides := heard.abides heard' events move chronicle.agrees running step obeys unharmed
      rw [running] at move
      rw [move.prospect abides]
  · cases change with
    | aside _ _ got => exact absurd ((got ticket).mp gotten') gotten
    | moved _ _ _ _ _ _ _ _ got => exact absurd ((got ticket).mp gotten') gotten
    | taken w taken s without fresh found stages events got =>
      cases ((got ticket).mp gotten').resolve_right gotten
      refine ⟨w, s, _, chronicle.heard_taken fresh found stages (events ticket), ?_⟩
      rw [events, (chronicle.silent ticket fresh).events]
      exact prospect_ready result p.settings.maxRetries ticket 0 s.job false

/-! ## Runs -/

/-- A run that nothing disturbs, up to now. -/
structure Smooth (result : Results α) (p : Pool α) : Prop where
  chronicle : Chronicle p
  steady : Steady p
  tallied : Tallied p
  charted : Charted result p
  unrejected : p.rejections = 0
  unharmed : ∀ w, p.phase? w ≠ some .panicked

theorem unharmed_stepPiece {l : Piece α} (agrees : p.queue.Agrees)
    (unharmed : ∀ w, p.phase? w ≠ some .panicked) (step : p.stepPiece l = some p')
    (crashes : l.crashes = false) (w : Nat) : p'.phase? w ≠ some .panicked := by
  intro down
  rcases leaves_stepPiece agrees step down rfl with before | leaves
  · exact unharmed w before
  · cases leaves with
    | crashed traces here =>
      rw [here] at crashes
      cases crashes

theorem smooth_stepPiece {l : Piece α} (smooth : Smooth result p)
    (step : p.stepPiece l = some p') (undisturbed : l.disturbs = false) (obeys : Obeys result p l)
    (timely : l.job?.isSome = true → p.queue.senderOpen = true) : Smooth result p' := by
  simp only [Piece.disturbs, Bool.or_eq_false_iff] at undisturbed
  obtain ⟨⟨kept, crashes⟩, rejects⟩ := undisturbed
  obtain ⟨chronicle, steady, tallied, charted, unrejected, unharmed⟩ := smooth
  obtain ⟨keeps, change⟩ := change_stepPiece chronicle.agrees step
  obtain ⟨new, adds, _⟩ := adds_stepPiece step
  refine ⟨chronicle_change chronicle keeps change, steady_stepPiece steady step kept timely,
    tallied.adds adds, charted_stepPiece charted chronicle steady.running step obeys crashes, ?_,
    unharmed_stepPiece chronicle.agrees unharmed step crashes⟩
  rw [rejections_stepPiece step, unrejected, rejects]
  rfl

theorem smooth_started (result : Results α) (s : Settings) :
    Smooth result (started s false : Pool α) where
  chronicle := chronicle_started s false
  steady := steady_started s
  tallied := tallied_started s false
  charted := by
    rintro ticket ⟨turn, got⟩
    cases got
  unrejected := rfl
  unharmed := by
    intro w down
    cases (List.mem_replicate.mp (List.mem_of_getElem? down)).2

/-- The rest of a run is smooth too, as far as its jobs come before the pool is closed. -/
theorem smooth_pieces {ls : List (Piece α)} (smooth : Smooth result p)
    (run : p.pieces ls = some p') (undisturbed : ∀ l ∈ ls, l.disturbs = false)
    (obeyed : Throughout stepPiece (Obeys result) p ls) (timely : Timely ls)
    (open_ : p.queue.senderOpen = false → ∀ l ∈ ls, l.job? = none) : Smooth result p' := by
  induction ls generalizing p with
  | nil => cases run; exact smooth
  | cons l ls ih =>
    obtain ⟨next, step, rest⟩ := Option.bind_eq_some_iff.mp run
    obtain ⟨now, undisturbed⟩ := List.forall_mem_cons.mp undisturbed
    obtain ⟨obeys, obeyed⟩ := obeyed
    obtain ⟨closes, timely⟩ := List.pairwise_cons.mp timely
    refine ih (smooth_stepPiece smooth step now obeys ?_) rest undisturbed (obeyed next step)
      timely ?_
    · intro submits
      refine Bool.of_not_eq_false fun closed => ?_
      rw [open_ closed l List.mem_cons_self] at submits
      cases submits
    · intro closed m member
      rw [(asks_stepPiece step).senderOpen, Bool.and_eq_false_iff, Bool.not_eq_false'] at closed
      rcases closed with before | now
      · exact open_ before m (List.mem_cons_of_mem _ member)
      · exact closes m member now

theorem jobs_pieces {ls : List (Piece α)} (run : p.pieces ls = some p') :
    p'.queue.jobs = p.queue.jobs ++ ls.filterMap (·.job?) := by
  induction ls generalizing p with
  | nil => cases run; exact (List.append_nil _).symm
  | cons l ls ih =>
    obtain ⟨next, step, rest⟩ := Option.bind_eq_some_iff.mp run
    rw [ih rest, (asks_stepPiece step).jobs, List.append_assoc]
    cases here : l.job? <;> simp [here]

theorem frame_pieces {ls : List (Piece α)} (agrees : p.queue.Agrees)
    (run : p.pieces ls = some p') :
    p'.settings = p.settings ∧ p'.workers.length = p.workers.length := by
  let so : Pool α → Prop := fun q =>
    q.queue.Agrees ∧ q.settings = p.settings ∧ q.workers.length = p.workers.length
  have kept : ∀ q q' l, so q → stepPiece q l = some q' → so q' := by
    intro q q' l ⟨agrees, settings, count⟩ step
    have keeps := (change_stepPiece agrees step).1
    exact ⟨keeps.sound.agrees, keeps.settings.trans settings, keeps.count.trans count⟩
  exact (holds_of_pieces so kept ⟨agrees, rfl, rfl⟩ run).2

/-! ## Where a run ends -/

/-- The attempts at a job that were started, each with the label and the number. -/
def tries (p : Pool α) (ticket : Nat) : List (String × Nat) :=
  (eventsOf p.history ticket).reverse.filterMap fun
    | .attempted spot number => some (spot.label, number)
    | _ => none

/-- An attempt that a mark tells of. -/
def Mark.attempted? : Mark → Option (String × Nat)
  | .attempt label number => some (label, number)
  | _ => none

theorem tries_eq (p : Pool α) (ticket : Nat) :
    p.tries ticket = (marks (eventsOf p.history ticket)).filterMap (·.attempted?) := by
  rw [tries, marks, List.filterMap_filterMap]
  congr 1
  funext e
  cases e <;> rfl

/-- In the end each job has had its whole itinerary. -/
theorem Smooth.marks_of_isJoined {ticket : Nat} {job : Job α} (smooth : Smooth result p)
    (manned : 0 < p.workers.length) (joined : p.isJoined = true)
    (found : p.queue.jobs[ticket]? = some job) : marks (eventsOf p.history ticket) =
      itinerary result p.settings.maxRetries job.toChain := by
  obtain ⟨chronicle, steady, _, charted, _, unharmed⟩ := smooth
  have spared : IsSpared p :=
    ⟨0, p.workers[0], List.getElem?_eq_getElem manned, fun down =>
      unharmed 0 (down ▸ List.getElem?_eq_getElem manned)⟩
  rw [Handoff.jobs, List.getElem?_map] at found
  obtain ⟨sent, at_ticket, rfl⟩ := Option.map_eq_some_iff.mp found
  have gone := (chronicle.joined _ (beq_iff_eq.mp joined)).1
  have accepted := steady.all_accepted spared gone (List.getElem?_eq_some_iff.mp at_ticket).1
  obtain ⟨w, s, stage, heard, along⟩ :=
    charted ticket ((chronicle.agrees.accepted_iff accepted).mp rfl)
  cases heard.found.symm.trans at_ticket
  rcases heard.ended_of_isJoined chronicle joined with rfl | ⟨interrupted, rfl⟩
  · rwa [Stage.prospect, List.append_nil] at along
  · rwa [Stage.prospect, List.append_nil] at along

/-! ## Totals -/

/-- The event has this mark. -/
def Event.isMarked (m : Mark) (e : Event) : Bool := e.mark? == some m

theorem isSpotted_isMarked (m : Mark) : IsSpotted (·.isMarked m) := by
  rintro e kind
  cases e <;> first | exact ⟨_, rfl⟩ | cases kind

theorem count_marks (events : List Event) (m : Mark) :
    (marks events).count m = events.countP (·.isMarked m) := by
  rw [marks, List.count_filterMap, List.countP_reverse]
  rfl

/-- A history has the marks of its jobs. -/
theorem countP_isMarked {history : List Event} {n : Nat} (m : Mark)
    (all : ∀ e ∈ history, ∀ spot, e.spot? = some spot → e.isBelow n = true) :
    history.countP (·.isMarked m) =
      ((List.range n).flatMap fun ticket => marks (eventsOf history ticket)).count m := by
  rw [← countP_isBelow (isSpotted_isMarked m) all]
  clear all
  induction n with
  | zero => simp [Event.isBelow]
  | succ n ih =>
    rw [countP_below_succ, ih, List.range_succ, List.flatMap_append, List.count_append,
      List.flatMap_singleton, count_marks]

/-- All events are about jobs that were sent. -/
theorem Chronicle.isBelow (chronicle : Chronicle p) :
    ∀ e ∈ p.history, ∀ spot, e.spot? = some spot → e.isBelow p.queue.sends.length = true := by
  intro e member spot about
  rw [Event.isBelow, about]
  refine decide_eq_true ?_
  by_cases got : p.queue.Got spot.ticket
  · obtain ⟨state, at_ticket, _⟩ := (chronicle.agrees.got_iff spot.ticket).mp got
    exact Handoff.lt_length_of_sendState? at_ticket
  · have mine : e ∈ eventsOf p.history spot.ticket :=
      List.mem_filter.mpr ⟨member, by simp [Event.isAbout, about]⟩
    rw [(chronicle.silent spot.ticket got).events] at mine
    cases mine

/-- In the end the marks are those in the itineraries of the jobs. -/
theorem Smooth.countP_isMarked (smooth : Smooth result p) (manned : 0 < p.workers.length)
    (joined : p.isJoined = true) (m : Mark) : p.history.countP (·.isMarked m) =
      (p.queue.jobs.flatMap fun job =>
        itinerary result p.settings.maxRetries job.toChain).count m := by
  rw [Pool.countP_isMarked m smooth.chronicle.isBelow, List.flatMap_def, List.flatMap_def]
  refine congrArg (List.count m ·.flatten) (List.ext_getElem ?_ fun ticket inside inside' => ?_)
  · simp [Handoff.jobs]
  · simp only [List.length_map] at inside'
    rw [List.getElem_map, List.getElem_map, List.getElem_range,
      smooth.marks_of_isJoined manned joined (List.getElem?_eq_getElem inside')]

theorem Smooth.counters (smooth : Smooth result p) :
    p.counters.success = p.history.countP (·.isMarked .success) ∧
      p.counters.fail = p.history.countP (·.isMarked .failure) ∧
      p.counters.retryOp = p.history.countP (·.isMarked .retry) := by
  obtain ⟨success, fail, retryOp⟩ := smooth.tallied.counters
  rw [smooth.unrejected, Nat.add_zero] at fail
  refine ⟨success.trans ?_, fail.trans ?_, retryOp.trans ?_⟩ <;>
    refine List.countP_congr fun e _ => ?_ <;> cases e <;>
    simp [Event.isMarked, Event.mark?, Event.isSuccess, Event.isFailure, Event.isWaited]

/-! ## Two runs -/

/-- A pool that opens has a worker. -/
theorem workers_pos_of_openWith {ρ : Type} {s : Settings} {build : Nat → Except (List String) ρ}
    {cancelled : Bool} {p₀ : Pool α} (opened : openWith s build cancelled = .ok p₀) :
    0 < p₀.workers.length := by
  rw [openWith_eq_ok opened]
  show 0 < (List.replicate s.workers (.idle : Phase α)).length
  rw [List.length_replicate]
  refine Nat.pos_of_ne_zero fun none => ?_
  rw [openWith, Settings.validate, if_pos none] at opened
  cases opened

/-- A run that serves jobs is smooth, and has all of them. -/
theorem Serves.smooth {ρ : Type} {s : Settings} {build : Nat → Except (List String) ρ}
    {p₀ : Pool α} {jobs : List (Job α)} {ls : List (Piece α)}
    (serves : Serves result jobs p₀ ls p) (opened : openWith s build false = .ok p₀) :
    Smooth result p ∧ p.settings = s ∧ 0 < p.workers.length ∧ p.queue.jobs.Perm jobs := by
  have manned := workers_pos_of_openWith opened
  rw [openWith_eq_ok opened] at manned serves
  have begins := smooth_started result s
  obtain ⟨settings, count⟩ := frame_pieces begins.chronicle.agrees serves.run
  refine ⟨?_, settings, count ▸ manned, ?_⟩
  · refine smooth_pieces begins serves.run serves.undisturbed serves.obeyed serves.timely ?_
    intro closed
    cases closed
  · rw [jobs_pieces serves.run]
    exact serves.submitted

/-- Two pools serve the same jobs, with the same results of attempts and as many retries.
However many workers they have, in whatever order the jobs are submitted, and however
everything overlaps: the same job has the same attempts in both runs, and the nodes and
retries are counted alike. -/
theorem schedules_agree {ρ ρ' : Type} {s s' : Settings} {build : Nat → Except (List String) ρ}
    {build' : Nat → Except (List String) ρ'} {p₀ p₀' : Pool α} {jobs : List (Job α)}
    {ls ls' : List (Piece α)} (opened : openWith s build false = .ok p₀)
    (opened' : openWith s' build' false = .ok p₀') (retries : s.maxRetries = s'.maxRetries)
    (serves : Serves result jobs p₀ ls p) (serves' : Serves result jobs p₀' ls' p') :
    p.queue.jobs.Perm jobs ∧ p'.queue.jobs.Perm jobs ∧
    (∀ i j job, p.queue.jobs[i]? = some job → p'.queue.jobs[j]? = some job →
      p.tries i = p'.tries j) ∧
    p.counters.success = p'.counters.success ∧ p.counters.fail = p'.counters.fail ∧
    p.counters.retryOp = p'.counters.retryOp := by
  obtain ⟨smooth, settings, manned, perm⟩ := serves.smooth opened
  obtain ⟨smooth', settings', manned', perm'⟩ := serves'.smooth opened'
  have totals : ∀ m, p.history.countP (·.isMarked m) = p'.history.countP (·.isMarked m) := by
    intro m
    rw [smooth.countP_isMarked manned serves.joined, smooth'.countP_isMarked manned' serves'.joined,
      settings, settings', retries]
    exact ((perm.trans perm'.symm).flatMap_right _).count_eq m
  obtain ⟨success, fail, retryOp⟩ := smooth.counters
  obtain ⟨success', fail', retryOp'⟩ := smooth'.counters
  refine ⟨perm, perm', fun i j job at_i at_j => ?_, ?_, ?_, ?_⟩
  · rw [tries_eq, tries_eq, smooth.marks_of_isJoined manned serves.joined at_i,
      smooth'.marks_of_isJoined manned' serves'.joined at_j, settings, settings', retries]
  · rw [success, success', totals]
  · rw [fail, fail', totals]
  · rw [retryOp, retryOp', totals]

/-- One worker. -/
def alone : Settings := { workers := 1, maxRetries := 1 }

/-- The first attempt at any `try` is throttled, and the others fail.  All else succeeds. -/
def grudging : Results Unit := fun job number =>
  if job.label = "try" then
    if number = 1 then .error (.throttled "slow down") else .error (.other "broken" [])
  else .ok ()

/-- Two workers have a job each at the same time. -/
def together : List (Piece Unit) :=
  [.whole (.submit tryFirst), .whole (.submit cleanUp), .whole (.look 0), .whole (.pollSubmit 0),
    .whole (.pollSubmit 1), .whole (.look 1), .whole (.pollSubmit 1), .whole (.start 0),
    .whole (.start 1), .whole (.finish 0 (.plain (.error (.throttled "slow down")))),
    .whole (.finish 1 (.plain (.ok ()))), .whole (.wake 0), .whole (.start 0),
    .whole (.finish 0 (.plain (.error (.other "broken" [])))), .whole (.start 0),
    .whole (.finish 0 (.plain (.ok ()))), .whole .beginJoin, .whole (.look 0), .whole (.look 1),
    .whole .join, .whole .join]

/-- One worker has the same jobs one after the other, the last one first. -/
def inTurn : List (Piece Unit) :=
  [.whole (.submit cleanUp), .ask 0, .whole (.look 0), .whole (.pollSubmit 0), .whole (.start 0),
    .whole (.submit tryFirst), .whole (.finish 0 (.plain (.ok ()))), .whole (.look 0),
    .whole (.pollSubmit 1), .whole (.start 0),
    .whole (.finish 0 (.plain (.error (.throttled "slow down")))), .whole .close,
    .whole (.wake 0), .whole (.start 0),
    .whole (.finish 0 (.plain (.error (.other "broken" [])))), .whole (.start 0),
    .whole (.finish 0 (.plain (.ok ()))), .whole (.look 0), .whole .beginJoin, .whole .join]

theorem serves_together {p : Pool Unit} (run : (started pair false).pieces together = some p) :
    Serves grudging [tryFirst, cleanUp] (started pair false) together p := by
  refine ⟨run, .refl _, ?_, ?_, ?_, ?_⟩
  · simp [Timely, together, Piece.closes, Piece.job?]
  · simp [together, Piece.disturbs, Piece.cancels, Piece.crashes, Piece.rejects]
  · -- All pieces but the four ends of attempts obey trivially.
    repeat' first
      | exact trivial
      | refine throughout_cons ?_ rfl ?_
      | (intro t here; cases here; rfl)
  · cases run
    rfl

theorem serves_inTurn {p : Pool Unit} (run : (started alone false).pieces inTurn = some p) :
    Serves grudging [tryFirst, cleanUp] (started alone false) inTurn p := by
  refine ⟨run, .swap _ _ _, ?_, ?_, ?_, ?_⟩
  · simp [Timely, inTurn, Piece.closes, Piece.job?]
  · simp [inTurn, Piece.disturbs, Piece.cancels, Piece.crashes, Piece.rejects]
  · repeat' first
      | exact trivial
      | refine throughout_cons ?_ rfl ?_
      | (intro t here; cases here; rfl)
  · cases run
    rfl

theorem schedules_agree_grudging :
    ∃ p p' : Pool Unit, Serves grudging [tryFirst, cleanUp] (started pair false) together p ∧
      Serves grudging [tryFirst, cleanUp] (started alone false) inTurn p' ∧
      openWith pair (fun _ => .ok ()) false = .ok (started pair false : Pool Unit) ∧
      openWith alone (fun _ => .ok ()) false = .ok (started alone false : Pool Unit) ∧
      p.queue.jobs[0]? = some tryFirst ∧ p'.queue.jobs[1]? = some tryFirst ∧
      p.tries 0 = p'.tries 1 ∧ p.tries 0 = [("try", 1), ("try", 2), ("clean up", 1)] ∧
      p.counters.success = p'.counters.success ∧ p.counters.fail = p'.counters.fail ∧
      p.counters.retryOp = p'.counters.retryOp ∧ p.counters = ⟨2, 1, 1, 0, 0⟩ := by
  have opened : openWith pair (fun _ => (.ok () : Except (List String) Unit)) false =
      .ok (started pair false : Pool Unit) := by
    rfl
  have opened' : openWith alone (fun _ => (.ok () : Except (List String) Unit)) false =
      .ok (started alone false : Pool Unit) := by
    rfl
  have run : (started pair false).pieces together = some _ := rfl
  have run' : (started alone false).pieces inTurn = some _ := rfl
  have serves := serves_together run
  have serves' := serves_inTurn run'
  obtain ⟨_, _, alike, success, fail, retryOp⟩ :=
    schedules_agree opened opened' rfl serves serves'
  exact ⟨_, _, serves, serves', opened, opened', rfl, rfl, alike 0 1 tryFirst rfl rfl, rfl,
    success, fail, retryOp, rfl⟩

end CommandPool.Pool
