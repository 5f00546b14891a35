import CommandPool.Proofs.Lines.Readings
import CommandPool.Proofs.Pool.Balance
import CommandPool.Proofs.Pool.Steady

/-!
# Nothing that is read is left out

Take a run in which only the feeder submits jobs and closes the pool, and nobody cancels.
If a worker is spared, the feeder gets rid of every job, so it goes on until it finds the
end of its input or a fault.  If moreover no line is rejected, each command in front of the
first fault has become a job, in order, and each of these jobs is accepted.
-/

namespace CommandPool.Pool

open Lines (Draw linesOf)

variable {α : Type} {parse : Parse α} {p p' : Pool α}

/-! ## Later states -/

theorem spared_of_pieces {ls : List (Piece α)} (agrees : p.queue.Agrees)
    (run : p.pieces ls = some p') (spared : IsSpared p') : IsSpared p := by
  let so : Pool α → Prop := fun q => q.queue.Agrees ∧ (IsSpared q → IsSpared p)
  have kept : ∀ q q' l, so q → stepPiece q l = some q' → so q' := by
    intro q q' l ⟨agrees, back⟩ step
    have keeps := (change_stepPiece agrees step).1
    exact ⟨keeps.sound.agrees, fun spared => back (spared.of_keeps keeps)⟩
  exact (holds_of_pieces so kept ⟨agrees, id⟩ run).2 spared

theorem rejections_le_of_pieces {ls : List (Piece α)} (run : p.pieces ls = some p') :
    p.rejections ≤ p'.rejections := by
  refine holds_of_pieces (p.rejections ≤ ·.rejections) (fun q q' l fewer step => ?_)
    (Nat.le_refl _) run
  rw [rejections_stepPiece step]
  exact Nat.le_add_right_of_le fewer

/-! ## Commands -/

/-- The commands that lines hold. -/
def commandsOf (lines : List String) : List String := lines.filterMap commandOf?

namespace Fed

variable {f f' : Fed α}

/-! ## Runs of a pool with one client -/

/-- What is drawn. -/
def Label.draw? : Label α → Option Draw
  | .draw got => some got
  | _ => none

/-- What is drawn in a run. -/
def draws (ls : List (Label α)) : List Draw := ls.filterMap (·.draw?)

theorem draws_cons (l : Label α) (ls : List (Label α)) :
    draws (l :: ls) = l.draw?.toList ++ draws ls := by
  rw [draws, List.filterMap_cons]
  cases l.draw? <;> rfl

/-- Nobody but the feeder submits jobs or rejects lines, the pool is closed only when the
feeder is finished, and the run is not cancelled. -/
def IsOwn (f : Fed α) : Label α → Prop
  | .pool l => l.job? = none ∧ l.rejects = false ∧ l.cancels = false ∧
      (l.closes = true → f.feeder.feeding = .finished)
  | _ => True

instance decidableIsOwn (f : Fed α) : (l : Label α) → Decidable (IsOwn f l)
  | .pool l => inferInstanceAs (Decidable (l.job? = none ∧ l.rejects = false ∧
      l.cancels = false ∧ (l.closes = true → f.feeder.feeding = .finished)))
  | .feed => .isTrue trivial
  | .arrive _ => .isTrue trivial
  | .inputEnds => .isTrue trivial
  | .draw _ => .isTrue trivial

/-- The state of such a run: it is not cancelled, the input is all there or drawn, and the
pool is open until the feeder is finished. -/
structure Tidy (f : Fed α) : Prop where
  steady : Steady f.pool
  settled : f.feeder.intake.Settled
  closed : f.pool.queue.senderOpen = false → f.feeder.feeding = .finished

theorem steady_stepIf {l : Option (Pool.Label α)} (steady : Steady p)
    (open_ : p.queue.senderOpen = true) (step : p.stepIf l = some p')
    (kept : ∀ m, l = some m → (Piece.whole m).cancels = false ∧ (Piece.whole m).closes = false) :
    Steady p' ∧ p'.queue.senderOpen = true := by
  cases l with
  | none => cases step; exact ⟨steady, open_⟩
  | some l =>
    obtain ⟨cancels, closes⟩ := kept l rfl
    have piece : p.stepPiece (.whole l) = some p' := step
    refine ⟨steady_stepPiece steady piece cancels fun _ => open_, ?_⟩
    rw [(asks_stepPiece piece).senderOpen, open_, closes]
    rfl

theorem Tidy.open_ (tidy : Tidy f) (busy : f.feeder.feeding ≠ .finished) :
    f.pool.queue.senderOpen = true :=
  Bool.of_not_eq_false fun closed => busy (tidy.closed closed)

theorem nothing_arrives (settled : f.feeder.intake.Settled) (bytes : List UInt8) :
    f.step parse (.arrive bytes) = none ∧ f.step parse .inputEnds = none := by
  have full : f.awaitsBytes = false := by
    unfold awaitsBytes
    split
    next r at_intake =>
      rw [at_intake] at settled
      rw [settled.2]
      rfl
    next => rfl
  exact ⟨if_neg (by simp [full]), if_neg (by simp [full])⟩

theorem tidy_step {l : Label α} (tidy : Tidy f) (own : IsOwn f l)
    (step : f.step parse l = some f') : Tidy f' := by
  obtain ⟨steady, settled, closed⟩ := tidy
  cases l with
  | pool l =>
    obtain ⟨p', piece, rfl⟩ := Option.map_eq_some_iff.mp step
    obtain ⟨job, _, cancels, closes⟩ := own
    refine ⟨steady_stepPiece steady piece cancels (by simp [job]), settled, fun now => ?_⟩
    rw [(asks_stepPiece piece).senderOpen, Bool.and_eq_false_iff, Bool.not_eq_false'] at now
    exact now.elim closed closes
  | feed =>
    obtain ⟨⟨p', feeder'⟩, fed, rfl⟩ := Option.map_eq_some_iff.mp step
    obtain ⟨l, feeds, stepped⟩ := feeds_of_step fed
    have open_ := Tidy.open_ ⟨steady, settled, closed⟩ (not_finished_of_feeds feeds)
    obtain ⟨steady', open'⟩ := steady_stepIf steady open_ stepped (kept_of_feeds feeds)
    refine ⟨steady', ?_, fun now => by rw [open'] at now; cases now⟩
    cases feeds with
    | read reads polled takes =>
      rw [steady.running] at polled
      exact (Intake.poll_takesOff settled polled []).1
    | look => exact settled
  | arrive bytes => cases (nothing_arrives settled bytes).1.symm.trans step
  | inputEnds => cases (nothing_arrives settled []).2.symm.trans step
  | draw got =>
    obtain ⟨hungers, step⟩ := Option.ite_none_right_eq_some.mp step
    cases step
    rw [Fed.hungers, steady.running, Bool.and_eq_true, Option.isNone_iff_eq_none] at hungers
    exact ⟨steady, (Intake.readings_receive settled hungers.2 []).1, closed⟩

theorem tidy_steps {ls : List (Label α)} (tidy : Tidy f) (run : f.steps parse ls = some f')
    (own : Throughout (step parse) IsOwn f ls) : Tidy f' := by
  induction ls generalizing f with
  | nil =>
    cases run
    exact tidy
  | cons l ls ih =>
    obtain ⟨next, step, rest⟩ := Option.bind_eq_some_iff.mp run
    exact ih (tidy_step tidy own.1 step) rest (own.2 next step)

/-! ## What a feeder gets done -/

/-- While a worker is spared and the feeder is not finished, no send fails. -/
theorem Tidy.accepted {ticket : Nat} {how : SendEnd} (tidy : Tidy f) (spared : IsSpared f.pool)
    (busy : f.feeder.feeding ≠ .finished) (ended : f.pool.queue.sendEnd? ticket = some how) :
    how = .accepted := by
  obtain ⟨steady, _, _⟩ := id tidy
  obtain ⟨w, phase, at_w, unharmed⟩ := spared
  refine steady.accepted_of_present (tidy.open_ busy) at_w ?_ ended
  cases phase with
  | stopped =>
    have gone := (Handoff.senderGone_iff.mp (steady.stopped w at_w)).1
    cases gone.symm.trans (tidy.open_ busy)
  | panicked => exact absurd rfl unharmed
  | _ => rfl

/-- The commands that the feeder has yet to read, if this is what will be drawn. -/
def ahead (f : Fed α) (later : List Draw) : List String :=
  if f.feeder.feeding = .finished then []
  else commandsOf (linesOf (f.feeder.intake.readings later))

theorem ahead_of_busy {later : List Draw} (busy : f.feeder.feeding ≠ .finished) :
    f.ahead later = commandsOf (linesOf (f.feeder.intake.readings later)) :=
  if_neg busy

/-- From `f` to `f'` these commands were read and made jobs of, in order. -/
structure Does (parse : Parse α) (f f' : Fed α) (before after texts : List String) : Prop where
  read : before = texts ++ after
  made : ∃ jobs, texts.map parse = jobs.map .ok ∧
    f'.pool.queue.jobs = f.pool.queue.jobs ++ jobs

theorem does_nothing {before after : List String} (read : before = after)
    (jobs : f'.pool.queue.jobs = f.pool.queue.jobs) : Does parse f f' before after [] :=
  ⟨read, [], rfl, jobs.trans (List.append_nil _).symm⟩

theorem Does.trans {f'' : Fed α} {before between after texts more : List String}
    (first : Does parse f f' before between texts) (second : Does parse f' f'' between after more) :
    Does parse f f'' before after (texts ++ more) := by
  obtain ⟨jobs, parsed, submitted⟩ := first.made
  obtain ⟨jobs', parsed', submitted'⟩ := second.made
  refine ⟨?_, jobs ++ jobs', ?_, ?_⟩
  · rw [first.read, second.read, List.append_assoc]
  · rw [List.map_append, parsed, parsed', List.map_append]
  · rw [submitted', submitted, List.append_assoc]

/-- A step that submits nothing. -/
theorem jobs_of_stepIf {l : Option (Pool.Label α)} (step : p.stepIf l = some p')
    (none : ∀ m, l = some m → (Piece.whole m).job? = none) : p'.queue.jobs = p.queue.jobs := by
  cases l with
  | none => cases step; rfl
  | some l =>
    have piece : p.stepPiece (.whole l) = some p' := step
    rw [(asks_stepPiece piece).jobs, none l rfl]
    exact List.append_nil _

theorem commandsOf_cons (line : String) (lines : List String) :
    commandsOf (line :: lines) = (commandOf? line).toList ++ commandsOf lines := by
  rw [commandsOf, List.filterMap_cons]
  cases commandOf? line <;> rfl

/-- A feeder that takes a reading does what the reading asks for. -/
theorem does_takes {reading : Lines.Reading} {intake : Intake} {l : Option (Pool.Label α)}
    {feeding : Feeding} {later : List Draw} (takes : Takes parse f.pool reading l feeding)
    (busy : f.feeder.feeding ≠ .finished)
    (takesOff : Lines.TakesOff reading (f.feeder.intake.readings later) (intake.readings later))
    (step : f.pool.stepIf l = some p') (unrejected : p'.rejections = 0) :
    ∃ texts, Does parse f ⟨p', ⟨intake, feeding⟩⟩ (f.ahead later)
      (ahead ⟨p', ⟨intake, feeding⟩⟩ later) texts := by
  rw [ahead_of_busy busy]
  cases takes with
  | skip line blank =>
    refine ⟨[], does_nothing ?_ (jobs_of_stepIf step nofun)⟩
    rw [takesOff.line line rfl, commandsOf_cons, blank]
    rfl
  | reject line text error command parsed =>
    have counted := rejections_stepPiece (l := .whole (.reject text error)) step
    rw [unrejected] at counted
    cases counted
  | submit line text job command parsed =>
    refine ⟨[text], ?_, [job], ?_, ?_⟩
    · rw [takesOff.line line rfl, commandsOf_cons, command]
      rfl
    · rw [List.map_singleton, List.map_singleton, parsed]
    · exact (asks_stepPiece (l := .whole (.submit job)) step).jobs
  | eof =>
    exact ⟨[], does_nothing (by rw [takesOff.other nofun]; rfl) (jobs_of_stepIf step nofun)⟩
  | cancelled =>
    exact ⟨[], does_nothing (by rw [takesOff.other nofun]; rfl) (jobs_of_stepIf step nofun)⟩
  | fault fault =>
    refine ⟨[], does_nothing (by rw [takesOff.other nofun]; rfl) (jobs_of_stepIf step ?_)⟩
    intro m here
    cases here
    rfl

/-- A feeder that looks at the job it offers goes on with the same input. -/
theorem does_looks {ticket : Nat} {line : String} {l : Option (Pool.Label α)}
    {feeding : Feeding} {later : List Draw} (tidy : Tidy f) (spared : IsSpared f.pool)
    (looks : Looks f.pool ticket line l feeding) (busy : f.feeder.feeding ≠ .finished)
    (step : f.pool.stepIf l = some p') :
    Does parse f ⟨p', ⟨f.feeder.intake, feeding⟩⟩ (f.ahead later)
      (ahead ⟨p', ⟨f.feeder.intake, feeding⟩⟩ later) [] := by
  rw [ahead_of_busy busy]
  cases looks with
  | wait =>
    refine does_nothing rfl (jobs_of_stepIf step ?_)
    intro m here
    cases here
    rfl
  | accepted => exact does_nothing rfl (jobs_of_stepIf step nofun)
  | cancelled refused => cases tidy.accepted spared busy refused
  | dropped refused => cases tidy.accepted spared busy refused

theorem does_step {l : Label α} (tidy : Tidy f) (own : IsOwn f l)
    (step : f.step parse l = some f') (spared : IsSpared f.pool)
    (unrejected : f'.pool.rejections = 0) (later : List Draw) :
    ∃ texts, Does parse f f' (f.ahead (l.draw?.toList ++ later)) (f'.ahead later) texts := by
  cases l with
  | pool l =>
    obtain ⟨p', piece, rfl⟩ := Option.map_eq_some_iff.mp step
    refine ⟨[], does_nothing rfl ?_⟩
    rw [(asks_stepPiece piece).jobs, own.1]
    exact List.append_nil _
  | feed =>
    obtain ⟨⟨p', feeder'⟩, fed, rfl⟩ := Option.map_eq_some_iff.mp step
    obtain ⟨l, feeds, stepped⟩ := feeds_of_step fed
    have busy := not_finished_of_feeds feeds
    cases feeds with
    | read reads polled takes =>
      rw [tidy.steady.running] at polled
      have takesOff := (Intake.poll_takesOff tidy.settled polled later).2
      exact does_takes takes busy takesOff stepped unrejected
    | look offers looks => exact ⟨[], does_looks tidy spared looks busy stepped⟩
  | arrive bytes => cases (nothing_arrives tidy.settled bytes).1.symm.trans step
  | inputEnds => cases (nothing_arrives tidy.settled []).2.symm.trans step
  | draw got =>
    obtain ⟨hungers, step⟩ := Option.ite_none_right_eq_some.mp step
    cases step
    rw [Fed.hungers, tidy.steady.running, Bool.and_eq_true, Option.isNone_iff_eq_none,
      beq_iff_eq] at hungers
    have busy : f.feeder.feeding ≠ .finished := by
      rw [hungers.1]
      simp
    refine ⟨[], does_nothing ?_ rfl⟩
    have busy' : (f.onIntake (·.receive got)).feeder.feeding ≠ .finished := busy
    rw [ahead_of_busy busy, ahead_of_busy busy']
    exact congrArg (fun readings => commandsOf (linesOf readings))
      (Intake.readings_receive tidy.settled hungers.2 later).2.symm

/-- What the feeder has done in a run: every command that it had ahead of it is ahead of it
still, or was read and made a job of.  This holds whatever would be drawn after the run. -/
theorem does_steps {ls : List (Label α)} (tidy : Tidy f) (run : f.steps parse ls = some f')
    (own : Throughout (step parse) IsOwn f ls) (spared : IsSpared f'.pool)
    (unrejected : f'.pool.rejections = 0) (later : List Draw) :
    ∃ texts, Does parse f f' (f.ahead (draws ls ++ later)) (f'.ahead later) texts := by
  induction ls generalizing f with
  | nil =>
    cases run
    exact ⟨[], does_nothing rfl rfl⟩
  | cons l ls ih =>
    have begins := run
    obtain ⟨next, step, rest⟩ := Option.bind_eq_some_iff.mp run
    obtain ⟨now, own⟩ := own
    have tidy' := tidy_step tidy now step
    obtain ⟨texts', does'⟩ := ih tidy' rest (own next step)
    obtain ⟨ms, pieces⟩ := pieces_of_steps rest
    obtain ⟨ms', pieces'⟩ := pieces_of_steps begins
    have none_yet : next.pool.rejections = 0 :=
      Nat.le_zero.mp (unrejected ▸ rejections_le_of_pieces pieces)
    have spared' := spared_of_pieces tidy.steady.agrees pieces' spared
    obtain ⟨texts, does⟩ := does_step tidy now step spared' none_yet (draws ls ++ later)
    refine ⟨texts ++ texts', ?_⟩
    rw [draws_cons, List.append_assoc]
    exact does.trans does'

/-- A pool is joined only after its feeder is finished. -/
theorem Tidy.finished_of_isJoined (tidy : Tidy f) (chronicle : Chronicle f.pool)
    (joined : f.pool.isJoined = true) : f.feeder.feeding = .finished :=
  tidy.closed (Handoff.senderGone_iff.mp (chronicle.joined _ (beq_iff_eq.mp joined)).1).1

theorem tidy_started (s : Settings) {intake : Intake} (settled : intake.Settled) :
    Tidy (⟨started s false, .new intake⟩ : Fed α) where
  steady := steady_started s
  settled := settled
  closed := nofun

/-- When the client has waited for all workers, and no line was rejected and not all workers were
taken down, a job was made of each command that could be read.  Whatever would be drawn later,
nothing more could. -/
theorem jobs_of_isJoined {s : Settings} {intake : Intake} {ls : List (Label α)}
    (settled : intake.Settled) (run : steps parse ⟨started s false, .new intake⟩ ls = some f)
    (own : Throughout (step parse) IsOwn ⟨started s false, .new intake⟩ ls)
    (joined : f.pool.isJoined = true) (spared : IsSpared f.pool)
    (unrejected : f.pool.rejections = 0) (later : List Draw) :
    (commandsOf (linesOf (intake.readings (draws ls ++ later)))).map parse =
      f.pool.queue.jobs.map .ok := by
  have begins : Tidy (⟨started s false, .new intake⟩ : Fed α) := tidy_started s settled
  have tidy := tidy_steps begins run own
  obtain ⟨_, pieces⟩ := pieces_of_steps run
  have chronicle := (chronicle_pieces (chronicle_started s false) pieces).1
  obtain ⟨texts, read, jobs, parsed, submitted⟩ :=
    does_steps begins run own spared unrejected later
  have nothing_ahead : f.ahead later = [] := if_pos (tidy.finished_of_isJoined chronicle joined)
  rw [nothing_ahead, List.append_nil, ahead_of_busy (by simp [Feeder.new])] at read
  rw [submitted]
  exact (congrArg (List.map _) read).trans parsed

end Fed

/-! ## What becomes of nodes -/

/-- When the client has waited for all workers, a node that was attempted is closed. -/
theorem Chronicle.closed_of_isJoined {ticket node : Nat} (chronicle : Chronicle p)
    (joined : p.isJoined = true) (attempted : 0 < countAt Event.isAttempt p.history ticket node) :
    countAt Event.closes p.history ticket node = 1 := by
  rw [← countAt_eventsOf] at attempted ⊢
  by_cases got : p.queue.Got ticket
  · obtain ⟨w, s, stage, heard⟩ := chronicle.heard ticket got
    obtain ⟨closed, opened, _, started, _⟩ := heard.follows.accounts rfl node
    have at_end : stage.isOpen = false := by
      rcases heard.ended_of_isJoined chronicle joined with rfl | ⟨interrupted, rfl⟩ <;> rfl
    rw [at_end, Bool.false_and, Bool.toNat_false] at opened
    have first := started attempted
    simp only [Task.first] at opened first closed
    omega
  · rw [(chronicle.silent ticket got).events] at attempted
    cases attempted

/-- If nothing was counted as failed, no line was rejected, and each node that was attempted
has succeeded or has taken its worker down. -/
theorem Chronicle.nodes_of_no_fail (chronicle : Chronicle p) (tallied : Tallied p)
    (joined : p.isJoined = true) (none : p.counters.fail = 0) :
    p.rejections = 0 ∧ ∀ ticket node, 0 < countAt Event.isAttempt p.history ticket node →
      countAt Event.isSuccess p.history ticket node +
        countAt Event.isPanic p.history ticket node = 1 := by
  obtain ⟨_, fail, _⟩ := tallied.counters
  rw [none] at fail
  refine ⟨by omega, fun ticket node attempted => ?_⟩
  have closed := chronicle.closed_of_isJoined joined attempted
  have failures : countAt Event.isFailure p.history ticket node ≤
      p.history.countP (·.isFailure) :=
    List.countP_mono_left fun e _ counted => ((Bool.and_eq_true _ _).mp counted).1
  rw [countAt_closes] at closed
  omega

end CommandPool.Pool
