import CommandPool.Proofs.Pool.Advance
import CommandPool.Proofs.Pool.Schedules
import CommandPool.Proofs.Pool.Tally

/-!
# Retries that are reported

A node that fails reports a number of retries.  That number goes up when a wait is announced,
and a retry is made, and counted, when the wait is over.  So the number is that of the waits
that were announced, and it is the number of the retries exactly if all of them were over.  If
the cancellation has cut the last wait short, one retry is reported that was never made.

`Told` says what a failed node has gone through.  Nothing happens at a node after it has failed,
so a move of the worker has to be looked at only where it fails a node itself.
-/

namespace CommandPool.Pool

variable {α : Type} {p p' : Pool α} {s : Settings} {w ticket node : Nat} {c : Bool}
  {a b stage : Stage α} {t first : Task α} {events new : List Event}

/-! ## The node of a worker -/

/-- A wait is announced. -/
def Event.isThrottled : Event → Bool
  | .throttled .. => true
  | _ => false

/-- The node after a node is new to the worker. -/
theorem Task.fresh_onward {outcome : Outcome} {next : Task α}
    (found : (t.onward outcome).task? = some next) :
    next.node = t.node + 1 ∧ next.retries = 0 := by
  unfold Task.onward at found
  split at found
  next => cases found; exact ⟨rfl, rfl⟩
  next => cases found

/-- What happens in a move is at the node where the worker stands. -/
theorem Move.at_node (move : Move s w c a new b) :
    ∃ t, a.task? = some t ∧ ∀ e ∈ new, e.spot? = some (t.spot w) := by
  cases move with
  | attempt t => exact ⟨t, rfl, by simp [Event.spot?]⟩
  | succeed t => exact ⟨t, rfl, by simp [Event.spot?]⟩
  | fail t error => exact ⟨t, rfl, by simp [Event.spot?]⟩
  | throttle t error => exact ⟨t, rfl, by simp [Event.spot?]⟩
  | cut t error => exact ⟨t, rfl, by simp [Event.spot?, Task.spot, Task.retry]⟩
  | wait t error delay => exact ⟨t, rfl, by simp [Event.spot?]⟩
  | interrupt t error delay => exact ⟨t, rfl, by simp [Event.spot?]⟩
  | panic t => exact ⟨t, rfl, by simp [Event.spot?]⟩

theorem Move.elsewhere (move : Move s w c a new b) (here : a.task? = some t)
    (other : t.node ≠ node) : ∀ e ∈ new, e.isAt ticket node = false := by
  obtain ⟨t', here', spots⟩ := move.at_node
  cases here.symm.trans here'
  intro e member
  simp [Event.isAt, spots e member, Task.spot, other]

/-- A move leads to a stage of the same node, or of the next one, which is new. -/
theorem Move.node_next (move : Move s w c a new b) (here : a.task? = some t) {next : Task α}
    (there : b.task? = some next) :
    next.node = t.node ∨ next.node = t.node + 1 ∧ next.retries = 0 := by
  cases move with
  | attempt => cases here; cases there; exact Or.inl rfl
  | throttle => cases here; cases there; exact Or.inl rfl
  | wait => cases here; cases there; exact Or.inl rfl
  | panic => cases there
  | succeed t => cases here; exact Or.inr (Task.fresh_onward there)
  | fail t => cases here; exact Or.inr (Task.fresh_onward there)
  | cut t => cases here; exact Or.inr (Task.fresh_onward (t := t.retry.cutShort) there)
  | interrupt t => cases here; exact Or.inr (Task.fresh_onward (t := t.cutShort) there)

/-- Nothing has happened at a node that is ahead of the worker. -/
theorem Follows.not_ahead (follows : Follows s w first events stage) (task : stage.task? = some t)
    (ahead : t.node < node) : ∀ e ∈ events, e.isAt ticket node = false := by
  induction follows generalizing t with
  | begin => nofun
  | move before move ih =>
    obtain ⟨t', here, _⟩ := move.at_node
    have later : t'.node < node := by
      rcases move.node_next here task with same | ⟨next, _⟩ <;> omega
    intro e member
    rcases List.mem_append.mp member with new | old
    · exact move.elsewhere here (Nat.ne_of_lt later) e new
    · exact ih here later e old

theorem countAt_eq_zero {kind : Event → Bool}
    (elsewhere : ∀ e ∈ events, e.isAt ticket node = false) :
    countAt kind events ticket node = 0 :=
  List.countP_eq_zero.mpr fun e member => by simp [elsewhere e member]

/-- No wait was announced at a node that is new to the worker. -/
theorem Follows.announced_fresh (before : Follows s w first events a)
    (move : Move s w c a new b) (here : a.task? = some t) {next : Task α}
    (fresh : next.node = t.node + 1 ∧ next.retries = 0) :
    countAt Event.isThrottled (new ++ events) first.ticket next.node = next.retries := by
  have ahead : t.node < next.node := by omega
  rw [fresh.2, countAt_append,
    countAt_eq_zero (move.elsewhere here (Nat.ne_of_lt ahead)),
    countAt_eq_zero (before.not_ahead here ahead)]

/-- At the node of a worker as many waits were announced as it has retries. -/
theorem Follows.announced_at (follows : Follows s w first events stage)
    (unused : first.retries = 0) (task : stage.task? = some t) :
    countAt Event.isThrottled events first.ticket t.node = t.retries := by
  induction follows generalizing t with
  | begin => cases task; exact unused.symm
  | move before move ih =>
    have here := before.ticket.1
    cases move with
    | attempt =>
      cases task
      rw [List.singleton_append, countAt_cons_of_not rfl]
      exact ih rfl
    | wait =>
      cases task
      rw [List.singleton_append, countAt_cons_of_not rfl]
      exact ih rfl
    | throttle t' error =>
      cases task
      rw [List.singleton_append, countAt_cons_of rfl,
        t'.isAt_spot (w := w) rfl (here t' rfl) t'.retry.node]
      show countAt _ _ _ t'.node + (t'.node == t'.node).toNat = t'.retries + 1
      rw [ih rfl, beq_self_eq_true]
      rfl
    | panic => cases task
    | succeed t' =>
      exact before.announced_fresh (c := false) (.succeed t') rfl (Task.fresh_onward task)
    | fail t' error final =>
      exact before.announced_fresh (c := false) (.fail t' error final) rfl (Task.fresh_onward task)
    | cut t' error again cancelled =>
      exact before.announced_fresh (.cut t' error again cancelled) rfl
        (Task.fresh_onward (t := t'.retry.cutShort) task)
    | interrupt t' error delay cancelled =>
      exact before.announced_fresh (.interrupt t' error delay cancelled) rfl
        (Task.fresh_onward (t := t'.cutShort) task)

/-- A worker that waits has been throttled with a retry left. -/
theorem Follows.asleep (follows : Follows s w first events stage) {error : JobError}
    {delay : Duration} (asleep : stage = .sleeping t error delay) :
    ∃ n, t.retries = n + 1 ∧ error.mayRetry n s.maxRetries = true := by
  cases follows with
  | begin => cases asleep
  | move _ move =>
    cases move with
    | throttle t error again =>
      cases asleep
      exact ⟨t.retries, rfl, again⟩
    | attempt => cases asleep
    | wait => cases asleep
    | panic => cases asleep
    | _ =>
      unfold Task.onward at asleep
      split at asleep <;> cases asleep

/-! ## Nodes that have failed -/

/-- A wait that was announced at the node was cut short. -/
def isCutAt (history : List Event) (ticket node : Nat) : Bool :=
  countAt Event.isWaited history ticket node < countAt Event.isThrottled history ticket node

/-- What a node has gone through that failed with this error and reports so many retries. -/
structure Told (s : Settings) (cancelled : Bool) (events : List Event) (ticket node retries : Nat)
    (error : JobError) : Prop where
  attempts : countAt Event.isAttempt events ticket node =
    countAt Event.isWaited events ticket node + 1
  announced : countAt Event.isThrottled events ticket node = retries
  /-- All waits were over, or the last one was cut short. -/
  waits : countAt Event.isWaited events ticket node = retries ∨
    countAt Event.isWaited events ticket node + 1 = retries ∧ cancelled = true ∧
      error.mayRetry (countAt Event.isWaited events ticket node) s.maxRetries = true

theorem Told.mono {retries : Nat} {error : JobError} {c' : Bool}
    (told : Told s c events ticket node retries error) (stays : c = true → c' = true) :
    Told s c' events ticket node retries error :=
  ⟨told.attempts, told.announced,
    told.waits.imp id fun ⟨short, cut, again⟩ => ⟨short, stays cut, again⟩⟩

/-- Only attempts, waits and announcements at the node play a part. -/
theorem Told.of_counts {events' : List Event} {retries : Nat} {error : JobError}
    (told : Told s c events ticket node retries error)
    (attempts : countAt Event.isAttempt events' ticket node =
      countAt Event.isAttempt events ticket node)
    (announced : countAt Event.isThrottled events' ticket node =
      countAt Event.isThrottled events ticket node)
    (waited : countAt Event.isWaited events' ticket node =
      countAt Event.isWaited events ticket node) :
    Told s c events' ticket node retries error where
  attempts := by rw [attempts, waited]; exact told.attempts
  announced := announced.trans told.announced
  waits := by rw [waited]; exact told.waits

/-- That the node fails then plays no part. -/
theorem Told.fail {retries reported : Nat} {error : JobError} {spot : Spot}
    (told : Told s c events ticket node retries error) :
    Told s c (.failed spot reported error :: events) ticket node retries error :=
  told.of_counts (countAt_cons_of_not rfl _ _ _) (countAt_cons_of_not rfl _ _ _)
    (countAt_cons_of_not rfl _ _ _)

/-- What happens elsewhere plays no part. -/
theorem Told.append {retries : Nat} {error : JobError}
    (told : Told s c events ticket node retries error)
    (elsewhere : ∀ e ∈ new, e.isAt ticket node = false) :
    Told s c (new ++ events) ticket node retries error := by
  have same : ∀ kind,
      countAt kind (new ++ events) ticket node = countAt kind events ticket node := by
    intro kind
    rw [countAt_append, countAt_eq_zero elsewhere, Nat.zero_add]
  exact told.of_counts (same _) (same _) (same _)

/-- At the node of a worker in an attempt all waits are over. -/
theorem Follows.waited_at (follows : Follows s w first events stage)
    (unused : first.retries = 0) (task : stage.task? = some t) (isOpen : stage.isOpen = true)
    (notDue : stage.isDue = false) :
    countAt Event.isWaited events first.ticket t.node + 1 = t.retries + stage.isTrying.toNat := by
  obtain ⟨closed, opened, attempts, _, _⟩ := follows.accounts unused t.node
  have number := follows.attempts_at unused task
  have before : stage.isBefore t.node = true := by simp [Stage.isBefore, task]
  have here : stage.isAt t.node = true := by simp [Stage.isAt, task]
  simp only [before, here, isOpen, notDue, Bool.toNat_true, Bool.and_true, Bool.toNat_false]
    at closed opened attempts
  omega

theorem Follows.told_move (before : Follows s w first events a) (unused : first.retries = 0)
    (move : Move s w c a new b)
    (told : ∀ spot retries error, Event.failed spot retries error ∈ events →
      Told s c events first.ticket spot.node retries error) :
    ∀ spot retries error, Event.failed spot retries error ∈ new ++ events →
      Told s c (new ++ events) first.ticket spot.node retries error := by
  intro spot retries error member
  rcases List.mem_append.mp member with fails | failed
  · cases move with
    | fail t error' =>
      cases List.mem_singleton.mp fails
      have waited := before.waited_at unused rfl rfl rfl
      refine Told.fail ⟨?_, before.announced_at unused rfl, Or.inl (Nat.succ.inj waited)⟩
      exact (before.attempts_at unused rfl).trans waited.symm
    | cut t error' again cancelled =>
      -- The retry is announced first, and the node fails before it is made.
      obtain ⟨rfl, rfl, rfl⟩ : spot = t.spot w ∧ retries = t.retry.retries ∧ error = error' := by
        simpa using fails
      have waited : countAt Event.isWaited _ first.ticket t.node = t.retries :=
        Nat.succ.inj (before.waited_at unused rfl rfl rfl)
      have announced : countAt Event.isThrottled _ first.ticket t.node = t.retries :=
        before.announced_at unused rfl
      have mine := before.ticket.1 t rfl
      rw [List.cons_append, List.singleton_append]
      refine Told.fail ⟨?_, ?_, Or.inr ?_⟩
      · rw [countAt_cons_of_not rfl, countAt_cons_of_not rfl]
        exact (before.attempts_at unused rfl).trans (congrArg (· + 1) waited.symm)
      · rw [countAt_cons_of rfl, t.isAt_spot (w := w) rfl mine]
        show countAt _ _ _ t.node + (t.node == t.node).toNat = t.retries + 1
        rw [announced, beq_self_eq_true]
        rfl
      · rw [countAt_cons_of_not rfl]
        exact ⟨congrArg (· + 1) waited, cancelled, waited.symm ▸ again⟩
    | interrupt t error' delay cancelled =>
      cases List.mem_singleton.mp fails
      have waited : countAt Event.isWaited _ first.ticket t.node + 1 = t.retries :=
        before.waited_at unused rfl rfl rfl
      obtain ⟨n, retries, again⟩ := before.asleep rfl
      have last : countAt Event.isWaited _ first.ticket t.node = n :=
        Nat.succ.inj (waited.trans retries)
      refine Told.fail ⟨?_, before.announced_at unused rfl, Or.inr ⟨waited, cancelled, ?_⟩⟩
      · exact (before.attempts_at unused rfl).trans waited.symm
      · exact last ▸ again
    | _ => simp at fails
  · obtain ⟨t, here, _⟩ := move.at_node
    have closed := (before.accounts unused spot.node).closed
    have some_failure : 0 < countAt Event.closes events first.ticket spot.node := by
      refine List.countP_pos_iff.mpr ⟨_, failed, ?_⟩
      obtain ⟨_, about, same, _⟩ := before.ticket.2 _ failed
      cases about
      simp [Event.closes, Event.isFailure, Event.isAt, Event.spot?, same]
    have past : a.isBefore spot.node = false := by
      refine eq_false_of_ne_true fun isBefore => ?_
      rw [isBefore, Bool.toNat_true] at closed
      omega
    refine (told spot retries error failed).append (move.elsewhere here fun same => ?_)
    simp [Stage.isBefore, here, same] at past

/-! ## Nodes of a pool -/

/-- Each node of the job that has failed has gone through what it was told. -/
def TellsOf (p : Pool α) (ticket : Nat) : Prop :=
  ∀ spot retries error, Event.failed spot retries error ∈ eventsOf p.history ticket →
    Told p.settings p.cancelled (eventsOf p.history ticket) ticket spot.node retries error

theorem tellsOf_stepPiece {l : Piece α} (tells : TellsOf p ticket) (chronicle : Chronicle p)
    (step : p.stepPiece l = some p') : TellsOf p' ticket := by
  obtain ⟨keeps, change⟩ := change_stepPiece chronicle.agrees step
  suffices told : ∀ spot retries error, .failed spot retries error ∈ eventsOf p'.history ticket →
      Told p.settings p.cancelled (eventsOf p'.history ticket) ticket spot.node retries error by
    intro spot retries error failed
    rw [keeps.settings]
    exact (told spot retries error failed).mono fun cancelled => cancelled_stays cancelled step
  by_cases gotten : p.queue.Got ticket
  · obtain ⟨w, s, a, heard⟩ := chronicle.heard ticket gotten
    obtain ⟨s', b, new, _, events, ⟨rfl, _⟩ | move⟩ := heard.next chronicle gotten keeps change
    · rw [events]
      exact tells
    · rw [events]
      exact heard.follows.told_move rfl move tells
  · have silent := (chronicle.silent ticket gotten).events
    cases change with
    | aside _ events => rw [events]; exact tells
    | taken _ _ _ _ _ _ _ events => rw [events]; exact tells
    | moved w a new b before move stages events got =>
      have later :=
        chronicle_change chronicle keeps (.moved w a new b before move stages events got)
      rw [(later.silent ticket (mt (got ticket).mp gotten)).events]
      nofun

theorem tellsOf_pieces {ls : List (Piece α)} (tells : TellsOf p ticket) (chronicle : Chronicle p)
    (run : p.pieces ls = some p') : TellsOf p' ticket := by
  induction ls generalizing p with
  | nil => cases run; exact tells
  | cons l ls ih =>
    obtain ⟨next, step, rest⟩ := Option.bind_eq_some_iff.mp run
    obtain ⟨keeps, change⟩ := change_stepPiece chronicle.agrees step
    exact ih (tellsOf_stepPiece tells chronicle step) (chronicle_change chronicle keeps change) rest

/-- A wait that is over is counted as a retry, and nothing else is. -/
theorem counts_retryOp (e : Event) : e.counts .retryOp = e.isWaited := by
  cases e <;> rfl

/-- In every run of a pool, cancelled at any time and however polls overlap, the entry of a node
that has failed reports a number of retries, and the node has added to the counter of retries
one less than the number of its attempts.  What is reported is what was added if and only if no
wait at the node was cut short.  Otherwise it is one more, the run is cancelled, and the last
attempt was throttled with a retry left, which was never made. -/
theorem reported_retries_are_made_iff {cancelled : Bool} {ls : List (Piece α)} {spot : Spot}
    {retries : Nat} {error : JobError} (run : (started s cancelled).pieces ls = some p)
    (failed : .failed spot retries error ∈ p.history) :
    ∃ entry attempts added,
      Event.entry? (.failed spot retries error) = some entry ∧ entry.level = .error ∧
      entry.fields = [("retries", .number retries)] ∧
      countAt Event.isAttempt p.history spot.ticket spot.node = attempts ∧
      countAt (·.counts .retryOp) p.history spot.ticket spot.node = added ∧
      p.counters.retryOp = p.history.countP (·.counts .retryOp) ∧
      attempts - 1 = added ∧
      (retries = attempts - 1 ∧ retries = added ↔
        isCutAt p.history spot.ticket spot.node = false) ∧
      (isCutAt p.history spot.ticket spot.node = true →
        retries = added + 1 ∧ retries = attempts ∧ p.cancelled = true ∧
          error.mayRetry added s.maxRetries = true) := by
  have begins := chronicle_started (α := α) s cancelled
  have settings : p.settings = s := (frame_pieces begins.agrees run).1
  have none : TellsOf (started s cancelled : Pool α) spot.ticket := nofun
  have mine : .failed spot retries error ∈ eventsOf p.history spot.ticket :=
    List.mem_filter.mpr ⟨failed, by simp [Event.isAbout, Event.spot?]⟩
  obtain ⟨attempts, announced, waits⟩ := tellsOf_pieces none begins run spot retries error mine
  simp only [countAt_eventsOf, settings] at attempts announced waits
  have counted : countAt (·.counts .retryOp) p.history spot.ticket spot.node =
      countAt Event.isWaited p.history spot.ticket spot.node := by
    simp only [countAt, counts_retryOp]
  refine ⟨_, _, _, rfl, rfl, rfl, rfl, counted, ?_, ?_, ?_, ?_⟩
  · exact tallied_pieces (tallied_started s cancelled) run .retryOp rfl
  · rw [attempts, Nat.add_sub_cancel]
  · rw [attempts, Nat.add_sub_cancel, and_self, isCutAt, announced, decide_eq_false_iff_not]
    omega
  · rw [isCutAt, announced, decide_eq_true_eq]
    intro short
    obtain ⟨one, cut, again⟩ := waits.resolve_left (Nat.ne_of_lt short)
    exact ⟨one.symm, by omega, cut, again⟩

/-- One worker and three retries. -/
def patient : Settings := { workers := 1, maxRetries := 3 }

/-- An attempt is throttled. -/
def slowDown : Report := .plain (.error (.throttled "slow down"))

/-- Two attempts are throttled.  The first wait is over, and the run is cancelled in the second
one. -/
def cutWait : List (Piece Unit) :=
  [.whole (.submit tryFirst), .whole (.look 0), .whole (.pollSubmit 0), .whole (.start 0),
    .whole (.finish 0 slowDown), .whole (.wake 0), .whole (.start 0), .whole (.finish 0 slowDown),
    .whole .cancel, .whole (.look 0)]

/-- Where that happens. -/
def cutSpot : Spot := ⟨0, 0, 0, "try"⟩

theorem reported_retries_are_made_iff_cut :
    ∃ p : Pool Unit, (started patient false).pieces cutWait = some p ∧
      .failed cutSpot 2 (.throttled "slow down") ∈ p.history ∧
      isCutAt p.history 0 0 = true ∧ p.cancelled = true ∧
      countAt Event.isAttempt p.history 0 0 = 2 ∧
      countAt (·.counts .retryOp) p.history 0 0 = 1 := by
  have run : (started patient false).pieces cutWait = some _ := rfl
  have failed : Event.failed cutSpot 2 (.throttled "slow down") ∈
      (((started patient false).pieces cutWait).get rfl).history := List.mem_cons_self
  obtain ⟨_, attempts, added, _, _, _, tried, counted, _, _, _, cut⟩ :=
    reported_retries_are_made_iff run failed
  obtain ⟨more, all, cancelled, _⟩ := cut rfl
  exact ⟨_, run, failed, rfl, cancelled, tried.trans all.symm,
    counted.trans (Nat.succ.inj more.symm)⟩

/-- A retry is reported that was never made: the entry says two, and there were two attempts. -/
theorem reported_retries_are_not_made :
    ∃ p : Pool Unit, (started patient false).pieces cutWait = some p ∧
      ∃ spot error entry, .failed spot 2 error ∈ p.history ∧
        Event.entry? (.failed spot 2 error) = some entry ∧ entry.fields = [("retries", .number 2)] ∧
        countAt Event.isAttempt p.history spot.ticket spot.node - 1 = 1 ∧
        countAt (·.counts .retryOp) p.history spot.ticket spot.node = 1 ∧
        p.counters.retryOp = 1 :=
  ⟨_, rfl, cutSpot, .throttled "slow down", _, List.mem_cons_self, rfl, rfl, rfl, rfl, rfl⟩

end CommandPool.Pool
