import CommandPool.Proofs.Pool.Advance
import CommandPool.Proofs.Pool.Tally
import CommandPool.Proofs.Pool.WholeLooks
import CommandPool.Proofs.Pool.Workers

/-!
# A cancelled pool drains

Once the run is cancelled a pool takes nothing new on and brings to an end what it has.
A worker that looks takes no job, a wait is not ended but given up, and a submission is
refused at once.  The jobs that have a worker are followed to their ends: their workers
can always move, and every move of a cancelled run brings a job nearer to its end, since
no node is attempted again once it has been throttled.
-/

namespace CommandPool.Pool

variable {α : Type} {p p' q r : Pool α} {s : Settings} {w ticket : Nat} {a b : Stage α}
  {new : List Event} {t : Task α}

/-! ## Attempts that may still start -/

/-- How many attempts may still start at a node when the run is cancelled. -/
def Stage.room (stage : Stage α) (node : Nat) : Nat :=
  match stage with
  | .ready t => if t.node ≤ node then 1 else 0
  | .attempting t => if t.node < node then 1 else 0
  | .sleeping t _ _ => if t.node < node then 1 else 0
  | .finished _ => 0
  | .panicked => 0

theorem Stage.room_le_one (stage : Stage α) (node : Nat) : stage.room node ≤ 1 := by
  cases stage <;> simp only [Stage.room] <;> first | omega | split <;> omega

theorem Task.room_onward (t : Task α) (outcome : Outcome) (node : Nat) :
    (t.onward outcome).room node ≤ if t.node < node then 1 else 0 := by
  unfold Task.onward
  split
  next => exact Nat.le_refl _
  next => exact Nat.zero_le _

/-- The attempts of a move in a cancelled run use up the room for them. -/
theorem Move.room (move : Move s w true a new b)
    (here : ∀ t, a.task? = some t → t.ticket = ticket) (node : Nat) :
    b.room node + countAt Event.isAttempt new ticket node ≤ a.room node := by
  cases move with
  | attempt t =>
    rw [countAt_cons_of (k := Event.isAttempt) rfl, t.isAt_spot rfl (here t rfl) node,
      countAt_nil, Stage.room, Stage.room]
    by_cases equal : t.node = node
    · simp [equal]
    · have other : (t.node == node) = false := by simpa using equal
      rw [other, Bool.toNat_false]
      split <;> split <;> omega
  | succeed t => exact t.room_onward .succeeded node
  | fail t error => exact t.room_onward .failed node
  | cut t error => exact t.retry.cutShort.room_onward .failed node
  | interrupt t error delay => exact t.cutShort.room_onward .failed node
  | panic t => simp [countAt, Event.isAttempt, Stage.room]
  | throttle t error retry running => cases running
  | wait t error delay running => cases running

/-- From the cancellation on, at most one attempt starts at each node. -/
theorem Heard.attempts {ls : List (Piece α)} {s : Send (Job α)}
    (heard : p.Heard ticket w s a) (chronicle : Chronicle p) (gotten : p.queue.Got ticket)
    (cancelled : p.cancelled = true) (run : p.pieces ls = some p') (node : Nat) :
    countAt Event.isAttempt p'.history ticket node ≤
      countAt Event.isAttempt p.history ticket node + a.room node := by
  induction ls generalizing p a s with
  | nil => cases run; exact Nat.le_add_right _ _
  | cons l ls ih =>
    obtain ⟨next, step, rest⟩ := Option.bind_eq_some_iff.mp run
    obtain ⟨keeps, change⟩ := change_stepPiece chronicle.agrees step
    obtain ⟨s', b, new, later, events, moved⟩ := heard.next chronicle gotten keeps change
    have still := cancelled_stays cancelled step
    have chronicle' := chronicle_change chronicle keeps change
    have gotten' : next.queue.Got ticket :=
      gotten.imp fun turn got => keeps.sound.extends_.recv turn _ got rfl
    have counted := ih later chronicle' gotten' still rest
    rw [← countAt_eventsOf _ next.history, events, countAt_append, countAt_eventsOf] at counted
    have used : b.room node + countAt Event.isAttempt new ticket node ≤ a.room node := by
      rcases moved with ⟨rfl, rfl⟩ | move
      · simp
      · rw [cancelled] at move
        exact move.room heard.follows.ticket.1 node
    omega

theorem Chronicle.attempts_le {ls : List (Piece α)} (chronicle : Chronicle p)
    (cancelled : p.cancelled = true) (run : p.pieces ls = some p')
    (taken : ∀ ticket, p'.queue.Got ticket ↔ p.queue.Got ticket) (ticket node : Nat) :
    countAt Event.isAttempt p'.history ticket node ≤
      countAt Event.isAttempt p.history ticket node + 1 := by
  by_cases gotten : p.queue.Got ticket
  · obtain ⟨w, s, stage, heard⟩ := chronicle.heard ticket gotten
    have counted := heard.attempts chronicle gotten cancelled run node
    have room := stage.room_le_one node
    omega
  · have later := (chronicle_pieces chronicle run).1
    rw [← taken] at gotten
    rw [← countAt_eventsOf, (later.silent ticket gotten).events]
    exact Nat.zero_le _

/-- From the cancellation on no retry is counted. -/
theorem retryOp_pieces {ls : List (Piece α)} (cancelled : p.cancelled = true)
    (run : p.pieces ls = some p') : p'.counters.retryOp = p.counters.retryOp := by
  let so : Pool α → Prop := fun q =>
    q.cancelled = true ∧ q.counters.retryOp = p.counters.retryOp
  have kept : ∀ q q' l, so q → stepPiece q l = some q' → so q' := by
    intro q q' l ⟨cancelled, same⟩ step
    obtain ⟨new, adds, notes⟩ := adds_stepPiece step
    have uncounted : new.countP (·.counts .retryOp) = 0 :=
      List.countP_eq_zero.mpr fun e member => by simp [notes.unwaited cancelled e member]
    have counted := adds.counters .retryOp rfl
    rw [uncounted] at counted
    exact ⟨cancelled_stays cancelled step, counted.trans same⟩
  exact (holds_of_pieces so kept ⟨cancelled, rfl⟩ run).2

/-! ## Moves that are left -/

/-- The most moves that a worker makes to the end of its job when the run is
cancelled. -/
def Stage.movesLeft : Stage α → Nat
  | .ready t => 2 * t.job.toChain.height
  | .attempting t => 2 * t.job.toChain.height - 1
  | .sleeping t _ _ => 2 * t.job.toChain.height - 1
  | .finished _ => 0
  | .panicked => 0

theorem Task.movesLeft_onward (t : Task α) (outcome : Outcome) :
    (t.onward outcome).movesLeft < 2 * t.job.toChain.height - 1 := by
  have here : t.job.toChain.height = max t.job.onSuccess.height t.job.onFailure.height + 1 := rfl
  have shorter : (t.job.after outcome).height ≤
      max t.job.onSuccess.height t.job.onFailure.height := by
    cases outcome
    · exact Nat.le_max_left _ _
    · exact Nat.le_max_right _ _
  unfold Task.onward
  cases chain : t.job.after outcome with
  | done =>
    show 0 < _
    omega
  | node label action onSuccess onFailure =>
    rw [chain] at shorter
    show 2 * (Chain.node label action onSuccess onFailure).height < _
    omega

/-- In a cancelled run every move brings a job nearer to its end. -/
theorem Move.nearer (move : Move s w true a new b) : b.movesLeft < a.movesLeft := by
  cases move with
  | attempt t =>
    have some_node : 0 < t.job.toChain.height := Nat.succ_pos _
    simp only [Stage.movesLeft]
    omega
  | succeed t => exact t.movesLeft_onward .succeeded
  | fail t error => exact t.movesLeft_onward .failed
  | cut t error => exact t.retry.cutShort.movesLeft_onward .failed
  | interrupt t error delay => exact t.cutShort.movesLeft_onward .failed
  | panic t =>
    have some_node : 0 < t.job.toChain.height := Nat.succ_pos _
    simp only [Stage.movesLeft]
    omega
  | throttle t error retry running => cases running
  | wait t error delay running => cases running

/-- The worker at this stage can move: it starts its attempt, its attempt may end with
any report, and its wait is given up. -/
def CanMove (p : Pool α) (w : Nat) : Stage α → Prop
  | .ready _ => ∃ q, p.start w = some q
  | .attempting _ => ∀ report, ∃ q, p.finish w report = some q
  | .sleeping .. => ∃ q, p.look w = some q
  | .finished _ => False
  | .panicked => False

/-- A worker is at the job and can move.  Each of its moves brings the job nearer to its
end, and nothing else moves the job. -/
structure UnderWay (p : Pool α) (ticket w : Nat) (stage : Stage α) : Prop where
  here : p.At w stage ticket
  canMove : p.CanMove w stage
  nearer : ∀ l q, p.stepPiece l = some q → l.worker? = some w →
    ∃ b : Stage α, q.stage? w = b.shown ∧ b.movesLeft < stage.movesLeft
  stays : ∀ l q, p.stepPiece l = some q → l.worker? ≠ some w → q.stage? w = some stage

theorem underWay_of_at (agrees : p.queue.Agrees) (cancelled : p.cancelled = true)
    (here : p.At w a ticket) : p.UnderWay ticket w a where
  here := here
  canMove := by
    obtain ⟨phase, at_w, stage⟩ := Option.bind_eq_some_iff.mp here.1
    cases phase with
    | ready t =>
      cases stage
      exact ⟨_, by rw [start, at_w]⟩
    | attempting t =>
      cases stage
      intro report
      rw [finish, at_w]
      cases report.result <;> exact ⟨_, rfl⟩
    | sleeping t error delay =>
      cases stage
      exact ⟨_, by rw [look, at_w]; exact if_pos cancelled⟩
    | _ => cases stage
  nearer l q step named := by
    obtain ⟨new, b, move, shown⟩ := moved_of_named agrees step named here.1
    rw [cancelled] at move
    exact ⟨b, shown, move.nearer⟩
  stays l q step other := by
    rw [stage?, phase?_of_unnamed agrees step other]
    exact here.1

/-- A job that has a worker is followed to its end: it was resolved along a path down to
an empty chain, or an action has taken its worker down, or it is under way. -/
inductive Followed (p : Pool α) (ticket : Nat) : Prop where
  | ended (w : Nat) (s : Send (Job α)) (found : p.queue.sends[ticket]? = some s)
      (path : Resolves w ticket 0 s.job.toChain (resolutions (eventsOf p.history ticket)))
  | down (spot : Spot) (panicked : .panicked spot ∈ p.history) (same : spot.ticket = ticket)
  | underWay (w : Nat) (stage : Stage α) (underWay : p.UnderWay ticket w stage)

theorem Chronicle.followed (chronicle : Chronicle p) (cancelled : p.cancelled = true)
    (gotten : p.queue.Got ticket) : p.Followed ticket := by
  rcases chronicle.at_or_over gotten with ⟨w, stage, here⟩ | ⟨w, s, found, path⟩ | down
  · exact .underWay w stage (underWay_of_at chronicle.agrees cancelled here)
  · exact .ended w s found path
  · obtain ⟨spot, panicked, same⟩ := down
    exact .down spot panicked same

/-! ## Waits that are given up -/

/-- In this step a worker gives up a node: the node fails and is counted so, no wait is
ended, and the worker goes on with what follows the failure, or stops.  It does so
once. -/
structure GivesUp (p q : Pool α) (w ticket node : Nat) (job : Job α) : Prop where
  fail : q.counters.fail = p.counters.fail + 1
  success : q.counters.success = p.counters.success
  retryOp : q.counters.retryOp = p.counters.retryOp
  onFailure : q.phase? w = some (match job.onFailure.job? with
    | some next => .ready ⟨ticket, node + 1, next, 0, true⟩
    | none => .stopped)
  once : ∀ ls r, q.pieces ls = some r → countAt Event.isFailure r.history ticket node = 1 ∧
    countAt Event.isSuccess r.history ticket node = 0 ∧
    countAt Event.isFirst r.history ticket (node + 1) ≤ 1

theorem phase?_proceed {outcome : Outcome} (inside : w < p.workers.length)
    (cutShort : t.interrupted = true) : (p.proceed w t outcome).phase? w =
      some (match (t.job.after outcome).job? with
        | some next => .ready ⟨t.ticket, t.node + 1, next, 0, true⟩
        | none => .stopped) := by
  have here : ∀ phase : Phase α, (p.workers.set w phase)[w]? = some phase :=
    fun phase => List.getElem?_set_self inside
  unfold proceed
  cases (t.job.after outcome).job? with
  | some next =>
    rw [cutShort]
    exact here _
  | none =>
    rw [cutShort]
    exact here _

/-- What has happened stays in the history. -/
theorem history_pieces {ls : List (Piece α)} (run : p.pieces ls = some p') :
    ∃ new, p'.history = new ++ p.history := by
  refine holds_of_pieces (fun q => ∃ new, q.history = new ++ p.history) ?_ ⟨[], rfl⟩ run
  rintro q q' l ⟨new, history⟩ step
  obtain ⟨more, adds, _⟩ := adds_stepPiece step
  exact ⟨more ++ new, by rw [adds.history, history, List.append_assoc]⟩

theorem givesUp_interruptNode {notes : List Event} {error : JobError} (adds : Adds p r notes)
    (uncounted : ∀ e ∈ notes, e.counter? = none) (inside : w < r.workers.length)
    (chronicle : Chronicle (r.interruptNode w t error)) :
    GivesUp p (r.interruptNode w t error) w t.ticket t.node t.job := by
  have all : Adds p (r.interruptNode w t error) ([.failed (t.spot w) t.retries error] ++ notes) :=
    adds.trans (adds_failNode r w t.cutShort error)
  have none_counted : ∀ c, notes.countP (·.counts c) = 0 := by
    intro c
    refine List.countP_eq_zero.mpr fun e member => ?_
    simp [Event.counts, uncounted e member]
  have counted : ∀ c, c.isTally = true → (r.interruptNode w t error).counters.get c =
      p.counters.get c + if c = .fail then 1 else 0 := by
    intro c tally
    have total := all.counters c tally
    rw [List.countP_append, none_counted] at total
    refine total.trans ?_
    cases c <;> rfl
  refine ⟨counted .fail rfl, counted .success rfl, counted .retryOp rfl,
    phase?_proceed inside rfl, fun ls q run => ?_⟩
  obtain ⟨later, _⟩ := chronicle_pieces chronicle run
  obtain ⟨new, history⟩ := history_pieces run
  have failed : Event.failed (t.spot w) t.retries error ∈ q.history := by
    rw [history, all.history]
    exact List.mem_append_right _ List.mem_cons_self
  obtain ⟨failure, success⟩ := later.failed_once failed
  exact ⟨failure, success, (later.once t.ticket (t.node + 1)).2⟩

/-- A worker that waits before a retry gives its node up when it is polled. -/
theorem Chronicle.givesUp_asleep {l : Piece α} {error : JobError} {delay : Duration}
    (chronicle : Chronicle p) (cancelled : p.cancelled = true)
    (at_w : p.phase? w = some (.sleeping t error delay)) (step : p.stepPiece l = some q)
    (named : l.worker? = some w) : GivesUp p q w t.ticket t.node t.job := by
  have inside : w < p.workers.length := (List.getElem?_eq_some_iff.mp at_w).1
  obtain ⟨keeps, change⟩ := change_stepPiece chronicle.agrees step
  have later := chronicle_change chronicle keeps change
  have same : q = p.interruptNode w t error := by
    cases l with
    | whole l =>
      cases l <;> cases named <;> simp only [stepPiece, Pool.step] at step
      next =>
        rw [look, at_w] at step
        exact (Option.some.inj ((if_pos cancelled).symm.trans step)).symm
      next => rw [start, at_w] at step; cases step
      next => rw [finish, at_w] at step; cases step
      next => rw [crash, at_w] at step; cases step
      next =>
        rw [wake, at_w] at step
        exact (Option.some.inj ((if_pos cancelled).symm.trans step)).symm
    | ask w => cases named; rw [stepPiece, at_w] at step; cases step
    | take w => cases named; rw [stepPiece, at_w] at step; cases step
    | _ => cases named
  rw [same] at later ⊢
  exact givesUp_interruptNode (adds_of_same rfl rfl) (by simp) inside later

/-- A worker whose attempt was throttled gives its node up instead of waiting. -/
theorem Chronicle.givesUp_throttled {report : Report} {error : JobError}
    (chronicle : Chronicle p) (cancelled : p.cancelled = true)
    (at_w : p.phase? w = some (.attempting t)) (result : report.result = .error error)
    (retry : error.mayRetry t.retries p.settings.maxRetries = true) :
    ∃ q, p.finish w report = some q ∧ GivesUp p q w t.ticket t.node t.job := by
  obtain ⟨workers, queue, settings, _, _⟩ := record_fields p report.traces
  have cancelled' : (p.record report.traces).cancelled = true := by
    rw [Pool.cancelled, queue]
    exact cancelled
  have ends : p.finish w report = some ((p.record report.traces).afterError w t error) := by
    rw [finish, at_w]
    simp only [result]
  refine ⟨_, ends, ?_⟩
  obtain ⟨keeps, change⟩ := change_finish chronicle.agrees ends
  have later := chronicle_change chronicle keeps change
  have interrupts : (p.record report.traces).afterError w t error =
      ((p.record report.traces).emit (.throttled (t.retry.spot w) t.retry.retries
        (p.settings.backoff.delay t.retry.retries))).interruptNode w t.retry error := by
    unfold afterError
    rw [settings, if_pos retry]
    exact if_pos cancelled'
  rw [interrupts] at later ⊢
  refine givesUp_interruptNode (t := t.retry) ((adds_record p report.traces).trans (adds_emit _ _))
    ?_ ?_ later
  · simp [Event.counter?]
  · show w < (p.record report.traces).workers.length
    rw [workers]
    exact (List.getElem?_eq_some_iff.mp at_w).1

/-! ## Submissions -/

/-- The end of a send that starts after its signal was given. -/
theorem sendEnd?_startSend {h : Handoff α} {job : α} {signal : Nat}
    (given : h.isGiven signal = true) : (h.startSend job signal).sendEnd? h.nextTicket =
      some (.refused (if h.senderOpen then .cancelled else .closed)) := by
  rw [Handoff.sendEnd?_eq_some_iff]
  have last : ∀ s : Send α, (h.sends ++ [s])[h.nextTicket]? = some s :=
    fun s => List.getElem?_concat_length
  cases senderOpen : h.senderOpen with
  | true =>
    have offered : (h.offer job signal).sends[h.nextTicket]? = some ⟨job, signal, .waiting⟩ := by
      rw [Handoff.offer, if_pos senderOpen]
      exact last _
    have at_ticket : (h.offer job signal).sendState? h.nextTicket = some .waiting :=
      Handoff.sendState?_eq_some_iff.mpr ⟨_, offered, rfl⟩
    have watched : (h.offer job signal).isCancelled h.nextTicket = true := by
      rw [Handoff.isCancelled, offered, Handoff.offer, if_pos senderOpen]
      exact given
    have polled : h.startSend job signal =
        (h.offer job signal).refuse h.nextTicket .cancelled := by
      simp only [Handoff.startSend, Handoff.pollSend, at_ticket, watched, if_true,
        Option.getD_some]
    rw [polled, Handoff.refuse, Handoff.sendState?_setSend, if_pos rfl]
    show Option.map _ ((h.offer job signal).sendState? h.nextTicket) = _
    rw [at_ticket]
    rfl
  | false =>
    have closed : ¬ h.senderOpen = true := by simp [senderOpen]
    have at_ticket : (h.offer job signal).sendState? h.nextTicket =
        some (.ended (.refused .closed)) := by
      rw [Handoff.sendState?, Handoff.offer, if_neg closed]
      exact congrArg (Option.map _) (last _)
    have unpolled : h.startSend job signal = h.offer job signal := by
      simp only [Handoff.startSend, Handoff.pollSend, at_ticket, Option.getD_none]
    rw [unpolled]
    exact at_ticket

/-! ## Draining -/

/-- What happens in a pool from a moment on at which the run is cancelled: `p` is the
pool at that moment, and `p'` the pool at any later one. -/
structure Draining (p p' : Pool α) : Prop where
  /-- No worker has taken a job meanwhile. -/
  taken : ∀ ticket, p'.queue.Got ticket ↔ p.queue.Got ticket
  /-- No retry was counted meanwhile. -/
  retries : p'.counters.retryOp = p.counters.retryOp
  /-- At most one attempt was started meanwhile at each node. -/
  attempts : ∀ ticket node, countAt Event.isAttempt p'.history ticket node ≤
    countAt Event.isAttempt p.history ticket node + 1
  /-- A worker that waits before a retry can look at once, and when it is polled in any
  way it gives its node up. -/
  asleep : ∀ w t error delay, p'.phase? w = some (.sleeping t error delay) →
    (∃ q, p'.look w = some q) ∧ ∀ l q, p'.stepPiece l = some q → l.worker? = some w →
      GivesUp p' q w t.ticket t.node t.job
  /-- A worker whose attempt ends throttled, so that it would wait, gives its node up in
  the same step. -/
  throttled : ∀ w t report error, p'.phase? w = some (.attempting t) →
    report.result = .error error →
    error.mayRetry t.retries p'.settings.maxRetries = true →
    ∃ q, p'.finish w report = some q ∧ GivesUp p' q w t.ticket t.node t.job
  /-- Each job that had a worker is followed to its end. -/
  followed : ∀ ticket, p.queue.Got ticket → p'.Followed ticket
  /-- When the client has waited for all workers, none is under way any more. -/
  arrived : p'.isJoined = true → ∀ ticket w stage, ¬ p'.UnderWay ticket w stage
  /-- A submission that starts now is possible as long as the client has not joined, and
  ends at once: as cancelled, or as closed when the sender is gone. -/
  refused : ∀ job, p'.joined = none → ∃ q, p'.submit job = some q ∧
    q.queue.sendEnd? p'.queue.nextTicket =
      some (.refused (if p'.queue.senderOpen then .cancelled else .closed))
  /-- Nothing happens to a job that was submitted meanwhile, in whatever parts. -/
  late : ∀ ticket, p.queue.nextTicket ≤ ticket →
    p'.queue.sendEnd? ticket ≠ some .accepted ∧ eventsOf p'.history ticket = []

/-- In every run of a pool whose workers look in whole polls, however everything else
overlaps, the pool drains from any moment on at which the run is cancelled. -/
theorem cancelled_pool_drains {ρ : Type} {s : Settings}
    {build : Nat → Except (List String) ρ} {cancelled : Bool} {p₀ : Pool α}
    {ls ms : List (Piece α)} (opened : openWith s build cancelled = .ok p₀)
    (run : p₀.pieces ls = some p) (isCancelled : p.cancelled = true)
    (later : p.pieces ms = some p') (whole : ∀ l ∈ ls ++ ms, l.splitsLook = false) :
    Draining p p' := by
  have begins : Chronicle p₀ := openWith_eq_ok opened ▸ chronicle_started s cancelled
  have unheld₀ : p₀.queue.Unheld := openWith_eq_ok opened ▸ unheld_started s cancelled
  obtain ⟨whole_before, whole_after⟩ := List.forall_mem_append.mp whole
  have unheld := unheld_pieces unheld₀ run whole_before
  obtain ⟨chronicle, _⟩ := chronicle_pieces begins run
  obtain ⟨chronicle', _⟩ := chronicle_pieces chronicle later
  have still := cancelled_pieces isCancelled later
  have taken := got_pieces unheld isCancelled later whole_after
  exact {
    taken := taken
    retries := retryOp_pieces isCancelled later
    attempts := chronicle.attempts_le isCancelled later taken
    asleep := fun w t error delay at_w => by
      refine ⟨⟨_, by rw [look, at_w]; exact if_pos still⟩, fun l q step named => ?_⟩
      exact chronicle'.givesUp_asleep still at_w step named
    throttled := fun w t report error at_w result retry =>
      chronicle'.givesUp_throttled still at_w result retry
    followed := fun ticket gotten => chronicle'.followed still ((taken ticket).mpr gotten)
    arrived := fun joined ticket w stage underWay => by
      have nobody := chronicle'.nobody_of_isJoined joined w
      cases nobody.symm.trans underWay.here.1
    refused := fun job open_ =>
      ⟨_, if_pos (Option.isNone_iff_eq_none.mpr open_), sendEnd?_startSend still⟩
    late := fun ticket new => by
      have absent : ¬ p'.queue.Got ticket := by
        rw [taken]
        rintro ⟨turn, got⟩
        exact absurd (chronicle.agrees.lt_length_of_got got) (Nat.not_lt.mpr new)
      refine ⟨fun accepted => absent ?_, (chronicle'.silent ticket absent).events⟩
      exact (chronicle'.agrees.accepted_iff accepted).mp rfl }

/-- The first attempt of a job is throttled, and the run is cancelled while its worker
waits for the retry. -/
def dozing : List (Piece Unit) :=
  [.whole (.submit tryFirst), .whole (.look 0), .whole (.pollSubmit 0), .whole (.start 0),
    .whole (.finish 0 (.plain (.error (.throttled "slow down")))), .whole .cancel]

/-- A further submission is refused.  The worker that waits fails its node, follows the
job to its end and stops, and so does the other one, until the client has joined. -/
def roused : List (Piece Unit) :=
  [.whole (.submit cleanUp), .whole (.look 0), .whole (.start 0),
    .whole (.finish 0 (.plain (.ok ()))), .whole (.look 1), .whole .beginJoin, .whole .join,
    .whole .join]

theorem cancelled_pool_drains_roused :
    ∃ p p' : Pool Unit, (started pair false).pieces dozing = some p ∧
      p.pieces roused = some p' ∧ p.cancelled = true ∧ Draining p p' ∧
      (∃ q, p.look 0 = some q ∧ GivesUp p q 0 0 0 tryFirst) ∧
      p'.isJoined = true ∧ p'.Followed 0 ∧ p'.counters = ⟨1, 1, 0, 0, 0⟩ ∧
      p'.queue.sendEnd? 1 = some (.refused .cancelled) ∧ eventsOf p'.history 1 = [] := by
  have opened : openWith pair (fun _ => (.ok () : Except (List String) Unit)) false =
      .ok (started pair false : Pool Unit) := by
    rfl
  have run : (started pair false).pieces dozing = some _ := rfl
  have whole : ∀ l ∈ dozing ++ roused, l.splitsLook = false := by
    simp [dozing, roused, Piece.splitsLook]
  have whole_before : ∀ l ∈ dozing ++ [], l.splitsLook = false := by
    simp [dozing, Piece.splitsLook]
  have now := cancelled_pool_drains opened run rfl (by rfl) whole_before
  have drains := cancelled_pool_drains opened run rfl (by rfl) whole
  obtain ⟨⟨q, looks⟩, givesUp⟩ := now.asleep 0 _ _ _ rfl
  refine ⟨_, _, run, rfl, rfl, drains, ⟨q, looks, givesUp (.whole (.look 0)) q looks rfl⟩, rfl, ?_,
    rfl, rfl, (drains.late 1 (by decide)).2⟩
  exact drains.followed 0 ⟨0, rfl⟩

end CommandPool.Pool
