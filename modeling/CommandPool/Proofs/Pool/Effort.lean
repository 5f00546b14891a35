import CommandPool.Pool.Served
import CommandPool.Proofs.Pool.Attendance
import CommandPool.Proofs.Pool.Losses

/-!
# What is left to do in a pool

A number says how much is left to do in a pool: for the deliveries in its queue, for the
jobs that its workers have and for the client that waits.  A job costs as much as the
longest way down its tree, with all retries at each node.  Who has taken a job carries
its cost, and gets rid of it attempt by attempt and node by node.  Each piece that a client does not
begin makes the number smaller, and a cancellation does not make it greater.
-/

namespace CommandPool.Pool

variable {α : Type} {p p' : Pool α} {w : Nat}

/-! ## The cost of jobs -/

/-- The most steps at one node. -/
def nodeCost (maxRetries : Nat) : Nat := 3 * maxRetries + 3

/-- The most steps at the nodes on one way down a job. -/
def jobCost (maxRetries : Nat) (job : Job α) : Nat := job.toChain.height * nodeCost maxRetries

/-- The most steps at the nodes that come after the one of a task. -/
def Task.later (maxRetries : Nat) (t : Task α) : Nat :=
  max t.job.onSuccess.height t.job.onFailure.height * nodeCost maxRetries

/-- The most steps from a stage to the end of the job. -/
def Stage.left (maxRetries : Nat) : Stage α → Nat
  | .ready t => t.later maxRetries + 3 * (maxRetries - t.retries) + 2
  | .attempting t => t.later maxRetries + 3 * (maxRetries - t.retries) + 1
  | .sleeping t _ _ => t.later maxRetries + 3 * (maxRetries - t.retries) + 3
  | .finished _ => 0
  | .panicked => 0

theorem jobCost_eq (maxRetries : Nat) (t : Task α) :
    jobCost maxRetries t.job = t.later maxRetries + nodeCost maxRetries := by
  show (max t.job.onSuccess.height t.job.onFailure.height + 1) * nodeCost maxRetries = _
  rw [Nat.add_mul, Nat.one_mul]
  rfl

/-- A job is begun at less than its cost. -/
theorem left_first (maxRetries ticket : Nat) (job : Job α) :
    (Stage.ready (.first ticket job)).left maxRetries < jobCost maxRetries job := by
  have cost := jobCost_eq maxRetries (.first ticket job)
  simp only [Task.first] at cost
  rw [cost]
  simp only [Stage.left, Task.first, nodeCost]
  omega

theorem Task.left_onward (maxRetries : Nat) (t : Task α) (outcome : Outcome) :
    (t.onward outcome).left maxRetries ≤ t.later maxRetries := by
  have shorter : (t.job.after outcome).height ≤
      max t.job.onSuccess.height t.job.onFailure.height := by
    cases outcome
    · exact Nat.le_max_left _ _
    · exact Nat.le_max_right _ _
  unfold Task.onward
  cases chain : t.job.after outcome with
  | done => exact Nat.zero_le _
  | node label action onSuccess onFailure =>
    rw [chain] at shorter
    let next : Task α := ⟨t.ticket, t.node + 1, ⟨label, action, onSuccess, onFailure⟩, 0,
      t.interrupted⟩
    have cost : next.later maxRetries + nodeCost maxRetries ≤ t.later maxRetries := by
      rw [← jobCost_eq]
      exact Nat.mul_le_mul_right _ shorter
    show (Stage.ready next).left maxRetries ≤ _
    simp only [Stage.left, nodeCost] at cost ⊢
    have unused : next.retries = 0 := rfl
    omega

theorem Task.later_lt_left (maxRetries : Nat) (t : Task α) :
    t.later maxRetries < (Stage.attempting t).left maxRetries := by
  simp only [Stage.left]
  omega

/-- Each move of a worker brings its job nearer to its end, whatever the attempts give. -/
theorem Move.left_lt {s : Settings} {cancelled : Bool} {a b : Stage α} {new : List Event}
    (move : Move s w cancelled a new b) : b.left s.maxRetries < a.left s.maxRetries := by
  cases move with
  | attempt t => exact Nat.lt_succ_self _
  | succeed t =>
    exact Nat.lt_of_le_of_lt (t.left_onward s.maxRetries .succeeded) (t.later_lt_left s.maxRetries)
  | fail t error =>
    exact Nat.lt_of_le_of_lt (t.left_onward s.maxRetries .failed) (t.later_lt_left s.maxRetries)
  | throttle t error retry =>
    have some_left : t.retries < s.maxRetries := by
      simp only [JobError.mayRetry, Bool.and_eq_true, decide_eq_true_eq] at retry
      exact retry.2
    have same : t.retry.later s.maxRetries = t.later s.maxRetries := rfl
    have more : t.retry.retries = t.retries + 1 := rfl
    simp only [Stage.left]
    omega
  | cut t error =>
    have onward := t.retry.cutShort.left_onward s.maxRetries .failed
    exact Nat.lt_of_le_of_lt onward (t.later_lt_left s.maxRetries)
  | wait t error delay => exact Nat.lt_succ_self _
  | interrupt t error delay =>
    have onward := t.cutShort.left_onward s.maxRetries .failed
    have less : t.later s.maxRetries < (Stage.sleeping t error delay).left s.maxRetries := by
      simp only [Stage.left]
      omega
    exact Nat.lt_of_le_of_lt onward less
  | panic t => exact Nat.succ_pos _

/-! ## What is left -/

/-- What is left to do for a worker. -/
def Phase.left (maxRetries : Nat) : Phase α → Nat
  | .idle => 2
  | .asking _ => 1
  | .ready t => (Stage.ready t).left maxRetries + 2
  | .attempting t => (Stage.attempting t).left maxRetries + 2
  | .sleeping t error delay => (Stage.sleeping t error delay).left maxRetries + 2
  | .stopped => 0
  | .panicked => 0

theorem Phase.left_of_stage {phase : Phase α} {a : Stage α} (stage : phase.stage? = some a)
    (maxRetries : Nat) : phase.left maxRetries = a.left maxRetries + 2 := by
  cases phase <;> cases stage <;> rfl

theorem Phase.left_of_without {phase : Phase α} (without : phase.stage? = none)
    (maxRetries : Nat) : phase.left maxRetries ≤ 2 := by
  cases phase with
  | idle => exact Nat.le_refl _
  | asking turn => exact Nat.le_succ _
  | stopped => exact Nat.zero_le _
  | panicked => exact Nat.zero_le _
  | _ => cases without

/-- What is left to do for the workers. -/
def workersLeft (p : Pool α) : Nat :=
  (p.workers.map (·.left p.settings.maxRetries)).sum

/-- What is left to do for the client that waits. -/
def joinLeft (p : Pool α) : Nat :=
  match p.joined with
  | none => p.workers.length + 1
  | some k => p.workers.length - k

/-- What is left to do in the queue. -/
def queueLeft (p : Pool α) : Nat := p.queue.left (jobCost p.settings.maxRetries)

/-- What is left to do. -/
def left (p : Pool α) : Nat := p.queueLeft + p.workersLeft + p.joinLeft

/-! ## Steps of a worker -/

theorem workersLeft_of_set (p' : Pool α) {old : Phase α} (new : Phase α)
    (at_w : p.phase? w = some old) (workers : p'.workers = p.workers.set w new)
    (settings : p'.settings = p.settings) :
    p'.workersLeft + old.left p.settings.maxRetries =
      p.workersLeft + new.left p.settings.maxRetries := by
  rw [workersLeft, workers, settings]
  exact sum_map_set (Phase.left p.settings.maxRetries) new at_w

theorem joinLeft_of_same (joined : p'.joined = p.joined)
    (count : p'.workers.length = p.workers.length) : p'.joinLeft = p.joinLeft := by
  rw [joinLeft, joined, count, ← joinLeft]

theorem Keeps.queueLeft {q : Handoff (Job α)} (keeps : Keeps p p')
    (queue : p'.queue = q ∨ p'.queue = q.dropReceiver) :
    p'.queueLeft ≤ q.left (jobCost p.settings.maxRetries) := by
  unfold Pool.queueLeft
  rw [keeps.settings]
  rcases queue with same | dropped
  · exact Nat.le_of_eq (congrArg _ same)
  · rw [dropped]
    exact Handoff.left_dropReceiver _ q

/-- A worker that has a job leaves the queue alone, but for its receiver. -/
theorem queue_of_busy {l : Piece α} {a : Stage α} (step : p.stepPiece l = some p')
    (named : l.worker? = some w) (here : p.stage? w = some a) :
    p'.queue = p.queue ∨ p'.queue = p.queue.dropReceiver := by
  obtain ⟨q, acts, queue⟩ := acts_stepPiece step
  have same : q = p.queue ∨ l = .whole (.look w) := by
    cases acts with
    | nothing => exact Or.inl rfl
    | receive i => cases named; exact Or.inr rfl
    | pollReceive => cases named; exact Or.inr rfl
    | abandon => cases named; exact Or.inr rfl
    | ask i =>
      cases named
      simp only [stepPiece] at step
      split at step
      next at_w => cases (stage?_of_phase? at_w).symm.trans here
      next => cases step
    | take =>
      cases named
      simp only [stepPiece] at step
      split at step
      next at_w => cases (stage?_of_phase? at_w).symm.trans here
      next => cases step
    | close closes => rcases l with (_ | _) | _ <;> cases closes <;> cases named
    | _ => cases named
  rcases same with rfl | rfl
  · exact queue
  · obtain ⟨phase, at_w, step⟩ := Option.bind_eq_some_iff.mp step
    cases phase with
    | sleeping t error delay =>
      obtain ⟨_, step⟩ := Option.ite_none_right_eq_some.mp step
      cases step
      obtain ⟨_, _, _, queue, _⟩ := proceed_fields (p.emit (.failed (t.cutShort.spot w)
        t.cutShort.retries error)) w t.cutShort .failed
      exact queue
    | idle => cases (stage?_of_phase? at_w).symm.trans here
    | asking turn => cases (stage?_of_phase? at_w).symm.trans here
    | _ => cases step

theorem left_of_busy {l : Piece α} {a : Stage α} (agrees : p.queue.Agrees)
    (step : p.stepPiece l = some p') (named : l.worker? = some w) (here : p.stage? w = some a)
    (joined : p'.joined = p.joined) : p'.left < p.left := by
  obtain ⟨keeps, _⟩ := change_stepPiece agrees step
  obtain ⟨old, new, stirs⟩ := stirs_stepPiece agrees step named
  obtain ⟨events, b, move, shown⟩ := moved_of_named agrees step named here
  have queue := keeps.queueLeft (queue_of_busy step named here)
  have workers := workersLeft_of_set p' _ stirs.before stirs.workers keeps.settings
  have client := joinLeft_of_same joined keeps.count
  have before := Phase.left_of_stage ((stage?_of_phase? stirs.before).symm.trans here)
    p.settings.maxRetries
  have nearer := move.left_lt
  have after : new.left p.settings.maxRetries ≤ b.left p.settings.maxRetries + 2 := by
    have now : new.stage? = b.shown := by
      rw [← shown, stage?, stirs.phase?, if_pos rfl]
      rfl
    cases seen : b.shown with
    | none => exact Nat.le_trans (Phase.left_of_without (now.trans seen) _) (Nat.le_add_left _ _)
    | some other =>
      obtain ⟨rfl, _⟩ := Stage.shown_eq_some_iff.mp seen
      exact Nat.le_of_eq (Phase.left_of_stage (now.trans seen) _)
  have whole : p.queueLeft = p.queue.left (jobCost p.settings.maxRetries) := rfl
  unfold left
  omega

/-- A worker has polled its receive: it carries the cost of the job that it has got. -/
theorem left_settleAsk {q : Handoff (Job α)} {turn : Nat} {old : Phase α}
    (at_w : p.phase? w = some old) (present : old = .idle ∨ old = .asking turn)
    (polled : Handoff.Polled (jobCost p.settings.maxRetries) p.queue q turn) :
    ({ p with queue := q }.settleAsk w turn).left < p.left := by
  have weighs : 1 ≤ old.left p.settings.maxRetries := by
    rcases present with rfl | rfl
    · exact Nat.le_succ _
    · exact Nat.le_refl _
  have workers : ∀ (r : Pool α) (new : Phase α), r.workers = p.workers.set w new →
      r.settings = p.settings → r.joined = p.joined →
      r.workersLeft + old.left p.settings.maxRetries =
        p.workersLeft + new.left p.settings.maxRetries ∧ r.joinLeft = p.joinLeft := by
    intro r new set settings joined
    refine ⟨workersLeft_of_set r new at_w set settings, joinLeft_of_same joined ?_⟩
    rw [set, List.length_set]
  have whole : p.queueLeft = p.queue.left (jobCost p.settings.maxRetries) := rfl
  cases polled with
  | got ticket s got found relieved =>
    unfold settleAsk
    simp only [got, found]
    have begun := left_first p.settings.maxRetries ticket s.job
    let next : Pool α := { p with queue := q }.setPhase w (.ready (.first ticket s.job))
    obtain ⟨moved, client⟩ := workers next (.ready (.first ticket s.job)) rfl rfl rfl
    have carries : Phase.left p.settings.maxRetries (.ready (.first ticket s.job)) =
        (Stage.ready (.first ticket s.job)).left p.settings.maxRetries + 2 := rfl
    have queue : next.queueLeft = q.left (jobCost p.settings.maxRetries) := rfl
    show next.left < p.left
    unfold left
    omega
  | back waits nearer =>
    unfold settleAsk
    simp only [waits]
    let next : Pool α := { p with queue := q }.setPhase w (.asking turn)
    obtain ⟨moved, client⟩ := workers next (.asking turn) rfl rfl rfl
    have waiting : Phase.left p.settings.maxRetries (.asking turn : Phase α) = 1 := rfl
    have queue : next.queueLeft = q.left (jobCost p.settings.maxRetries) := rfl
    show next.left < p.left
    unfold left
    omega
  | closed ended nearer =>
    unfold settleAsk
    simp only [ended]
    let next : Pool α := { p with queue := q }.stop w
    obtain ⟨moved, client⟩ := workers next .stopped rfl rfl rfl
    have gone : Phase.left p.settings.maxRetries (.stopped : Phase α) = 0 := rfl
    have queue : next.queueLeft ≤ q.left (jobCost p.settings.maxRetries) :=
      Handoff.left_dropReceiver _ q
    show next.left < p.left
    unfold left
    omega

/-- A worker that waited for a job stops. -/
theorem left_stop {q : Handoff (Job α)} {old : Phase α} (at_w : p.phase? w = some old)
    (weighs : 1 ≤ old.left p.settings.maxRetries)
    (queue : q.left (jobCost p.settings.maxRetries) ≤ p.queueLeft) :
    ({ p with queue := q }.stop w).left < p.left := by
  let next : Pool α := { p with queue := q }.stop w
  have moved := workersLeft_of_set next .stopped at_w rfl rfl
  have client : next.joinLeft = p.joinLeft := joinLeft_of_same rfl List.length_set
  have gone : Phase.left p.settings.maxRetries (.stopped : Phase α) = 0 := rfl
  have dropped : next.queueLeft ≤ q.left (jobCost p.settings.maxRetries) :=
    Handoff.left_dropReceiver _ q
  show next.left < p.left
  unfold left
  omega

/-- A worker begins to wait for a job. -/
theorem left_ask (at_w : p.phase? w = some .idle) :
    ({ p with queue := p.queue.ask }.setPhase w (.asking p.queue.nextTurn)).left < p.left := by
  let next : Pool α := { p with queue := p.queue.ask }.setPhase w (.asking p.queue.nextTurn)
  have moved := workersLeft_of_set next (.asking p.queue.nextTurn) at_w rfl rfl
  have client : next.joinLeft = p.joinLeft := joinLeft_of_same rfl List.length_set
  have before : Phase.left p.settings.maxRetries (.idle : Phase α) = 2 := rfl
  have after : Phase.left p.settings.maxRetries (.asking p.queue.nextTurn : Phase α) = 1 := rfl
  have same : next.queueLeft = p.queueLeft := Handoff.left_ask _ p.queue
  show next.left < p.left
  unfold left
  omega

theorem left_look (lined : p.queue.Lined) (without : p.stage? w = none)
    (step : p.look w = some p') : p'.left < p.left := by
  obtain ⟨phase, at_w, step⟩ := Option.bind_eq_some_iff.mp step
  cases phase with
  | idle =>
    simp only [lookFrom] at step
    split at step <;> cases step
    next => exact left_stop at_w (Nat.le_succ _) (Nat.le_refl _)
    next =>
      -- The receive is started and polled; the poll may find nothing to do.
      unfold Handoff.startRecv
      cases polled : p.queue.ask.pollRecv p.queue.nextTurn with
      | none =>
        have waits : p.queue.ask.recvs[p.queue.nextTurn]? = some .waiting :=
          List.getElem?_concat_length
        rw [Option.getD_none]
        unfold settleAsk
        simp only [waits]
        exact left_ask at_w
      | some q =>
        rw [Option.getD_some]
        refine left_settleAsk at_w (Or.inl rfl) ?_
        have same := Handoff.left_ask (jobCost p.settings.maxRetries) p.queue
        cases Handoff.polled_pollRecv _ (Handoff.lined_ask lined) polled with
        | got ticket s got found relieved => exact .got ticket s got found (same ▸ relieved)
        | back waits nearer => exact .back waits (same ▸ nearer)
        | closed ended nearer => exact .closed ended (same ▸ nearer)
  | asking turn =>
    simp only [lookFrom] at step
    split at step
    next =>
      cases step
      refine left_stop at_w (Nat.le_refl _) ?_
      cases abandoned : p.queue.abandon turn with
      | none => exact Nat.le_refl _
      | some q => exact Handoff.left_abandon _ abandoned
    next =>
      obtain ⟨q, polled, rfl⟩ := Option.map_eq_some_iff.mp step
      exact left_settleAsk at_w (Or.inr rfl) (Handoff.polled_pollRecv _ lined polled)
  | sleeping => cases (stage?_of_phase? at_w).symm.trans without
  | _ => cases step

/-- A worker without a job looks, asks or takes. -/
theorem left_of_free {l : Piece α} (lined : p.queue.Lined) (step : p.stepPiece l = some p')
    (named : l.worker? = some w) (without : p.stage? w = none) : p'.left < p.left := by
  cases l with
  | whole l =>
    cases l <;> cases named <;> simp only [stepPiece, Pool.step] at step
    next => exact left_look lined without step
    next =>
      unfold start at step
      split at step
      next at_w => cases (stage?_of_phase? at_w).symm.trans without
      next => cases step
    next =>
      unfold finish at step
      split at step
      next at_w => cases (stage?_of_phase? at_w).symm.trans without
      next => cases step
    next =>
      unfold crash at step
      split at step
      next at_w => cases (stage?_of_phase? at_w).symm.trans without
      next => cases step
    next =>
      unfold wake at step
      split at step
      next at_w => cases (stage?_of_phase? at_w).symm.trans without
      next => cases step
  | ask w =>
    cases named
    simp only [stepPiece] at step
    split at step
    next at_w => cases step; exact left_ask at_w
    next => cases step
  | take w =>
    cases named
    simp only [stepPiece] at step
    split at step
    next =>
      obtain ⟨q, part, rfl⟩ := Option.map_eq_some_iff.mp step
      have nearer := Handoff.left_take (jobCost p.settings.maxRetries) lined part
      exact Nat.add_lt_add_right (Nat.add_lt_add_right nearer _) _
    next => cases step
  | _ => cases named

/-! ## Pieces -/

/-- A poll of a submission. -/
theorem left_onQueue {q : Option (Handoff (Job α))} (step : p.onQueue q = some p')
    (nearer : ∀ h, q = some h → h.left (jobCost p.settings.maxRetries) < p.queueLeft) :
    p'.left < p.left := by
  obtain ⟨h, part, rfl⟩ := Option.map_eq_some_iff.mp step
  exact Nat.add_lt_add_right (Nat.add_lt_add_right (nearer h part) _) _

theorem left_join (step : p.join = some p') : p'.left < p.left := by
  have further : ∀ {r : Pool α} {k : Nat} {phase : Phase α}, p.joined = some k →
      p.phase? k = some phase → r.queue = p.queue → r.workers = p.workers →
      r.settings = p.settings → r.joined = some (k + 1) → r.left < p.left := by
    intro r k phase waits at_k queue workers settings joined
    have inside : k < p.workers.length := (List.getElem?_eq_some_iff.mp at_k).1
    have before : p.joinLeft = p.workers.length - k := by rw [joinLeft, waits]
    have after : r.joinLeft = p.workers.length - (k + 1) := by rw [joinLeft, joined, workers]
    have same : r.queueLeft = p.queueLeft := by rw [queueLeft, queue, settings, ← queueLeft]
    have still : r.workersLeft = p.workersLeft := by
      rw [workersLeft, workers, settings, ← workersLeft]
    unfold left
    omega
  unfold join at step
  split at step
  next => cases step
  next waits =>
    split at step
    next at_k => cases step; exact further waits at_k rfl rfl rfl rfl
    next at_k => cases step; exact further waits at_k rfl rfl rfl rfl
    next => cases step

/-- Every piece that no client begins, but for the cancellation, leaves less to do. -/
theorem left_stepPiece {l : Piece α} (agrees : p.queue.Agrees) (lined : p.queue.Lined)
    (step : p.stepPiece l = some p') (ongoing : l.begins = false) (kept : l.cancels = false) :
    p'.left < p.left := by
  cases named : l.worker? with
  | some w =>
    cases here : p.stage? w with
    | none => exact left_of_free lined step named here
    | some a =>
      refine left_of_busy agrees step named here ?_
      cases loses_stepPiece step with
      | apart _ apart => exact apart.joined
      | crashed _ _ _ _ _ joined => exact joined
      | begins => cases named
      | next => cases named
  | none =>
    cases l with
    | whole l =>
      cases l with
      | pollSubmit ticket => exact left_onQueue step fun _ => Handoff.left_pollSend _
      | join => exact left_join step
      | cancel => cases kept
      | look w => cases named
      | start w => cases named
      | finish w report => cases named
      | crash w traces => cases named
      | wake w => cases named
      | _ => cases ongoing
    | shutOut ticket => exact left_onQueue step fun _ => Handoff.left_shutOut _
    | post ticket => exact left_onQueue step fun _ => Handoff.left_post _
    | sight ticket => exact left_onQueue step fun _ => Handoff.left_sight _
    | offer job => cases ongoing
    | ask w => cases named
    | take w => cases named

theorem left_cancel (p : Pool α) : p.cancel.left = p.left := rfl

/-- A submission brings the cost of its job and a little more. -/
theorem left_of_submit {l : Piece α} {job : Job α} (step : p.stepPiece l = some p')
    (submits : l = .whole (.submit job) ∨ l = .offer job) :
    p'.left < p.left + (jobCost p.settings.maxRetries job + 6) := by
  have enters : ∀ {q : Handoff (Job α)}, q.left (jobCost p.settings.maxRetries) <
      p.queueLeft + (jobCost p.settings.maxRetries job + 6) →
      ({ p with queue := q } : Pool α).left <
        p.left + (jobCost p.settings.maxRetries job + 6) := by
    intro q more
    show q.left (jobCost p.settings.maxRetries) + p.workersLeft + p.joinLeft < _
    unfold left
    omega
  rcases submits with rfl | rfl
  · obtain ⟨_, step⟩ := Option.ite_none_right_eq_some.mp step
    cases step
    exact enters (Handoff.left_startSend _ p.queue job signal)
  · obtain ⟨_, step⟩ := Option.ite_none_right_eq_some.mp step
    cases step
    exact enters (Handoff.left_offer _ p.queue job signal)

theorem left_beginJoin (step : p.beginJoin = some p') : p'.left < p.left := by
  obtain ⟨unjoined, step⟩ := Option.ite_none_left_eq_some.mp step
  obtain ⟨closed, closes, rfl⟩ := Option.map_eq_some_iff.mp step
  obtain ⟨rfl, _⟩ := close_eq_some closes
  have before : p.joinLeft = p.workers.length + 1 := by
    rw [Option.not_isSome_iff_eq_none] at unjoined
    rw [joinLeft, unjoined]
  show p.queueLeft + p.workersLeft + (p.workers.length - 0) < _
  unfold left
  omega

end CommandPool.Pool
