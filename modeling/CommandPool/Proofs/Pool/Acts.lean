import CommandPool.Proofs.Pool.Changes

/-!
# What a piece does to the queue

Workers and clients of a pool meet in its queue.  `Acts` lists what a piece does there: it
starts or polls a send, starts, polls or gives up a receive, closes or cancels, or leaves
the queue alone.  After that at most a worker drops its receiver.  What holds of the queue
in every run of a pool is proved from `acts_stepPiece`.
-/

namespace CommandPool.Pool

variable {α : Type} {p p' : Pool α}

/-- The job that is submitted. -/
def Piece.job? : Piece α → Option (Job α)
  | .whole (.submit job) => some job
  | .offer job => some job
  | _ => none

/-- The client says that no more jobs come. -/
def Piece.closes : Piece α → Bool
  | .whole .close => true
  | .whole .beginJoin => true
  | _ => false

/-- The run is cancelled. -/
def Piece.cancels : Piece α → Bool
  | .whole .cancel => true
  | _ => false

/-- What a piece does to the queue. -/
inductive Acts (h : Handoff (Job α)) : Piece α → Handoff (Job α) → Prop where
  | nothing {l : Piece α} : l.job? = none → l.closes = false → l.cancels = false → Acts h l h
  | submit (job : Job α) : Acts h (.whole (.submit job)) (h.startSend job signal)
  | pollSubmit {ticket : Nat} {q : Handoff (Job α)} : h.pollSend ticket = some q →
      Acts h (.whole (.pollSubmit ticket)) q
  | close {l : Piece α} : l.closes = true → h.dropSender.senderGone = true →
      Acts h l h.dropSender
  | cancel : Acts h (.whole .cancel) (h.cancel signal)
  | offer (job : Job α) : Acts h (.offer job) (h.offer job signal)
  | shutOut {ticket : Nat} {q : Handoff (Job α)} : h.shutOut ticket = some q →
      Acts h (.shutOut ticket) q
  | post {ticket : Nat} {q : Handoff (Job α)} : h.post ticket = some q → Acts h (.post ticket) q
  | sight {ticket : Nat} {q : Handoff (Job α)} : h.sight ticket = some q →
      Acts h (.sight ticket) q
  | ask (w : Nat) : Acts h (.ask w) h.ask
  | take {w turn : Nat} {q : Handoff (Job α)} : h.take turn = some q → Acts h (.take w) q
  | receive (w : Nat) : Acts h (.whole (.look w)) h.startRecv
  | pollReceive {w turn : Nat} {q : Handoff (Job α)} : h.pollRecv turn = some q →
      Acts h (.whole (.look w)) q
  | abandon {w turn : Nat} {q : Handoff (Job α)} : h.abandon turn = some q →
      Acts h (.whole (.look w)) q

/-- The queue after what a piece does there, and a worker may have dropped its receiver. -/
def ActsOn (l : Piece α) (p p' : Pool α) : Prop :=
  ∃ q, Acts p.queue l q ∧ (p'.queue = q ∨ p'.queue = q.dropReceiver)

/-- A worker that goes on after a node. -/
theorem acts_proceed {l : Piece α} {r : Pool α} {w : Nat} {t : Task α} {outcome : Outcome}
    (acts : Acts p.queue l p.queue) (queue : r.queue = p.queue) :
    ActsOn l p (r.proceed w t outcome) := by
  obtain ⟨_, _, _, same, _⟩ := proceed_fields r w t outcome
  rw [queue] at same
  exact ⟨_, acts, same⟩

theorem acts_settleAsk {l : Piece α} {q : Handoff (Job α)} (acts : Acts p.queue l q)
    (w turn : Nat) : ActsOn l p ({ p with queue := q }.settleAsk w turn) := by
  unfold settleAsk
  split
  next => split <;> exact ⟨q, acts, Or.inl rfl⟩
  next => exact ⟨q, acts, Or.inr rfl⟩
  next => exact ⟨q, acts, Or.inl rfl⟩

theorem acts_look {w : Nat} (step : p.look w = some p') : ActsOn (.whole (.look w)) p p' := by
  have nothing : Acts p.queue (.whole (.look w)) p.queue := .nothing rfl rfl rfl
  obtain ⟨phase, _, step⟩ := Option.bind_eq_some_iff.mp step
  cases phase with
  | idle =>
    simp only [lookFrom] at step
    split at step <;> cases step
    next => exact ⟨_, nothing, Or.inr rfl⟩
    next => exact acts_settleAsk (.receive w) w _
  | asking turn =>
    simp only [lookFrom] at step
    split at step
    next =>
      cases step
      cases abandoned : p.queue.abandon turn with
      | none => exact ⟨_, nothing, Or.inr rfl⟩
      | some q => exact ⟨q, .abandon abandoned, Or.inr rfl⟩
    next =>
      obtain ⟨q, polled, rfl⟩ := Option.map_eq_some_iff.mp step
      exact acts_settleAsk (.pollReceive polled) w turn
  | sleeping t error delay =>
    obtain ⟨_, step⟩ := Option.ite_none_right_eq_some.mp step
    cases step
    exact acts_proceed nothing rfl
  | _ => cases step

theorem acts_afterError {l : Piece α} {r : Pool α} {w : Nat} {t : Task α} {error : JobError}
    (acts : Acts p.queue l p.queue) (queue : r.queue = p.queue) :
    ActsOn l p (r.afterError w t error) := by
  unfold afterError
  split
  next =>
    dsimp only
    split
    next => exact acts_proceed acts queue
    next => exact ⟨_, acts, Or.inl queue⟩
  next => exact acts_proceed acts queue

theorem acts_finish {w : Nat} {report : Report} (step : p.finish w report = some p') :
    ActsOn (.whole (.finish w report)) p p' := by
  unfold finish at step
  split at step
  next t _ =>
    have queue := (record_fields p report.traces).2.1
    split at step <;> cases step
    next => exact acts_proceed (.nothing rfl rfl rfl) queue
    next => exact acts_afterError (.nothing rfl rfl rfl) queue
  next => cases step

theorem acts_crash {w : Nat} {traces : Traces} (step : p.crash w traces = some p') :
    ActsOn (.whole (.crash w traces)) p p' := by
  unfold crash at step
  split at step
  next =>
    cases step
    have queue := (record_fields p traces).2.1
    exact ⟨_, .nothing rfl rfl rfl, Or.inr (congrArg Handoff.dropReceiver queue)⟩
  next => cases step

theorem acts_wake {w : Nat} (step : p.wake w = some p') : ActsOn (.whole (.wake w)) p p' := by
  unfold wake at step
  split at step
  next =>
    split at step <;> cases step
    next => exact acts_proceed (.nothing rfl rfl rfl) rfl
    next => exact ⟨_, .nothing rfl rfl rfl, Or.inl rfl⟩
  next => cases step

theorem acts_step {l : Label α} (step : p.step l = some p') : ActsOn (.whole l) p p' := by
  cases l with
  | look w => exact acts_look step
  | start w =>
    simp only [Pool.step, start] at step
    split at step
    next => cases step; exact ⟨_, .nothing rfl rfl rfl, Or.inl rfl⟩
    next => cases step
  | finish w report => exact acts_finish step
  | crash w traces => exact acts_crash step
  | wake w => exact acts_wake step
  | submit job =>
    obtain ⟨_, step⟩ := Option.ite_none_right_eq_some.mp step
    cases step
    exact ⟨_, .submit job, Or.inl rfl⟩
  | pollSubmit ticket =>
    obtain ⟨q, polled, rfl⟩ := Option.map_eq_some_iff.mp step
    exact ⟨q, .pollSubmit polled, Or.inl rfl⟩
  | close =>
    obtain ⟨rfl, gone⟩ := close_eq_some step
    exact ⟨_, .close rfl gone, Or.inl rfl⟩
  | cancel => cases step; exact ⟨_, .cancel, Or.inl rfl⟩
  | beginJoin =>
    obtain ⟨_, step⟩ := Option.ite_none_left_eq_some.mp step
    obtain ⟨closed, closes, rfl⟩ := Option.map_eq_some_iff.mp step
    obtain ⟨rfl, gone⟩ := close_eq_some closes
    exact ⟨_, .close rfl gone, Or.inl rfl⟩
  | join =>
    simp only [Pool.step, join] at step
    split at step
    next => cases step
    next => split at step <;> cases step <;> exact ⟨_, .nothing rfl rfl rfl, Or.inl rfl⟩
  | _ =>
    obtain ⟨_, step⟩ := Option.ite_none_right_eq_some.mp step
    cases step
    exact ⟨_, .nothing rfl rfl rfl, Or.inl rfl⟩

theorem acts_onQueue {l : Piece α} {q : Option (Handoff (Job α))} (step : p.onQueue q = some p')
    (acts : ∀ h, q = some h → Acts p.queue l h) : ActsOn l p p' := by
  obtain ⟨h, part, rfl⟩ := Option.map_eq_some_iff.mp step
  exact ⟨h, acts h part, Or.inl rfl⟩

theorem acts_stepPiece {l : Piece α} (step : p.stepPiece l = some p') : ActsOn l p p' := by
  cases l with
  | whole l => exact acts_step step
  | offer job =>
    obtain ⟨_, step⟩ := Option.ite_none_right_eq_some.mp step
    cases step
    exact ⟨_, .offer job, Or.inl rfl⟩
  | shutOut ticket => exact acts_onQueue step fun _ => .shutOut
  | post ticket => exact acts_onQueue step fun _ => .post
  | sight ticket => exact acts_onQueue step fun _ => .sight
  | ask w =>
    simp only [stepPiece] at step
    split at step
    next => cases step; exact ⟨_, .ask w, Or.inl rfl⟩
    next => cases step
  | take w =>
    simp only [stepPiece] at step
    split at step
    next => exact acts_onQueue step fun _ => .take
    next => cases step

end CommandPool.Pool
