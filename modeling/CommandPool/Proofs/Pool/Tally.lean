import CommandPool.Proofs.Pool.Changes

/-!
# Counters are views of the history

A step notes what it does in the history and counts it at once.  So the counters of
nodes and of lines say no more than the history: each is the number of the events that
it counts.  `Notes` says which piece notes what: once the run is cancelled none ends a wait,
so the retries are counted no further, and only the piece that rejects a line notes that.
-/

namespace CommandPool

/-- The counter counts events, and not what an attempt reports. -/
def Counter.isTally : Counter → Bool
  | .success => true
  | .fail => true
  | .retryOp => true
  | .storageOp => false
  | .fileOp => false

namespace Pool

variable {α : Type} {p p' p'' : Pool α} {new more : List Event}

/-- The event is counted there. -/
def Event.counts (e : Event) (c : Counter) : Bool := e.counter? == some c

/-- From `p` to `p'` these events were noted and counted, the latest first. -/
structure Adds (p p' : Pool α) (new : List Event) : Prop where
  history : p'.history = new ++ p.history
  counters : ∀ c, c.isTally = true →
    p'.counters.get c = p.counters.get c + new.countP (·.counts c)

theorem adds_of_same (history : p'.history = p.history) (counters : p'.counters = p.counters) :
    Adds p p' [] :=
  ⟨history, fun c _ => by rw [counters]; rfl⟩

theorem Adds.trans (first : Adds p p' new) (second : Adds p' p'' more) :
    Adds p p'' (more ++ new) where
  history := by rw [second.history, first.history, List.append_assoc]
  counters c tally := by
    rw [second.counters c tally, first.counters c tally, List.countP_append]
    omega

/-- What changes neither the history nor the counters plays no part. -/
theorem Adds.then_same (adds : Adds p p' new) (history : p''.history = p'.history)
    (counters : p''.counters = p'.counters) : Adds p p'' new :=
  adds.trans (adds_of_same history counters)

theorem adds_emit (p : Pool α) (e : Event) : Adds p (p.emit e) [e] := by
  refine ⟨rfl, fun c _ => ?_⟩
  simp only [emit, Event.counts, List.countP_singleton]
  cases e.counter? with
  | none => rfl
  | some d => simp [Counters.bump, Counters.get_add]

/-- What an attempt leaves is noted, and counted elsewhere. -/
theorem adds_record (p : Pool α) (traces : Traces) :
    Adds p (p.record traces) (traces.log.map .noted).reverse := by
  refine ⟨(record_fields p traces).2.2.2.2, fun c tally => ?_⟩
  have fold : ∀ (log : List Log.Entry) (p : Pool α),
      (log.foldl (fun p e => p.emit (.noted e)) p).counters = p.counters := by
    intro log
    induction log with
    | nil => exact fun _ => rfl
    | cons e log ih => exact fun p => ih (p.emit (.noted e))
  have uncounted : ∀ e ∈ (traces.log.map Event.noted).reverse, ¬ e.counts c = true := by
    simp [Event.counts, Event.counter?]
  rw [List.countP_eq_zero.mpr uncounted, record]
  simp only [Counters.get_add, fold]
  cases c <;> first | rfl | cases tally

/-! ## Steps -/

/-- A line was no command. -/
def Event.isRejection : Event → Bool
  | .rejected .. => true
  | _ => false

/-- None of the events ends a wait or rejects a line. -/
def Plain (new : List Event) : Prop :=
  ∀ e ∈ new, e.counts .retryOp = false ∧ e.isRejection = false

theorem Plain.append (first : Plain new) (second : Plain more) : Plain (more ++ new) :=
  fun e member => (List.mem_append.mp member).elim (second e) (first e)

theorem plain_nil : Plain [] := by
  simp [Plain]

theorem plain_singleton {e : Event} (unwaited : e.counts .retryOp = false)
    (unrejected : e.isRejection = false) : Plain [e] := by
  simpa [Plain] using ⟨unwaited, unrejected⟩

theorem plain_notes (log : List Log.Entry) : Plain (log.map Event.noted).reverse := by
  simp [Plain, Event.counts, Event.counter?, Event.isRejection]

/-- A line is rejected. -/
def Piece.rejects : Piece α → Bool
  | .whole (.reject ..) => true
  | _ => false

/-- What a piece notes: plain events, the end of a wait while the run is not cancelled, or
a line that is rejected. -/
inductive Notes (p : Pool α) : Piece α → List Event → Prop where
  | plain {l : Piece α} {new : List Event} : l.rejects = false → Plain new → Notes p l new
  | waited (w : Nat) (spot : Spot) : p.cancelled = false →
      Notes p (.whole (.wake w)) [.waited spot]
  | rejected (line : String) (error : ParseError) :
      Notes p (.whole (.reject line error)) [.rejected line error]

/-- Once the run is cancelled no wait ends. -/
theorem Notes.unwaited {l : Piece α} (notes : Notes p l new) (cancelled : p.cancelled = true) :
    ∀ e ∈ new, e.counts .retryOp = false := by
  cases notes with
  | plain _ plain => exact fun e member => (plain e member).1
  | waited w spot running => cases cancelled.symm.trans running
  | rejected line error => simp [Event.counts, Event.counter?]

/-- A line is noted as rejected by the piece that rejects it. -/
theorem Notes.countP_isRejection {l : Piece α} (notes : Notes p l new) :
    new.countP (·.isRejection) = l.rejects.toNat := by
  cases notes with
  | plain accepts plain =>
    rw [accepts]
    exact List.countP_eq_zero.mpr fun e member => by simp [plain e member]
  | waited w spot running => rfl
  | rejected line error => rfl

theorem adds_proceed (p : Pool α) (w : Nat) (t : Task α) (outcome : Outcome) :
    Adds p (p.proceed w t outcome) [] := by
  unfold proceed
  split
  next => exact adds_of_same rfl rfl
  next => split <;> exact adds_of_same rfl rfl

theorem adds_failNode (p : Pool α) (w : Nat) (t : Task α) (error : JobError) :
    Adds p (p.failNode w t error) [.failed (t.spot w) t.retries error] :=
  (adds_emit p _).trans (adds_proceed _ w t .failed)

theorem adds_settleAsk (p : Pool α) (q : Handoff (Job α)) (w turn : Nat) :
    Adds p ({ p with queue := q }.settleAsk w turn) [] := by
  unfold settleAsk
  split
  next => split <;> exact adds_of_same rfl rfl
  next => exact adds_of_same rfl rfl
  next => exact adds_of_same rfl rfl

theorem adds_look {w : Nat} (step : p.look w = some p') :
    ∃ new, Adds p p' new ∧ Plain new := by
  obtain ⟨phase, _, step⟩ := Option.bind_eq_some_iff.mp step
  cases phase with
  | idle =>
    simp only [lookFrom] at step
    split at step <;> cases step
    next => exact ⟨[], adds_of_same rfl rfl, plain_nil⟩
    next => exact ⟨[], adds_settleAsk p _ w _, plain_nil⟩
  | asking turn =>
    simp only [lookFrom] at step
    split at step
    next => cases step; exact ⟨[], adds_of_same rfl rfl, plain_nil⟩
    next =>
      obtain ⟨q, _, rfl⟩ := Option.map_eq_some_iff.mp step
      exact ⟨[], adds_settleAsk p q w turn, plain_nil⟩
  | sleeping t error delay =>
    obtain ⟨_, step⟩ := Option.ite_none_right_eq_some.mp step
    cases step
    exact ⟨_, adds_failNode p w _ error, plain_singleton rfl rfl⟩
  | _ => cases step

theorem adds_afterError (p : Pool α) (w : Nat) (t : Task α) (error : JobError) :
    ∃ new, Adds p (p.afterError w t error) new ∧ Plain new := by
  unfold afterError
  split
  next =>
    dsimp only
    split
    next =>
      refine ⟨_, (adds_emit p _).trans (adds_failNode _ w _ error), ?_⟩
      exact (plain_singleton rfl rfl).append (plain_singleton rfl rfl)
    next => exact ⟨_, (adds_emit p _).then_same rfl rfl, plain_singleton rfl rfl⟩
  next => exact ⟨_, adds_failNode p w t error, plain_singleton rfl rfl⟩

theorem adds_finish {w : Nat} {report : Report} (step : p.finish w report = some p') :
    ∃ new, Adds p p' new ∧ Plain new := by
  unfold finish at step
  split at step
  next t _ =>
    have recorded := adds_record p report.traces
    have noted := plain_notes report.traces.log
    split at step <;> cases step
    next =>
      refine ⟨_, recorded.trans ((adds_emit _ _).trans (adds_proceed _ w t .succeeded)), ?_⟩
      exact noted.append (plain_singleton rfl rfl)
    next error _ =>
      obtain ⟨new, adds, plain⟩ := adds_afterError (p.record report.traces) w t error
      exact ⟨_, recorded.trans adds, noted.append plain⟩
  next => cases step

theorem adds_crash {w : Nat} {traces : Traces} (step : p.crash w traces = some p') :
    ∃ new, Adds p p' new ∧ Plain new := by
  unfold crash at step
  split at step
  next t _ =>
    cases step
    refine ⟨_, ((adds_record p traces).trans (adds_emit _ _)).then_same rfl rfl, ?_⟩
    exact (plain_notes traces.log).append (plain_singleton rfl rfl)
  next => cases step

theorem adds_wake {w : Nat} (step : p.wake w = some p') :
    ∃ new, Adds p p' new ∧ Notes p (.whole (.wake w)) new := by
  unfold wake at step
  split at step
  next t error delay _ =>
    split at step <;> cases step
    next => exact ⟨_, adds_failNode p w _ error, .plain rfl (plain_singleton rfl rfl)⟩
    next running =>
      exact ⟨_, (adds_emit p _).then_same rfl rfl, .waited w _ (eq_false_of_ne_true running)⟩
  next => cases step

theorem adds_join (step : p.join = some p') : ∃ new, Adds p p' new ∧ Plain new := by
  unfold join at step
  split at step
  next => cases step
  next k _ =>
    split at step
    next => cases step; exact ⟨[], adds_of_same rfl rfl, plain_nil⟩
    next =>
      cases step
      exact ⟨_, (adds_emit p (.mourned k)).then_same rfl rfl, plain_singleton rfl rfl⟩
    next => cases step

theorem adds_plain {l : Piece α} (accepts : l.rejects = false)
    (found : ∃ new, Adds p p' new ∧ Plain new) : ∃ new, Adds p p' new ∧ Notes p l new :=
  found.imp fun _ both => ⟨both.1, .plain accepts both.2⟩

theorem adds_silent {l : Piece α} (accepts : l.rejects = false)
    (history : p'.history = p.history) (counters : p'.counters = p.counters) :
    ∃ new, Adds p p' new ∧ Notes p l new :=
  ⟨[], adds_of_same history counters, .plain accepts plain_nil⟩

theorem adds_step {l : Label α} (step : p.step l = some p') :
    ∃ new, Adds p p' new ∧ Notes p (.whole l) new := by
  cases l with
  | look w => exact adds_plain rfl (adds_look step)
  | start w =>
    simp only [Pool.step, start] at step
    split at step
    next t _ =>
      cases step
      exact ⟨_, (adds_emit p _).then_same rfl rfl, .plain rfl (plain_singleton rfl rfl)⟩
    next => cases step
  | finish w report => exact adds_plain rfl (adds_finish step)
  | crash w traces => exact adds_plain rfl (adds_crash step)
  | wake w => exact adds_wake step
  | submit job =>
    obtain ⟨_, step⟩ := Option.ite_none_right_eq_some.mp step
    cases step
    exact adds_silent rfl rfl rfl
  | pollSubmit ticket =>
    obtain ⟨q, _, rfl⟩ := Option.map_eq_some_iff.mp step
    exact adds_silent rfl rfl rfl
  | close =>
    obtain ⟨rfl, _⟩ := close_eq_some step
    exact adds_silent rfl rfl rfl
  | cancel =>
    cases step
    exact adds_silent rfl rfl rfl
  | beginJoin =>
    obtain ⟨_, step⟩ := Option.ite_none_left_eq_some.mp step
    obtain ⟨closed, closes, rfl⟩ := Option.map_eq_some_iff.mp step
    obtain ⟨rfl, _⟩ := close_eq_some closes
    exact adds_silent rfl rfl rfl
  | join => exact adds_plain rfl (adds_join step)
  | reject line error =>
    obtain ⟨_, step⟩ := Option.ite_none_right_eq_some.mp step
    cases step
    exact ⟨_, adds_emit p _, .rejected line error⟩
  | _ =>
    obtain ⟨_, step⟩ := Option.ite_none_right_eq_some.mp step
    cases step
    exact ⟨_, adds_emit p _, .plain rfl (plain_singleton rfl rfl)⟩

/-- A part of a poll of the queue notes nothing. -/
theorem adds_onQueue {l : Piece α} {q : Option (Handoff (Job α))} (accepts : l.rejects = false)
    (step : p.onQueue q = some p') : ∃ new, Adds p p' new ∧ Notes p l new := by
  obtain ⟨_, _, rfl⟩ := Option.map_eq_some_iff.mp step
  exact adds_silent accepts rfl rfl

theorem adds_stepPiece {l : Piece α} (step : p.stepPiece l = some p') :
    ∃ new, Adds p p' new ∧ Notes p l new := by
  cases l with
  | whole l => exact adds_step step
  | offer job =>
    obtain ⟨_, step⟩ := Option.ite_none_right_eq_some.mp step
    cases step
    exact adds_silent rfl rfl rfl
  | shutOut ticket => exact adds_onQueue rfl step
  | post ticket => exact adds_onQueue rfl step
  | sight ticket => exact adds_onQueue rfl step
  | ask w =>
    simp only [stepPiece] at step
    split at step
    next => cases step; exact adds_silent rfl rfl rfl
    next => cases step
  | take w =>
    simp only [stepPiece] at step
    split at step
    next => exact adds_onQueue rfl step
    next => cases step

/-! ## Runs -/

/-- Each counter of nodes or lines is the number of the events that it counts. -/
def Tallied (p : Pool α) : Prop :=
  ∀ c, c.isTally = true → p.counters.get c = p.history.countP (·.counts c)

theorem Tallied.adds (tallied : Tallied p) (adds : Adds p p' new) : Tallied p' := by
  intro c tally
  rw [adds.counters c tally, adds.history, tallied c tally, List.countP_append]
  omega

theorem tallied_started (s : Settings) (cancelled : Bool) :
    Tallied (started s cancelled : Pool α) := by
  intro c _
  cases c <;> rfl

theorem tallied_pieces {ls : List (Piece α)} (tallied : Tallied p)
    (run : p.pieces ls = some p') : Tallied p' := by
  refine holds_of_pieces Tallied (fun q q' l tallied step => ?_) tallied run
  obtain ⟨new, adds, _⟩ := adds_stepPiece step
  exact tallied.adds adds

end Pool

end CommandPool
