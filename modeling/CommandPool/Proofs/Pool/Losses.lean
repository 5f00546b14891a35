import CommandPool.Proofs.Pool.Steady

/-!
# Workers that are lost

A panic takes down the worker that ran the action, and no other.  It is on record once for
each worker that is down.

The client that waits goes from worker to worker in the order of their numbers, and mourns
each one that was taken down.  So at any time the workers that were mourned are those
before the one it waits for that were taken down, in that order.
-/

namespace CommandPool.Pool

variable {α : Type} {p p' p'' : Pool α}

/-- The event says that a worker was taken down, or that it is found to have panicked. -/
def Event.isLoss : Event → Bool
  | .panicked _ => true
  | .mourned _ => true
  | _ => false

/-- The worker was taken down by this. -/
def Event.takesDown (e : Event) (w : Nat) : Bool :=
  match e with
  | .panicked spot => spot.worker == w
  | _ => false

/-- The worker that is found to have panicked. -/
def Event.mourned? : Event → Option Nat
  | .mourned w => some w
  | _ => none

/-- What is on record of lost workers, the latest first. -/
def losses (p : Pool α) : List Event := p.history.filter (·.isLoss)

/-- How often this worker was taken down. -/
def falls (p : Pool α) (w : Nat) : Nat := p.history.countP (·.takesDown w)

/-- The workers that were found to have panicked, the earliest first. -/
def mourned (p : Pool α) : List Nat := p.history.reverse.filterMap (·.mourned?)

/-- The worker was taken down. -/
def isDown (p : Pool α) (w : Nat) : Bool := (p.phase? w).any (·.isPanicked)

theorem falls_eq (p : Pool α) (w : Nat) : p.falls w = p.losses.countP (·.takesDown w) := by
  have loss : ∀ e : Event, e.takesDown w = (e.takesDown w && e.isLoss) := by
    intro e
    cases e <;> simp [Event.takesDown, Event.isLoss]
  rw [falls, losses, List.countP_filter]
  exact List.countP_congr fun e _ => by rw [← loss]

theorem mourned_eq (p : Pool α) : p.mourned = p.losses.reverse.filterMap (·.mourned?) := by
  have loss : ∀ e : Event, e.mourned? = if e.isLoss then e.mourned? else none := by
    intro e
    cases e <;> rfl
  rw [mourned, losses, ← List.filter_reverse, List.filterMap_filter]
  exact congrArg (List.filterMap · p.history.reverse) (funext loss)

/-! ## Steps that are not about lost workers -/

/-- The client that waits is where it was, and nothing new is on record of lost workers. -/
structure Apart (p p' : Pool α) : Prop where
  joined : p'.joined = p.joined
  losses : p'.losses = p.losses

theorem Apart.trans (first : Apart p p') (second : Apart p' p'') : Apart p p'' :=
  ⟨second.joined.trans first.joined, second.losses.trans first.losses⟩

theorem apart_of_same (joined : p'.joined = p.joined) (history : p'.history = p.history) :
    Apart p p' :=
  ⟨joined, by rw [losses, history, ← losses]⟩

theorem apart_emit (p : Pool α) {e : Event} (other : e.isLoss = false) : Apart p (p.emit e) :=
  ⟨rfl, List.filter_cons_of_neg (by simp [other])⟩

theorem apart_record (p : Pool α) (traces : Traces) : Apart p (p.record traces) := by
  obtain ⟨_, _, _, joined, history⟩ := record_fields p traces
  refine ⟨joined, ?_⟩
  have none : (traces.log.map Event.noted).reverse.filter (·.isLoss) = [] := by
    simp [List.filter_eq_nil_iff, Event.isLoss]
  rw [losses, history, List.filter_append, none, List.nil_append, ← losses]

theorem apart_proceed (p : Pool α) (w : Nat) (t : Task α) (outcome : Outcome) :
    Apart p (p.proceed w t outcome) := by
  obtain ⟨_, _, _, _, _, joined, history⟩ := proceed_fields p w t outcome
  exact apart_of_same joined history

theorem apart_failNode (p : Pool α) (w : Nat) (t : Task α) (error : JobError) :
    Apart p (p.failNode w t error) :=
  (apart_emit p rfl).trans (apart_proceed _ w t .failed)

theorem apart_settleAsk (p : Pool α) (q : Handoff (Job α)) (w turn : Nat) :
    Apart p ({ p with queue := q }.settleAsk w turn) := by
  unfold settleAsk
  split
  next => split <;> exact apart_of_same rfl rfl
  next => exact apart_of_same rfl rfl
  next => exact apart_of_same rfl rfl

theorem apart_look {w : Nat} (step : p.look w = some p') : Apart p p' := by
  obtain ⟨phase, _, step⟩ := Option.bind_eq_some_iff.mp step
  cases phase with
  | idle =>
    simp only [lookFrom] at step
    split at step <;> cases step
    next => exact apart_of_same rfl rfl
    next => exact apart_settleAsk p _ w _
  | asking turn =>
    simp only [lookFrom] at step
    split at step
    next => cases step; exact apart_of_same rfl rfl
    next =>
      obtain ⟨q, _, rfl⟩ := Option.map_eq_some_iff.mp step
      exact apart_settleAsk p q w turn
  | sleeping t error delay =>
    obtain ⟨_, step⟩ := Option.ite_none_right_eq_some.mp step
    cases step
    exact apart_failNode p w _ error
  | _ => cases step

theorem apart_afterError (p : Pool α) (w : Nat) (t : Task α) (error : JobError) :
    Apart p (p.afterError w t error) := by
  unfold afterError
  split
  next =>
    dsimp only
    split
    next => exact (apart_emit p rfl).trans (apart_failNode _ w _ error)
    next => exact (apart_emit p rfl).trans (apart_of_same rfl rfl)
  next => exact apart_failNode p w t error

theorem apart_finish {w : Nat} {report : Report} (step : p.finish w report = some p') :
    Apart p p' := by
  unfold finish at step
  split at step
  next t _ =>
    have recorded := apart_record p report.traces
    split at step <;> cases step
    next => exact recorded.trans ((apart_emit _ rfl).trans (apart_proceed _ w t .succeeded))
    next error _ => exact recorded.trans (apart_afterError _ w t error)
  next => cases step

theorem apart_wake {w : Nat} (step : p.wake w = some p') : Apart p p' := by
  unfold wake at step
  split at step
  next =>
    split at step <;> cases step
    next => exact apart_failNode p w _ _
    next => exact (apart_emit p rfl).trans (apart_of_same rfl rfl)
  next => cases step

theorem apart_onQueue {q : Option (Handoff (Job α))} (step : p.onQueue q = some p') :
    Apart p p' := by
  obtain ⟨_, _, rfl⟩ := Option.map_eq_some_iff.mp step
  exact apart_of_same rfl rfl

/-! ## All pieces -/

/-- The worker that the piece takes down. -/
def Piece.felled? : Piece α → Option Nat
  | .whole (.crash w _) => some w
  | _ => none

/-- What a piece has to do with lost workers. -/
inductive Loses (p p' : Pool α) : Piece α → Prop where
  | apart {l : Piece α} : l.felled? = none → Apart p p' → Loses p p' l
  | crashed (w : Nat) (traces : Traces) (t : Task α) : p.phase? w = some (.attempting t) →
      p'.phase? w = some .panicked → p'.joined = p.joined →
      p'.losses = .panicked (t.spot w) :: p.losses → Loses p p' (.whole (.crash w traces))
  | begins : p.joined = none → p'.joined = some 0 → p'.losses = p.losses →
      Loses p p' (.whole .beginJoin)
  | next (k : Nat) (phase : Phase α) : p.joined = some k → p.phase? k = some phase →
      phase.isGone = true → p'.joined = some (k + 1) →
      p'.losses = (if phase.isPanicked then [.mourned k] else []) ++ p.losses →
      Loses p p' (.whole .join)

theorem loses_crash {w : Nat} {traces : Traces} (step : p.crash w traces = some p') :
    Loses p p' (.whole (.crash w traces)) := by
  unfold crash at step
  split at step
  next t at_w =>
    cases step
    have recorded := apart_record p traces
    refine .crashed w traces t at_w ?_ recorded.joined ?_
    · exact List.getElem?_set_self (inside_record at_w)
    · exact congrArg (Event.panicked (t.spot w) :: ·) recorded.losses
  next => cases step

theorem loses_join (step : p.join = some p') : Loses p p' (.whole .join) := by
  unfold join at step
  split at step
  next => cases step
  next k waits =>
    split at step
    next at_k =>
      cases step
      exact .next k .stopped waits at_k rfl rfl rfl
    next at_k =>
      cases step
      exact .next k .panicked waits at_k rfl rfl rfl
    next => cases step

theorem loses_stepPiece {l : Piece α} (step : p.stepPiece l = some p') : Loses p p' l := by
  cases l with
  | whole l =>
    cases l with
    | look w => exact .apart rfl (apart_look step)
    | start w =>
      simp only [stepPiece, Pool.step, start] at step
      split at step
      next =>
        cases step
        exact .apart rfl ((apart_emit p rfl).trans (apart_of_same rfl rfl))
      next => cases step
    | finish w report => exact .apart rfl (apart_finish step)
    | crash w traces => exact loses_crash step
    | wake w => exact .apart rfl (apart_wake step)
    | submit job =>
      obtain ⟨_, step⟩ := Option.ite_none_right_eq_some.mp step
      cases step
      exact .apart rfl (apart_of_same rfl rfl)
    | pollSubmit ticket => exact .apart rfl (apart_onQueue step)
    | close =>
      obtain ⟨rfl, _⟩ := close_eq_some step
      exact .apart rfl (apart_of_same rfl rfl)
    | cancel => cases step; exact .apart rfl (apart_of_same rfl rfl)
    | beginJoin =>
      obtain ⟨unjoined, step⟩ := Option.ite_none_left_eq_some.mp step
      obtain ⟨closed, closes, rfl⟩ := Option.map_eq_some_iff.mp step
      obtain ⟨rfl, _⟩ := close_eq_some closes
      exact .begins (by simpa using unjoined) rfl rfl
    | join => exact loses_join step
    | _ =>
      obtain ⟨_, step⟩ := Option.ite_none_right_eq_some.mp step
      cases step
      exact .apart rfl (apart_emit p rfl)
  | offer job =>
    obtain ⟨_, step⟩ := Option.ite_none_right_eq_some.mp step
    cases step
    exact .apart rfl (apart_of_same rfl rfl)
  | shutOut ticket => exact .apart rfl (apart_onQueue step)
  | post ticket => exact .apart rfl (apart_onQueue step)
  | sight ticket => exact .apart rfl (apart_onQueue step)
  | ask w =>
    simp only [stepPiece] at step
    split at step
    next => cases step; exact .apart rfl (apart_of_same rfl rfl)
    next => cases step
  | take w =>
    simp only [stepPiece] at step
    split at step
    next => exact .apart rfl (apart_onQueue step)
    next => cases step

/-! ## Panics -/

/-- The panics on record are those of the workers that are down, each of them once. -/
def Reported (p : Pool α) : Prop := ∀ w, p.falls w = (p.isDown w).toNat

theorem isDown_of_keeps (keeps : Keeps p p') {w : Nat} {phase : Phase α}
    (at_w : p.phase? w = some phase) (gone : phase.isGone = true) : p'.isDown w = p.isDown w := by
  rw [isDown, isDown, keeps.gone w phase at_w gone, at_w]

theorem phase?_of_isDown {w : Nat} (down : p.isDown w = true) : p.phase? w = some .panicked := by
  obtain ⟨phase, at_w, panicked⟩ := (Option.any_eq_true _ _).mp down
  cases phase with
  | panicked => exact at_w
  | _ => cases panicked

/-- Only a panic takes a worker down, and only its own. -/
theorem isDown_stepPiece {l : Piece α} {w : Nat} (agrees : p.queue.Agrees)
    (step : p.stepPiece l = some p') (other : l.felled? ≠ some w) :
    p'.isDown w = p.isDown w := by
  obtain ⟨keeps, _⟩ := change_stepPiece agrees step
  cases before : p.isDown w with
  | true => rw [isDown_of_keeps keeps (phase?_of_isDown before) rfl, before]
  | false =>
    refine Bool.eq_false_iff.mpr fun after => ?_
    rcases leaves_stepPiece agrees step (phase?_of_isDown after) rfl with still | leaves
    · rw [isDown, still] at before
      cases before
    · cases leaves with
      | crashed traces same => exact other (congrArg Piece.felled? same)

theorem Reported.of_losses {l : Piece α} (reported : Reported p) (agrees : p.queue.Agrees)
    (step : p.stepPiece l = some p') (spared : l.felled? = none)
    (falls : ∀ w, p'.falls w = p.falls w) : Reported p' := fun w => by
  rw [falls, isDown_stepPiece agrees step (by simp [spared]), reported w]

theorem reported_stepPiece {l : Piece α} (agrees : p.queue.Agrees) (reported : Reported p)
    (step : p.stepPiece l = some p') : Reported p' := by
  cases loses_stepPiece step with
  | apart spared apart =>
    exact reported.of_losses agrees step spared fun w => by rw [falls_eq, apart.losses, ← falls_eq]
  | crashed w traces t at_w now _ losses =>
    intro i
    rw [falls_eq, losses, List.countP_cons, ← falls_eq, reported i]
    by_cases equal : w = i
    · subst equal
      simp [isDown, at_w, now, Phase.isPanicked, Event.takesDown, Task.spot]
    · have elsewhere : (Piece.whole (.crash w traces) : Piece α).felled? ≠ some i :=
        fun same => equal (Option.some.inj same)
      simp [isDown_stepPiece agrees step elsewhere, Event.takesDown, Task.spot, equal]
  | begins _ _ losses =>
    exact reported.of_losses agrees step rfl fun w => by rw [falls_eq, losses, ← falls_eq]
  | next k phase _ _ _ _ losses =>
    refine reported.of_losses agrees step rfl fun w => ?_
    rw [falls_eq, losses, List.countP_append, ← falls_eq]
    split <;> exact Nat.zero_add _

/-- A worker whose panic is on record is down. -/
theorem Reported.isDown (reported : Reported p) {spot : Spot}
    (panicked : .panicked spot ∈ p.history) : p.isDown spot.worker = true := by
  have once := reported spot.worker
  have some_panic : 0 < p.falls spot.worker :=
    List.countP_pos_iff.mpr ⟨_, panicked, by simp [Event.takesDown]⟩
  cases down : p.isDown spot.worker with
  | true => rfl
  | false =>
    rw [down] at once
    exact absurd once (Nat.ne_of_gt some_panic)

theorem reported_started (s : Settings) (cancelled : Bool) :
    Reported (started s cancelled : Pool α) := by
  intro w
  have idle : (started s cancelled : Pool α).phase? w =
      if w < s.workers then some .idle else none := List.getElem?_replicate
  rw [isDown, idle]
  split <;> rfl

/-! ## Workers that are mourned -/

/-- How many workers the client has gone past. -/
def passed (p : Pool α) : Nat := p.joined.getD 0

/-- The client has gone past no more workers than there are, and has mourned those of
them that were taken down, in order. -/
structure Mourns (p : Pool α) : Prop where
  inside : p.passed ≤ p.workers.length
  mourned : p.mourned = (List.range p.passed).filter p.isDown

/-- What is known of the workers that the client has gone past stays known. -/
theorem Chronicle.filter_isDown (chronicle : Chronicle p) (keeps : Keeps p p') :
    (List.range p.passed).filter p'.isDown = (List.range p.passed).filter p.isDown := by
  refine List.filter_congr fun i inside => ?_
  rw [List.mem_range, passed] at inside
  cases waits : p.joined with
  | none =>
    rw [waits] at inside
    cases inside
  | some k =>
    rw [waits] at inside
    obtain ⟨phase, at_i, gone⟩ := (chronicle.joined k waits).2 i inside
    exact isDown_of_keeps keeps at_i gone

/-- The client goes past no worker, and mourns none. -/
theorem Mourns.stays (mourns : Mourns p) (chronicle : Chronicle p) (keeps : Keeps p p')
    (passed : p'.passed = p.passed) (mourned : p'.mourned = p.mourned) : Mourns p' where
  inside := by
    rw [passed, keeps.count]
    exact mourns.inside
  mourned := by
    rw [mourned, passed, chronicle.filter_isDown keeps]
    exact mourns.mourned

theorem mourns_stepPiece {l : Piece α} (chronicle : Chronicle p) (mourns : Mourns p)
    (step : p.stepPiece l = some p') : Mourns p' := by
  obtain ⟨keeps, _⟩ := change_stepPiece chronicle.agrees step
  cases loses_stepPiece step with
  | apart _ apart =>
    refine mourns.stays chronicle keeps ?_ ?_
    · rw [passed, apart.joined, ← passed]
    · rw [mourned_eq, apart.losses, ← mourned_eq]
  | crashed w traces t _ _ joined losses =>
    refine mourns.stays chronicle keeps ?_ ?_
    · rw [passed, joined, ← passed]
    · rw [mourned_eq, losses, mourned_eq]
      simp [Event.mourned?]
  | begins unjoined begun losses =>
    refine mourns.stays chronicle keeps ?_ ?_
    · rw [passed, passed, unjoined, begun]
      rfl
    · rw [mourned_eq, losses, ← mourned_eq]
  | next k phase waits at_k gone goes losses =>
    have here : p.passed = k := by rw [passed, waits]; rfl
    have next : p'.passed = k + 1 := by rw [passed, goes]; rfl
    have down : p'.isDown k = phase.isPanicked := by
      rw [isDown_of_keeps keeps at_k gone, isDown, at_k]
      rfl
    have known := chronicle.filter_isDown keeps
    rw [here] at known
    refine ⟨?_, ?_⟩
    · rw [next, keeps.count]
      exact (List.getElem?_eq_some_iff.mp at_k).1
    · have last : [k].filter p'.isDown = if phase.isPanicked then [k] else [] := by
        rw [List.filter_cons, down]
        rfl
      have before := mourns.mourned
      rw [here] at before
      rw [next, List.range_succ, List.filter_append, known, last, ← before, mourned_eq, losses,
        List.reverse_append, List.filterMap_append, ← mourned_eq]
      split <;> rfl

theorem mourns_started (s : Settings) (cancelled : Bool) :
    Mourns (started s cancelled : Pool α) where
  inside := Nat.zero_le _
  mourned := rfl

end CommandPool.Pool
