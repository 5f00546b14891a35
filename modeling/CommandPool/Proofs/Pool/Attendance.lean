import CommandPool.Proofs.Handoff.Deliveries
import CommandPool.Proofs.Handoff.Effort
import CommandPool.Proofs.Pool.WholeLooks
import CommandPool.Proofs.Pool.Workers

/-!
# Receives have their workers

A receive that is under way belongs to the worker that waits in it, and a worker that
waits does so in a receive that is under way.  No receive is left behind when a worker
goes, so whoever has the turn is a worker that can be polled.  With that, with both lines
in order and with every delivery in its place the queue of a pool is `Attended`.
-/

namespace CommandPool

/-- The receive of this turn has not ended. -/
def Handoff.runs {α : Type} (h : Handoff α) (turn : Nat) : Bool :=
  h.recvs[turn]?.any (!·.isEnded)

theorem Handoff.runs_of_state {α : Type} {h : Handoff α} {turn : Nat} {state : RecvState}
    (at_turn : h.recvs[turn]? = some state) : h.runs turn = !state.isEnded := by
  rw [Handoff.runs, at_turn]
  rfl

namespace Pool

variable {α : Type} {p p' : Pool α} {w turn : Nat} {old new : Phase α}

/-- The receive in which a worker waits. -/
def Phase.turn? : Phase α → Option Nat
  | .asking turn => some turn
  | _ => none

/-- The receive in which a worker waits. -/
def turn? (p : Pool α) (w : Nat) : Option Nat := (p.phase? w).bind (·.turn?)

/-- The receives that run are those in which workers wait, each of them in its own. -/
structure Asked (p : Pool α) : Prop where
  runs : ∀ turn, p.queue.runs turn = true ↔ ∃ w, p.turn? w = some turn
  once : ∀ turn i j, p.turn? i = some turn → p.turn? j = some turn → i = j

/-! ## One worker moves -/

theorem turn?_of_phase? {phase : Phase α} (at_w : p.phase? w = some phase) :
    p.turn? w = phase.turn? := by
  rw [turn?, at_w]
  rfl

theorem turn?_of_set (at_w : p.phase? w = some old) (workers : p'.workers = p.workers.set w new)
    (i : Nat) : p'.turn? i = if i = w then new.turn? else p.turn? i := by
  unfold turn?
  rw [phase?_of_set at_w workers]
  split <;> rfl

theorem Asked.of_same (asked : Asked p) (recvs : p'.queue.recvs = p.queue.recvs)
    (turns : ∀ i, p'.turn? i = p.turn? i) : Asked p' where
  runs turn := by
    rw [Handoff.runs, recvs, ← Handoff.runs, asked.runs]
    simp only [turns]
  once turn i j at_i at_j :=
    asked.once turn i j ((turns i).symm.trans at_i) ((turns j).symm.trans at_j)

/-- A worker that waits in no receive moves, and afterwards it does neither. -/
theorem Asked.apart (asked : Asked p) (new : Phase α) (at_w : p.phase? w = some old)
    (workers : p'.workers = p.workers.set w new) (before : old.turn? = none)
    (after : new.turn? = none) (recvs : p'.queue.recvs = p.queue.recvs) : Asked p' := by
  refine asked.of_same recvs fun i => ?_
  rw [turn?_of_set at_w workers]
  split
  next equal => rw [equal, turn?_of_phase? at_w, before, after]
  next => rfl

/-- A worker moves that waits in this receive or starts it, and the receive moves with it:
afterwards the receive runs exactly if the worker waits in it. -/
theorem Asked.moved (asked : Asked p) (turn : Nat) (new : Phase α)
    (at_w : p.phase? w = some old) (workers : p'.workers = p.workers.set w new)
    (others : ∀ i ≠ turn, p'.queue.recvs[i]? = p.queue.recvs[i]?)
    (before : old.turn? = some turn ∨ old.turn? = none ∧ p.queue.recvs[turn]? = none)
    (after : new.turn? = if p'.queue.runs turn then some turn else none) : Asked p' := by
  have turns := turn?_of_set at_w workers
  have mine : ∀ i, p.turn? i = some turn → i = w := by
    intro i at_i
    rcases before with same | ⟨_, fresh⟩
    · exact asked.once turn i w at_i ((turn?_of_phase? at_w).trans same)
    · have runs := (asked.runs turn).mpr ⟨i, at_i⟩
      rw [Handoff.runs, fresh] at runs
      cases runs
  have no_other : ∀ i ≠ turn, p.turn? w ≠ some i := by
    intro i different at_w'
    rw [turn?_of_phase? at_w] at at_w'
    rcases before with same | ⟨none, _⟩
    · exact different (Option.some.inj (at_w'.symm.trans same))
    · cases none.symm.trans at_w'
  have now_other : ∀ i ≠ turn, new.turn? ≠ some i := by
    intro i different now
    rw [now] at after
    split at after
    next => exact different (Option.some.inj after)
    next => cases after
  refine ⟨fun i => ?_, fun i j k at_j at_k => ?_⟩
  · by_cases equal : i = turn
    · subst equal
      constructor
      · intro runs
        refine ⟨w, ?_⟩
        rw [turns, if_pos rfl, after, if_pos runs]
      · rintro ⟨j, at_j⟩
        rw [turns] at at_j
        split at at_j
        next =>
          rw [after] at at_j
          split at at_j
          next runs => exact runs
          next => cases at_j
        next different => exact absurd (mine j at_j) different
    · rw [Handoff.runs, others i equal, ← Handoff.runs, asked.runs]
      refine exists_congr fun j => ?_
      rw [turns]
      split
      next same =>
        subst same
        exact iff_of_false (no_other i equal) (now_other i equal)
      next => rfl
  · rw [turns] at at_j at_k
    by_cases equal : i = turn
    · subst equal
      have both : ∀ l, (if l = w then new.turn? else p.turn? l) = some i → l = w := by
        intro l at_l
        split at at_l
        next same => exact same
        next => exact mine l at_l
      rw [both j at_j, both k at_k]
    · have both : ∀ l, (if l = w then new.turn? else p.turn? l) = some i →
          p.turn? l = some i := by
        intro l at_l
        split at at_l
        next => exact absurd at_l (now_other i equal)
        next => exact at_l
      exact asked.once i j k (both j at_j) (both k at_k)

/-! ## Steps of a worker -/

theorem proceed_turn (p : Pool α) (w : Nat) (t : Task α) (outcome : Outcome) :
    ∃ phase, (p.proceed w t outcome).workers = p.workers.set w phase ∧ phase.turn? = none := by
  unfold proceed
  split
  next => exact ⟨.ready _, rfl, rfl⟩
  next =>
    split
    next => exact ⟨.stopped, rfl, rfl⟩
    next => exact ⟨.idle, rfl, rfl⟩

/-- A worker that has a job does not wait in a receive after its next step either. -/
theorem turn_of_busy {l : Piece α} (step : p.stepPiece l = some p') (named : l.worker? = some w)
    (whole : l.splitsLook = false) (other : ∀ w, l ≠ .whole (.look w)) :
    ∃ old new, p.phase? w = some old ∧ p'.workers = p.workers.set w new ∧ old.turn? = none ∧
      new.turn? = none := by
  have onward : ∀ {old : Phase α} {r : Pool α} {t : Task α} {outcome : Outcome},
      p.phase? w = some old → old.turn? = none → r.workers = p.workers →
      ∃ old new, p.phase? w = some old ∧
        (r.proceed w t outcome).workers = p.workers.set w new ∧ old.turn? = none ∧
        new.turn? = none := by
    intro old r t outcome at_w before workers
    obtain ⟨new, moved, after⟩ := proceed_turn r w t outcome
    exact ⟨old, new, at_w, workers ▸ moved, before, after⟩
  cases l with
  | whole l =>
    cases l <;> cases named
    next => exact absurd rfl (other _)
    next =>
      simp only [stepPiece, Pool.step, start] at step
      split at step
      next at_w => cases step; exact ⟨_, .attempting _, at_w, rfl, rfl, rfl⟩
      next => cases step
    next report =>
      simp only [stepPiece, Pool.step, finish] at step
      split at step
      next t at_w =>
        have workers := (record_fields p report.traces).1
        split at step <;> cases step
        next => exact onward at_w rfl workers
        next error _ =>
          unfold afterError
          split
          next =>
            dsimp only
            split
            next => exact onward (r := ((p.record report.traces).emit _).emit _) at_w rfl workers
            next =>
              let delay := (p.record report.traces).settings.backoff.delay t.retry.retries
              refine ⟨_, .sleeping t.retry error delay, at_w, ?_, rfl, rfl⟩
              exact congrArg (fun phases : List (Phase α) => phases.set w _) workers
          next => exact onward (r := (p.record report.traces).emit _) at_w rfl workers
      next => cases step
    next traces =>
      simp only [stepPiece, Pool.step, crash] at step
      split at step
      next at_w =>
        cases step
        refine ⟨_, .panicked, at_w, ?_, rfl, rfl⟩
        exact congrArg (fun phases : List (Phase α) => phases.set w _) (record_fields p traces).1
      next => cases step
    next =>
      simp only [stepPiece, Pool.step, wake] at step
      split at step
      next at_w =>
        split at step <;> cases step
        next => exact onward (r := p.emit _) at_w rfl rfl
        next => exact ⟨_, .ready _, at_w, rfl, rfl, rfl⟩
      next => cases step
  | ask w => cases whole
  | take w => cases whole
  | _ => cases named

/-- A worker has polled the receive that it waits in or has started. -/
theorem asked_settleAsk {q : Handoff (Job α)} {state : RecvState} (asked : Asked p)
    (agrees : q.Agrees) (at_w : p.phase? w = some old)
    (receives : Handoff.Receives p.queue q turn)
    (before : old.turn? = some turn ∨ old.turn? = none ∧ p.queue.recvs[turn]? = none)
    (at_turn : q.recvs[turn]? = some state) (kept : state ≠ .abandoned) :
    Asked ({ p with queue := q }.settleAsk w turn) := by
  have runs := Handoff.runs_of_state at_turn
  unfold settleAsk
  simp only [at_turn]
  cases state with
  | got ticket =>
    dsimp only
    split
    next s _ =>
      refine asked.moved turn (.ready _) at_w rfl receives.others before ?_
      show none = if q.runs turn then some turn else none
      rw [runs]
      rfl
    next missing =>
      rw [List.getElem?_eq_none_iff] at missing
      exact absurd (agrees.lt_length_of_got at_turn) (Nat.not_lt.mpr missing)
  | closed =>
    have same : q.dropReceiver.recvs = q.recvs := recvs_dropReceiver q
    refine asked.moved turn .stopped at_w rfl (fun i different => ?_) before ?_
    · show q.dropReceiver.recvs[i]? = _
      rw [same]
      exact receives.others i different
    · show none = if q.dropReceiver.runs turn then some turn else none
      rw [Handoff.runs, same, at_turn]
      rfl
  | abandoned => exact absurd rfl kept
  | _ =>
    refine asked.moved turn (.asking turn) at_w rfl receives.others before ?_
    show some turn = if q.runs turn then some turn else none
    rw [runs]
    rfl

theorem asked_look (asked : Asked p) (agrees : p.queue.Agrees) (lined : p.queue.Lined)
    (step : p.look w = some p') : Asked p' := by
  obtain ⟨phase, at_w, step⟩ := Option.bind_eq_some_iff.mp step
  cases phase with
  | idle =>
    simp only [lookFrom] at step
    split at step <;> cases step
    next => exact asked.apart .stopped at_w rfl rfl rfl (recvs_dropReceiver p.queue)
    next =>
      have fresh : p.queue.recvs[p.queue.nextTurn]? = none := by simp [Handoff.nextTurn]
      obtain ⟨state, at_turn, kept⟩ : ∃ state,
          p.queue.startRecv.recvs[p.queue.nextTurn]? = some state ∧ state ≠ .abandoned := by
        unfold Handoff.startRecv
        cases polled : p.queue.ask.pollRecv p.queue.nextTurn with
        | none => exact ⟨.waiting, List.getElem?_concat_length, by simp⟩
        | some q =>
          cases Handoff.polled_pollRecv (fun _ => 0) (Handoff.lined_ask lined) polled with
          | got ticket _ got => exact ⟨_, got, by simp⟩
          | back waits => exact ⟨_, waits, by simp⟩
          | closed ended => exact ⟨_, ended, by simp⟩
      exact asked_settleAsk asked (Handoff.sound_startRecv agrees).agrees at_w
        (Handoff.receives_startRecv p.queue) (Or.inr ⟨rfl, fresh⟩) at_turn kept
  | asking turn =>
    simp only [lookFrom] at step
    split at step
    next cancelled =>
      cases step
      -- The receive runs and holds nothing, so it waits, and can be given up.
      have runs := (asked.runs turn).mpr ⟨w, turn?_of_phase? at_w⟩
      have waiting : p.queue.recvs[turn]? = some .waiting := by
        simp only [Bool.and_eq_true, Bool.not_eq_true', Handoff.holds] at cancelled
        unfold Handoff.runs at runs
        cases at_turn : p.queue.recvs[turn]? with
        | none => rw [at_turn] at runs; cases runs
        | some state =>
          rw [at_turn] at runs cancelled
          cases state with
          | waiting => rfl
          | holding ticket => cases cancelled.2
          | _ => cases runs
      obtain ⟨q, abandoned⟩ : ∃ q, p.queue.abandon turn = some q := ⟨_, if_pos waiting⟩
      have left := (Handoff.recvs_abandon abandoned).2
      have recvs : ((p.queue.abandon turn).getD p.queue).dropReceiver.recvs =
          p.queue.recvs.set turn .abandoned := by
        rw [abandoned, recvs_dropReceiver]
        exact left
      refine asked.moved turn .stopped at_w rfl (fun i different => ?_) (Or.inl rfl) ?_
      · exact (congrArg (·[i]?) recvs).trans (List.getElem?_set_ne different.symm)
      · have ended : ((p.queue.abandon turn).getD p.queue).dropReceiver.recvs[turn]? =
            some .abandoned := by
          rw [recvs]
          exact List.getElem?_set_self (List.getElem?_eq_some_iff.mp waiting).1
        have gone := Handoff.runs_of_state ended
        show none = if ((p.queue.abandon turn).getD p.queue).dropReceiver.runs turn then _ else _
        rw [gone]
        rfl
    next =>
      obtain ⟨q, polled, rfl⟩ := Option.map_eq_some_iff.mp step
      have agrees' := (Handoff.sound_pollRecv agrees polled).agrees
      have receives := Handoff.receives_pollRecv polled
      cases Handoff.polled_pollRecv (fun _ => 0) lined polled with
      | got ticket _ got =>
        exact asked_settleAsk asked agrees' at_w receives (Or.inl rfl) got (by simp)
      | back waits =>
        exact asked_settleAsk asked agrees' at_w receives (Or.inl rfl) waits (by simp)
      | closed ended =>
        exact asked_settleAsk asked agrees' at_w receives (Or.inl rfl) ended (by simp)
  | sleeping t error delay =>
    obtain ⟨_, step⟩ := Option.ite_none_right_eq_some.mp step
    cases step
    obtain ⟨new, workers, after⟩ := proceed_turn (p.emit (.failed (t.cutShort.spot w)
      t.cutShort.retries error)) w t.cutShort .failed
    exact asked.apart _ at_w workers rfl after (recvs_proceed _ w _ .failed)
  | _ => cases step

/-! ## Pieces -/

theorem asked_stepPiece {l : Piece α} (asked : Asked p) (agrees : p.queue.Agrees)
    (lined : p.queue.Lined) (step : p.stepPiece l = some p') : Asked p' := by
  by_cases look : ∃ w, l = .whole (.look w)
  · obtain ⟨w, rfl⟩ := look
    exact asked_look asked agrees lined step
  · have other : ∀ w, l ≠ .whole (.look w) := fun w same => look ⟨w, same⟩
    cases splits : l.splitsLook with
    | false =>
      have recvs := recvs_stepPiece step splits other
      cases named : l.worker? with
      | none =>
        refine asked.of_same recvs fun i => ?_
        rw [turn?, phase?, (unstirred_stepPiece step named).workers, ← phase?, ← turn?]
      | some w =>
        obtain ⟨old, new, at_w, workers, before, after⟩ := turn_of_busy step named splits other
        exact asked.apart _ at_w workers before after recvs
    | true =>
      cases l with
      | ask w =>
        simp only [stepPiece] at step
        split at step
        next at_w =>
          cases step
          have fresh : p.queue.recvs[p.queue.nextTurn]? = none := by simp [Handoff.nextTurn]
          have waits : p.queue.ask.recvs[p.queue.nextTurn]? = some .waiting :=
            List.getElem?_concat_length
          have runs := Handoff.runs_of_state waits
          refine asked.moved p.queue.nextTurn (.asking _) at_w rfl
            (fun i different => ?_) (Or.inr ⟨rfl, fresh⟩) ?_
          · show (p.queue.recvs ++ [.waiting])[i]? = _
            rw [List.getElem?_append]
            split
            next => rfl
            next outside =>
              have past : 1 ≤ i - p.queue.recvs.length := by
                unfold Handoff.nextTurn at different
                omega
              rw [List.getElem?_eq_none (by simpa using past), List.getElem?_eq_none (by omega)]
          · show some _ = if p.queue.ask.runs p.queue.nextTurn then _ else _
            rw [runs]
            rfl
        next => cases step
      | take w =>
        simp only [stepPiece] at step
        split at step
        next turn at_w =>
          obtain ⟨q, part, rfl⟩ := Option.map_eq_some_iff.mp step
          obtain ⟨first, _⟩ := Option.ite_none_right_eq_some.mp part
          obtain ⟨ticket, moved⟩ := Handoff.recvs_take part
          have waiting := (lined.turns turn).mp (List.mem_of_mem_head? first)
          have inside := (List.getElem?_eq_some_iff.mp waiting).1
          have workers : p.workers = p.workers.set w (.asking turn) := by
            obtain ⟨inside, here⟩ := List.getElem?_eq_some_iff.mp at_w
            rw [← here, List.set_getElem_self]
          have holds : q.recvs[turn]? = some (.holding ticket) := by
            rw [moved]
            exact List.getElem?_set_self inside
          have runs := Handoff.runs_of_state holds
          refine asked.moved turn (.asking turn) at_w workers
            (fun i different => ?_) (Or.inl rfl) ?_
          · show q.recvs[i]? = _
            rw [moved, List.getElem?_set_ne different.symm]
          · show some turn = if q.runs turn then some turn else none
            rw [runs]
            rfl
        next => cases step
      | _ => cases splits

/-! ## The queue -/

theorem Acts.lined {l : Piece α} {h h' : Handoff (Job α)} (acts : Acts h l h')
    (lined : h.Lined) : h'.Lined := by
  cases acts with
  | nothing => exact lined
  | submit job => exact Handoff.lined_startSend lined job signal
  | pollSubmit polled => exact Handoff.lined_pollSend lined polled
  | close => exact Handoff.lined_of_same lined rfl rfl rfl rfl rfl rfl
  | cancel => exact Handoff.lined_of_same lined rfl rfl rfl rfl rfl rfl
  | offer job => exact Handoff.lined_offer lined job signal
  | shutOut part => exact Handoff.lined_shutOut lined part
  | post part => exact Handoff.lined_post lined part
  | sight part => exact Handoff.lined_sight lined part
  | ask w => exact Handoff.lined_ask lined
  | take part => exact Handoff.lined_take lined part
  | receive w => exact Handoff.lined_startRecv lined
  | pollReceive polled => exact Handoff.lined_pollRecv lined polled
  | abandon part => exact Handoff.lined_abandon lined part

theorem Acts.placed {l : Piece α} {h h' : Handoff (Job α)} (acts : Acts h l h')
    (lined : h.Lined) (placed : h.Placed) : h'.Placed := by
  have same : ∀ {q : Handoff (Job α)}, q.sends = h.sends → q.slot = h.slot → q.recvs = h.recvs →
      q.Placed := by
    intro q sends slot recvs
    refine Handoff.placed_of_same placed sends fun ticket place => ?_
    cases place with
    | slot => rw [Handoff.Lies, slot, ← Handoff.Lies]
    | hands turn => rw [Handoff.Lies, recvs, ← Handoff.Lies]
  cases acts with
  | nothing => exact placed
  | submit job => exact Handoff.placed_startSend placed job signal
  | pollSubmit polled => exact Handoff.placed_pollSend placed polled
  | close => exact same rfl rfl rfl
  | cancel => exact same rfl rfl rfl
  | offer job => exact Handoff.placed_offer placed job signal
  | shutOut part => exact Handoff.placed_shutOut placed part
  | post part => exact Handoff.placed_post placed part
  | sight part => exact Handoff.placed_sight placed part
  | ask w => exact Handoff.placed_ask placed
  | take part => exact Handoff.placed_take lined placed part
  | receive w => exact Handoff.placed_startRecv lined placed
  | pollReceive polled => exact Handoff.placed_pollRecv lined placed polled
  | abandon part => exact Handoff.placed_abandon placed part

/-- The lines are in order, each delivery has its place and each receive its worker. -/
structure Attended (p : Pool α) : Prop where
  lined : p.queue.Lined
  placed : p.queue.Placed
  asked : Asked p

theorem attended_stepPiece {l : Piece α} (attended : Attended p) (agrees : p.queue.Agrees)
    (step : p.stepPiece l = some p') : Attended p' := by
  have asked := asked_stepPiece attended.asked agrees attended.lined step
  obtain ⟨q, acts, same | dropped⟩ := acts_stepPiece step
  · refine ⟨?_, ?_, asked⟩
    · rw [same]
      exact acts.lined attended.lined
    · rw [same]
      exact acts.placed attended.lined attended.placed
  · refine ⟨?_, ?_, asked⟩
    · rw [dropped]
      exact Handoff.lined_dropReceiver (acts.lined attended.lined)
    · rw [dropped]
      exact Handoff.placed_dropReceiver (acts.placed attended.lined attended.placed)

theorem attended_started (s : Settings) (cancelled : Bool) :
    Attended (started s cancelled : Pool α) where
  lined := Handoff.lined_of_same (Handoff.lined_new s.workers) rfl rfl rfl rfl rfl rfl
  placed := Handoff.placed_of_same (Handoff.placed_new s.workers) rfl fun _ place => by
    cases place <;> rfl
  asked := by
    have nobody : ∀ i, (started s cancelled : Pool α).turn? i = none := by
      intro i
      have idle : (started s cancelled : Pool α).phase? i =
          if i < s.workers then some .idle else none := List.getElem?_replicate
      rw [turn?, idle]
      split <;> rfl
    refine ⟨fun turn => iff_of_false nofun ?_, fun turn i j at_i => ?_⟩
    · rintro ⟨w, at_w⟩
      cases (nobody w).symm.trans at_w
    · cases (nobody i).symm.trans at_i

end Pool

end CommandPool
