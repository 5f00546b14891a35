import CommandPool.Proofs.Handoff.Progress
import CommandPool.Proofs.Pool.Effort

/-!
# Pools that come to rest

A client begins a submission, a remark, a close or a join, and somebody cancels the run.
Every other piece leaves less to do, so from each state only so many of them are possible,
whichever are taken and whatever the attempts give.  When none is possible any more the
pool is quiet.  Then every submission has ended, every worker is gone or waits for a job
that nobody submits, and a client that waits for the workers has waited for all of them.
-/

namespace CommandPool.Pool

variable {α : Type} {p p' : Pool α} {w : Nat} {phase : Phase α}

/-- What holds in every state of a run. -/
structure Orderly (p : Pool α) : Prop where
  chronicle : Chronicle p
  manned : Manned p
  attended : Attended p
  mourns : Mourns p
  reported : Reported p

theorem orderly_stepPiece {l : Piece α} (orderly : Orderly p) (step : p.stepPiece l = some p') :
    Orderly p' := by
  have agrees := orderly.chronicle.agrees
  obtain ⟨keeps, change⟩ := change_stepPiece agrees step
  exact {
    chronicle := chronicle_change orderly.chronicle keeps change
    manned := manned_stepPiece agrees orderly.manned step
    attended := attended_stepPiece orderly.attended agrees step
    mourns := mourns_stepPiece orderly.chronicle orderly.mourns step
    reported := reported_stepPiece agrees orderly.reported step }

theorem orderly_started (s : Settings) (cancelled : Bool) :
    Orderly (started s cancelled : Pool α) where
  chronicle := chronicle_started s cancelled
  manned := manned_started s cancelled
  attended := attended_started s cancelled
  mourns := mourns_started s cancelled
  reported := reported_started s cancelled

/-! ## Workers that can move -/

/-- What a worker does is not begun by a client, and is no cancellation. -/
theorem ongoing_of_named {l : Piece α} (named : l.worker? = some w) :
    l.begins = false ∧ l.cancels = false := by
  rcases l with (_ | _) | _ <;> first | exact ⟨rfl, rfl⟩ | cases named

/-- A worker is gone, waits for a job, or can move. -/
theorem moves_or_waits (at_w : p.phase? w = some phase) :
    phase.isGone = true ∨ (∃ turn, phase = .asking turn) ∨
      ∃ (l : Piece α) (q : Pool α), l.worker? = some w ∧ p.stepPiece l = some q := by
  have moves : ∀ l : Piece α, l.worker? = some w → p.stepPiece l ≠ none →
      ∃ (l : Piece α) (q : Pool α), l.worker? = some w ∧ p.stepPiece l = some q := by
    intro l named possible
    obtain ⟨q, step⟩ := Option.ne_none_iff_exists'.mp possible
    exact ⟨l, q, named, step⟩
  cases phase with
  | idle =>
    refine Or.inr (Or.inr (moves (.whole (.look w)) rfl ?_))
    simp only [stepPiece, step, look, at_w, Option.bind_some, lookFrom]
    split <;> simp
  | asking turn => exact Or.inr (Or.inl ⟨turn, rfl⟩)
  | ready t =>
    refine Or.inr (Or.inr (moves (.whole (.start w)) rfl ?_))
    simp [stepPiece, step, start, at_w]
  | attempting t =>
    refine Or.inr (Or.inr (moves (.whole (.crash w .none)) rfl ?_))
    simp [stepPiece, step, crash, at_w]
  | sleeping t error delay =>
    refine Or.inr (Or.inr (moves (.whole (.wake w)) rfl ?_))
    simp only [stepPiece, step, wake, at_w]
    split <;> simp
  | stopped => exact Or.inl rfl
  | panicked => exact Or.inl rfl

/-- A worker that waits in a receive can move if a poll of the receive changes anything. -/
theorem pollRecv_eq_none {turn : Nat} (at_w : p.phase? w = some (.asking turn))
    (stuck : p.look w = none) : p.queue.pollRecv turn = none := by
  simp only [look, at_w, Option.bind_some, lookFrom] at stuck
  split at stuck
  next => cases stuck
  next => exact Option.map_eq_none_iff.mp stuck

/-! ## Quiet pools -/

/-- No piece is possible but those that a client begins and a cancellation. -/
def IsQuiet (p : Pool α) : Prop :=
  ∀ l : Piece α, l.begins = false → l.cancels = false → p.stepPiece l = none

theorem IsQuiet.gone_or_asking (quiet : IsQuiet p) (at_w : p.phase? w = some phase) :
    phase.isGone = true ∨ ∃ turn, phase = .asking turn := by
  rcases moves_or_waits at_w with gone | asking | ⟨l, q, named, step⟩
  · exact Or.inl gone
  · exact Or.inr asking
  · obtain ⟨ongoing, kept⟩ := ongoing_of_named named
    cases (quiet l ongoing kept).symm.trans step

theorem IsQuiet.nobody (quiet : IsQuiet p) (w : Nat) : p.stage? w = none := by
  cases at_w : p.phase? w with
  | none => rw [stage?, at_w]; rfl
  | some phase =>
    rw [stage?_of_phase? at_w]
    rcases quiet.gone_or_asking at_w with gone | ⟨turn, rfl⟩
    · cases phase <;> first | rfl | cases gone
    · rfl

theorem IsQuiet.pollSend (quiet : IsQuiet p) (ticket : Nat) : p.queue.pollSend ticket = none :=
  Option.map_eq_none_iff.mp (quiet (.whole (.pollSubmit ticket)) rfl rfl)

/-- A receive that runs has a worker, and that one could move otherwise. -/
theorem IsQuiet.pollRecv (quiet : IsQuiet p) (asked : Asked p) (turn : Nat) (state : RecvState)
    (at_turn : p.queue.recvs[turn]? = some state) (running : state.isEnded = false) :
    p.queue.pollRecv turn = none := by
  have runs : p.queue.runs turn = true := by
    rw [Handoff.runs_of_state at_turn, running]
    rfl
  obtain ⟨w, waits⟩ := (asked.runs turn).mp runs
  obtain ⟨phase, at_w, asking⟩ := Option.bind_eq_some_iff.mp waits
  cases phase with
  | asking other =>
    cases asking
    exact pollRecv_eq_none at_w (quiet (.whole (.look w)) rfl rfl)
  | _ => cases asking

/-- A worker waits only as long as a receive is in line. -/
theorem IsQuiet.gone (quiet : IsQuiet p) (attended : Attended p) (turns : p.queue.turns = [])
    (at_w : p.phase? w = some phase) : phase.isGone = true := by
  rcases quiet.gone_or_asking at_w with gone | ⟨turn, rfl⟩
  · exact gone
  · have runs := (attended.asked.runs turn).mpr ⟨w, turn?_of_phase? at_w⟩
    obtain ⟨state, at_turn, running⟩ := (Option.any_eq_true _ _).mp runs
    cases state with
    | waiting =>
      have inLine := (attended.lined.turns turn).mpr at_turn
      rw [turns] at inLine
      cases inLine
    | holding ticket =>
      exact absurd at_turn (Handoff.unheld_of_stuck (quiet.pollRecv attended.asked) turn ticket)
    | _ => cases running

/-- No worker is left. -/
def IsDeserted (p : Pool α) : Prop := ∀ w phase, p.phase? w = some phase → phase.isGone = true

theorem isDeserted_iff : IsDeserted p ↔ p.workers.all (·.isGone) = true := by
  simp only [IsDeserted, phase?, List.all_eq_true, List.mem_iff_getElem?]
  constructor
  · rintro deserted phase ⟨w, at_w⟩
    exact deserted w phase at_w
  · intro all w phase at_w
    exact all phase ⟨w, at_w⟩

instance : Decidable (IsDeserted p) := decidable_of_iff _ isDeserted_iff.symm

theorem receivers_eq_zero_iff (manned : Manned p) : p.queue.receivers = 0 ↔ IsDeserted p := by
  rw [isDeserted_iff, manned, List.countP_eq_zero, List.all_eq_true]
  simp

/-- In a quiet pool every submission has ended, and when the sender is gone nobody waits
for a job any more. -/
theorem IsQuiet.ended (quiet : IsQuiet p) (orderly : Orderly p) :
    p.queue.sending = false ∧ (p.queue.senderGone = true → p.queue.turns = []) :=
  Handoff.ended_of_stuck orderly.attended.lined orderly.attended.placed quiet.pollSend
    (quiet.pollRecv orderly.attended.asked) fun turns =>
      (receivers_eq_zero_iff orderly.manned).mpr fun _ _ => quiet.gone orderly.attended turns

/-- In a quiet pool a client that waits for the workers has waited for all of them. -/
theorem IsQuiet.isJoined (quiet : IsQuiet p) (orderly : Orderly p) (joins : p.joined ≠ none) :
    p.isJoined = true := by
  obtain ⟨k, joined⟩ := Option.ne_none_iff_exists'.mp joins
  have inside : k ≤ p.workers.length := by
    have past := orderly.mourns.inside
    rwa [passed, joined] at past
  rcases Nat.lt_or_eq_of_le inside with less | last
  · have at_k : p.phase? k = some p.workers[k] := List.getElem?_eq_getElem less
    have senderGone := (orderly.chronicle.joined k joined).1
    have gone := quiet.gone orderly.attended ((quiet.ended orderly).2 senderGone) at_k
    have unmoved := quiet (.whole .join) rfl rfl
    simp only [stepPiece, step, join, joined, at_k] at unmoved
    cases phase : p.workers[k] with
    | stopped => rw [phase] at unmoved; cases unmoved
    | panicked => rw [phase] at unmoved; cases unmoved
    | _ => rw [phase] at gone; cases gone
  · rw [Pool.isJoined, joined, last]
    exact beq_self_eq_true _

/-! ## A pool that is joined is quiet -/

theorem isEnded_of_sending {h : Handoff α} {ticket : Nat} {state : SendState}
    (ended : h.sending = false) (at_ticket : h.sendState? ticket = some state) :
    state.isEnded = true := by
  obtain ⟨s, found, rfl⟩ := Handoff.sendState?_eq_some_iff.mp at_ticket
  simpa using List.any_eq_false.mp ended s (List.mem_of_getElem? found)

theorem pollSend_of_ended {h : Handoff α} (ended : h.sending = false) (ticket : Nat) :
    h.pollSend ticket = none := by
  unfold Handoff.pollSend
  split
  next waiting => cases isEnded_of_sending ended waiting
  next posted => cases isEnded_of_sending ended posted
  next leaving => cases isEnded_of_sending ended leaving
  next taken => cases isEnded_of_sending ended taken
  next lost => cases isEnded_of_sending ended lost
  next => rfl
  next => rfl

/-- Workers that are gone do not move. -/
theorem not_named_of_gone {l : Piece α} (agrees : p.queue.Agrees)
    (step : p.stepPiece l = some p') (at_w : p.phase? w = some phase)
    (gone : phase.isGone = true) : l.worker? ≠ some w := by
  intro named
  obtain ⟨old, new, stirs⟩ := stirs_stepPiece agrees step named
  have present := stirs.present
  rw [Option.some.inj (stirs.before.symm.trans at_w), gone] at present
  cases present

/-- The workers that a client has waited for are all gone. -/
theorem Chronicle.gone_of_isJoined (chronicle : Chronicle p) (joined : p.isJoined = true)
    (at_w : p.phase? w = some phase) : phase.isGone = true := by
  have inside : w < p.workers.length := (List.getElem?_eq_some_iff.mp at_w).1
  obtain ⟨same, here, gone⟩ := (chronicle.joined _ (beq_iff_eq.mp joined)).2 w inside
  rw [Option.some.inj (at_w.symm.trans here)]
  exact gone

theorem isQuiet_of_isJoined (chronicle : Chronicle p) (joined : p.isJoined = true) :
    IsQuiet p := by
  have last : p.joined = some p.workers.length := beq_iff_eq.mp joined
  have senderGone := (chronicle.joined _ last).1
  have unsent : p.queue.sending = false := by
    simp only [Handoff.senderGone, Bool.and_eq_true, Bool.not_eq_true'] at senderGone
    exact senderGone.2
  have unended : ∀ {ticket : Nat} {state : SendState}, state.isEnded = false →
      p.queue.sendState? ticket ≠ some state := by
    intro ticket state running at_ticket
    cases running.symm.trans (isEnded_of_sending unsent at_ticket)
  intro l ongoing kept
  cases step : p.stepPiece l with
  | none => rfl
  | some q =>
    cases named : l.worker? with
    | some w =>
      obtain ⟨old, new, stirs⟩ := stirs_stepPiece chronicle.agrees step named
      have gone := chronicle.gone_of_isJoined joined stirs.before
      exact absurd named (not_named_of_gone chronicle.agrees step stirs.before gone)
    | none =>
      cases l with
      | whole l =>
        cases l with
        | pollSubmit ticket =>
          have moved : p.pollSubmit ticket = some q := step
          rw [pollSubmit, pollSend_of_ended unsent] at moved
          cases moved
        | join =>
          have past : p.phase? p.workers.length = none :=
            List.getElem?_eq_none (Nat.le_refl _)
          simp [stepPiece, Pool.step, join, last, past] at step
        | cancel => cases kept
        | look w => cases named
        | start w => cases named
        | finish w report => cases named
        | crash w traces => cases named
        | wake w => cases named
        | _ => cases ongoing
      | shutOut ticket =>
        simp [stepPiece, onQueue, Handoff.shutOut, @unended ticket .waiting rfl] at step
      | post ticket =>
        simp [stepPiece, onQueue, Handoff.post, @unended ticket .waiting rfl] at step
      | sight ticket =>
        simp [stepPiece, onQueue, Handoff.sight, @unended ticket .posted rfl] at step
      | offer job => cases ongoing
      | ask w => cases named
      | take w => cases named

/-! ## Every pool comes to rest -/

/-- Only so many pieces are possible that no client begins, cancellations not counted. -/
theorem left_pieces {ls : List (Piece α)} (orderly : Orderly p) (run : p.pieces ls = some p')
    (ongoing : ∀ l ∈ ls, l.begins = false ∧ l.cancels = false) :
    p'.left + ls.length ≤ p.left := by
  induction ls generalizing p with
  | nil => cases run; exact Nat.le_refl _
  | cons l ls ih =>
    obtain ⟨next, step, rest⟩ := Option.bind_eq_some_iff.mp run
    obtain ⟨⟨goesOn, kept⟩, ongoing⟩ := List.forall_mem_cons.mp ongoing
    have now := left_stepPiece orderly.chronicle.agrees orderly.attended.lined step goesOn kept
    have later := ih (orderly_stepPiece orderly step) rest ongoing
    rw [List.length_cons]
    omega

/-- A pool to which no client does anything comes to rest. -/
theorem exists_quiet (orderly : Orderly p) : ∃ ls p', p.pieces ls = some p' ∧
    (∀ l ∈ ls, l.begins = false ∧ l.cancels = false) ∧ IsQuiet p' := by
  induction size : p.left using Nat.strongRecOn generalizing p with
  | _ n ih =>
    by_cases quiet : IsQuiet p
    · exact ⟨[], p, rfl, nofun, quiet⟩
    · simp only [IsQuiet, Classical.not_forall] at quiet
      obtain ⟨l, ongoing, kept, moves⟩ := quiet
      obtain ⟨next, step⟩ := Option.ne_none_iff_exists'.mp moves
      have less := left_stepPiece orderly.chronicle.agrees orderly.attended.lined step ongoing kept
      obtain ⟨ls, p', rest, more, quiet⟩ :=
        ih next.left (size ▸ less) (orderly_stepPiece orderly step) rfl
      refine ⟨l :: ls, p', ?_, List.forall_mem_cons.mpr ⟨⟨ongoing, kept⟩, more⟩, quiet⟩
      rw [pieces, step]
      exact rest

end CommandPool.Pool
