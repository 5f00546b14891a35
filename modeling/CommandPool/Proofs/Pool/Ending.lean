import CommandPool.Pool.Served
import CommandPool.Proofs.Pool.Quiet

/-!
# Every run ends

A client submits the jobs of a list and joins.  Every step of its run but a cancellation
leaves less to do, so from each state only so many steps are possible, whichever are taken
and whatever the attempts give.  As long as the run is not done some step is possible:
a worker that has a job can move, and workers and submissions that wait do not all wait
for each other.  So every run comes to its end, and there the client has joined.
-/

namespace CommandPool.Pool

variable {α : Type}

namespace Served

variable {c c' : Served α} {l : Label α} {ls : List (Label α)}

/-! ## Steps -/

/-- What a step is for the pool, and for the jobs that are still to be submitted. -/
inductive Serves (c c' : Served α) : Label α → Prop where
  | piece (l : Piece α) : l.begins = false → c.pool.stepPiece l = some c'.pool →
      c'.rest = c.rest → Serves c c' (.piece l)
  | submits {label : Label α} (job : Job α) (l : Piece α) : label.isCancel = false →
      l = .whole (.submit job) ∨ l = .offer job → c.pool.stepPiece l = some c'.pool →
      c.rest = job :: c'.rest → Serves c c' label
  | begins : c.pool.stepPiece (.whole .beginJoin) = some c'.pool → c.rest = [] →
      c'.rest = [] → Serves c c' .beginJoin

theorem serves_submitBy {label : Label α} {piece : Job α → Piece α}
    (uncounted : label.isCancel = false)
    (submits : ∀ job, piece job = .whole (.submit job) ∨ piece job = .offer job)
    (step : c.submitBy piece = some c') : Serves c c' label := by
  unfold submitBy at step
  split at step
  next => cases step
  next job rest jobs =>
    obtain ⟨p, moved, rfl⟩ := Option.map_eq_some_iff.mp step
    exact .submits job (piece job) uncounted (submits job) moved jobs

theorem serves_step (step : c.step l = some c') : Serves c c' l := by
  cases l with
  | piece l =>
    obtain ⟨ongoing, step⟩ := Option.ite_none_left_eq_some.mp step
    obtain ⟨p, moved, rfl⟩ := Option.map_eq_some_iff.mp step
    exact .piece l (eq_false_of_ne_true ongoing) moved rfl
  | submit => exact serves_submitBy rfl (fun _ => Or.inl rfl) step
  | offer => exact serves_submitBy rfl (fun _ => Or.inr rfl) step
  | beginJoin =>
    obtain ⟨empty, step⟩ := Option.ite_none_right_eq_some.mp step
    obtain ⟨p, moved, rfl⟩ := Option.map_eq_some_iff.mp step
    exact .begins moved (List.isEmpty_iff.mp empty) (List.isEmpty_iff.mp empty)

/-- Every step of a run is a piece of the pool. -/
theorem Serves.stepPiece (serves : Serves c c' l) :
    ∃ l, c.pool.stepPiece l = some c'.pool := by
  cases serves with
  | piece l _ step => exact ⟨l, step⟩
  | submits job l _ _ step => exact ⟨l, step⟩
  | begins step => exact ⟨_, step⟩

/-! ## The invariant -/

/-- What holds in every state of a run. -/
structure Sane (c : Served α) : Prop where
  orderly : Orderly c.pool
  /-- The client joins when it has begun with all its jobs. -/
  begun : c.pool.joined ≠ none → c.rest = []

theorem sane_started (s : Settings) (cancelled : Bool) (jobs : List (Job α)) :
    Sane ⟨started s cancelled, jobs⟩ where
  orderly := orderly_started s cancelled
  begun joined := absurd rfl joined

theorem Serves.begun (serves : Serves c c' l) (begun : c.pool.joined ≠ none → c.rest = [])
    (joined : c'.pool.joined ≠ none) : c'.rest = [] := by
  cases serves with
  | piece l ongoing step rest =>
    rw [rest]
    refine begun fun unjoined => ?_
    cases loses_stepPiece step with
    | apart _ apart => exact joined (apart.joined.trans unjoined)
    | crashed _ _ _ _ _ same => exact joined (same.trans unjoined)
    | begins => cases ongoing
    | next k _ waits => cases unjoined.symm.trans waits
  | submits job l _ submits step =>
    refine absurd ?_ joined
    have unjoined : c.pool.joined = none := by
      rcases submits with rfl | rfl
      · exact Option.isNone_iff_eq_none.mp (Option.ite_none_right_eq_some.mp step).1
      · exact Option.isNone_iff_eq_none.mp (Option.ite_none_right_eq_some.mp step).1
    rcases submits with rfl | rfl
    · cases loses_stepPiece step with
      | apart _ apart => exact apart.joined.trans unjoined
    · cases loses_stepPiece step with
      | apart _ apart => exact apart.joined.trans unjoined
  | begins _ _ rest => exact rest

theorem sane_step (sane : Sane c) (serves : Serves c c' l) : Sane c' := by
  obtain ⟨piece, step⟩ := serves.stepPiece
  exact ⟨orderly_stepPiece sane.orderly step, serves.begun sane.begun⟩

theorem sane_steps (sane : Sane c) (run : c.steps ls = some c') : Sane c' := by
  induction ls generalizing c with
  | nil => cases run; exact sane
  | cons l ls ih =>
    obtain ⟨next, step, rest⟩ := Option.bind_eq_some_iff.mp run
    exact ih (sane_step sane (serves_step step)) rest

/-! ## The jobs of the client -/

/-- The jobs that were submitted and those to come. -/
def jobs (c : Served α) : List (Job α) := c.pool.queue.jobs ++ c.rest

theorem jobs_step (serves : Serves c c' l) : c'.jobs = c.jobs := by
  cases serves with
  | piece l ongoing step rest =>
    have none : l.job? = none := by rcases l with (_ | _) | _ <;> first | rfl | cases ongoing
    rw [jobs, jobs, (asks_stepPiece step).jobs, none, rest]
    simp
  | submits job l _ submits step rest =>
    have some_job : l.job? = some job := by rcases submits with rfl | rfl <;> rfl
    rw [jobs, jobs, (asks_stepPiece step).jobs, some_job, rest]
    simp
  | begins step rest rest' =>
    rw [jobs, jobs, (asks_stepPiece step).jobs, rest, rest']
    simp [Piece.job?]

theorem jobs_steps (run : c.steps ls = some c') : c'.jobs = c.jobs := by
  induction ls generalizing c with
  | nil => cases run; rfl
  | cons l ls ih =>
    obtain ⟨next, step, rest⟩ := Option.bind_eq_some_iff.mp run
    exact (ih rest).trans (jobs_step (serves_step step))

/-- When all is done every job of the client was submitted, and its submission has
ended. -/
theorem IsDone.sendEnd? (done : IsDone c) {ticket : Nat} (inside : ticket < c.jobs.length) :
    ∃ how, c.pool.queue.sendEnd? ticket = some how := by
  rw [jobs, done.begun, List.append_nil, Handoff.jobs, List.length_map] at inside
  have ended := List.any_eq_false.mp done.ended _ (List.getElem_mem inside)
  have at_ticket : c.pool.queue.sendState? ticket = some c.pool.queue.sends[ticket].state :=
    Handoff.sendState?_eq_some_iff.mpr ⟨_, List.getElem?_eq_getElem inside, rfl⟩
  cases state : c.pool.queue.sends[ticket].state with
  | ended how => exact ⟨how, Handoff.sendEnd?_eq_some_iff.mpr (state ▸ at_ticket)⟩
  | _ => simp [state, SendState.isEnded] at ended

/-! ## Few steps are left -/

/-- What is left to do in the pool and for the jobs to come. -/
def left (c : Served α) : Nat :=
  c.pool.left + (c.rest.map fun job => jobCost c.pool.settings.maxRetries job + 6).sum

/-- Every step but a cancellation leaves less to do. -/
theorem left_step (sane : Sane c) (serves : Serves c c' l) :
    c'.left + (!l.isCancel).toNat ≤ c.left := by
  obtain ⟨piece, step⟩ := serves.stepPiece
  have settings := (change_stepPiece sane.orderly.chronicle.agrees step).1.settings
  have counted : ∀ label : Label α, (!label.isCancel).toNat ≤ 1 := fun _ => Bool.toNat_le _
  have one := counted l
  unfold left
  rw [settings]
  cases serves with
  | piece l ongoing step rest =>
    rw [rest]
    cases cancels : l.cancels with
    | true =>
      have same : l = .whole .cancel := by
        rcases l with (_ | _) | _ <;> first | rfl | cases cancels
      subst same
      have cancelled : c'.pool = c.pool.cancel := (Option.some.inj step).symm
      have kept : c'.pool.left = c.pool.left := by rw [cancelled, left_cancel]
      exact Nat.add_le_add_right (Nat.le_of_eq kept) _
    | false =>
      have ⟨chronicle, _, attended, _, _⟩ := sane.orderly
      have nearer := left_stepPiece chronicle.agrees attended.lined step ongoing cancels
      omega
  | submits job l _ submits step rest =>
    have enters := left_of_submit step submits
    rw [rest, List.map_cons, List.sum_cons]
    omega
  | begins step rest rest' =>
    have nearer := left_beginJoin step
    rw [rest, rest']
    omega

theorem left_steps (sane : Sane c) (run : c.steps ls = some c') :
    c'.left + ls.countP (!·.isCancel) ≤ c.left := by
  induction ls generalizing c with
  | nil => cases run; exact Nat.le_refl _
  | cons l ls ih =>
    obtain ⟨next, step, rest⟩ := Option.bind_eq_some_iff.mp run
    have serves := serves_step step
    have later := ih (sane_step sane serves) rest
    have now := left_step sane serves
    have counted : (l :: ls).countP (!·.isCancel) =
        ls.countP (!·.isCancel) + (!l.isCancel).toNat := by
      rw [List.countP_cons]
      cases l.isCancel <;> rfl
    omega

/-! ## Some step is possible -/

/-- No step is possible but a cancellation. -/
def IsStuck (c : Served α) : Prop := ∀ l : Label α, l.isCancel = false → c.step l = none

theorem IsStuck.isQuiet (stuck : IsStuck c) : IsQuiet c.pool := by
  intro l ongoing kept
  have uncounted : (Label.piece l).isCancel = false := by
    rcases l with (_ | _) | _ <;> first | rfl | cases kept
  have unmoved := stuck (.piece l) uncounted
  rw [step, ongoing] at unmoved
  exact Option.map_eq_none_iff.mp unmoved

/-- The client is stuck only when it has begun with all its jobs and joins. -/
theorem IsStuck.joins (stuck : IsStuck c) (sane : Sane c) (ended : c.pool.queue.sending = false) :
    c.rest = [] ∧ c.pool.joined ≠ none := by
  have begun : c.rest = [] := by
    cases rest : c.rest with
    | nil => rfl
    | cons job jobs =>
      have unjoined : c.pool.joined = none := by
        refine Classical.byContradiction fun joined => ?_
        cases rest.symm.trans (sane.begun joined)
      have unmoved := stuck .submit rfl
      rw [step, submitBy, rest] at unmoved
      have submits : c.pool.stepPiece (.whole (.submit job)) ≠ none := by
        simp [Pool.stepPiece, Pool.step, submit, unjoined]
      exact absurd (Option.map_eq_none_iff.mp unmoved) submits
  refine ⟨begun, fun unjoined => ?_⟩
  have unmoved := stuck .beginJoin rfl
  simp [step, begun, beginJoin, unjoined, close, ended] at unmoved

/-- A run in which no step is possible is done. -/
theorem IsStuck.isDone (stuck : IsStuck c) (sane : Sane c) : IsDone c := by
  have quiet := stuck.isQuiet
  have ended := (quiet.ended sane.orderly).1
  obtain ⟨begun, joins⟩ := stuck.joins sane ended
  have joined := quiet.isJoined sane.orderly joins
  refine ⟨begun, ended, fun w phase at_w => ?_, joined⟩
  have gone := sane.orderly.chronicle.gone_of_isJoined joined at_w
  cases phase with
  | stopped => exact Or.inl rfl
  | panicked => exact Or.inr rfl
  | _ => cases gone

/-- When all is done no step is possible. -/
theorem IsDone.isStuck (done : IsDone c) (sane : Sane c) : IsStuck c := by
  have quiet := isQuiet_of_isJoined sane.orderly.chronicle done.joined
  intro l counted
  cases l with
  | piece l =>
    cases begins : l.begins with
    | true => rw [step, begins]; rfl
    | false =>
      have kept : l.cancels = false := by
        rcases l with (_ | _) | _ <;> first | rfl | cases counted
      rw [step, begins, quiet l begins kept]
      rfl
  | submit => rw [step, submitBy, done.begun]
  | offer => rw [step, submitBy, done.begun]
  | beginJoin =>
    have joined : c.pool.joined.isSome = true := by
      rw [beq_iff_eq.mp done.joined]
      rfl
    rw [step, beginJoin, if_pos joined]
    exact ite_self _

/-! ## Every run ends -/

theorem exists_run (sane : Sane c) : ∃ ms c', c.steps ms = some c' ∧ IsDone c' := by
  induction size : c.left using Nat.strongRecOn generalizing c with
  | _ n ih =>
    by_cases stuck : IsStuck c
    · exact ⟨[], c, rfl, stuck.isDone sane⟩
    · obtain ⟨l, moves⟩ := Classical.not_forall.mp stuck
      obtain ⟨counted, moves⟩ := Classical.not_imp.mp moves
      obtain ⟨next, step⟩ := Option.ne_none_iff_exists'.mp moves
      have serves := serves_step step
      have less : next.left < n := by
        have now := left_step sane serves
        rw [counted] at now
        simp only [Bool.not_false, Bool.toNat_true] at now
        omega
      obtain ⟨ms, c', rest, done⟩ := ih next.left less (sane_step sane serves) rfl
      refine ⟨l :: ms, c', ?_, done⟩
      rw [steps, step]
      exact rest

/-- An attempt may end with any report, and with a panic. -/
theorem ends_attempt {w : Nat} {t : Task α} (at_w : c.pool.phase? w = some (.attempting t)) :
    (∀ report, ∃ c', c.step (.piece (.whole (.finish w report))) = some c') ∧
      ∀ traces, ∃ c', c.step (.piece (.whole (.crash w traces))) = some c' := by
  refine ⟨fun report => ?_, fun traces => ?_⟩
  · obtain ⟨p, finishes⟩ : ∃ p, c.pool.finish w report = some p := by
      rw [finish, at_w]
      cases report.result <;> exact ⟨_, rfl⟩
    exact ⟨⟨p, c.rest⟩, congrArg (Option.map fun p => (⟨p, c.rest⟩ : Served α)) finishes⟩
  · obtain ⟨p, crashes⟩ : ∃ p, c.pool.crash w traces = some p := by
      rw [crash, at_w]
      exact ⟨_, rfl⟩
    exact ⟨⟨p, c.rest⟩, congrArg (Option.map fun p => (⟨p, c.rest⟩ : Served α)) crashes⟩

/-- In every state of a run of a client that submits some jobs and joins, with a
cancellation or without:

* there is a bound on the steps to come, cancellations not counted, whatever steps are
  taken and whatever the attempts give,
* no step is possible exactly when all is done: then every worker is gone and the client
  has joined,
* an attempt may end with any report or with a panic, so the way it ends does not hold
  the run up,
* when all is done the submission of every job of the client has ended,
* the run can be brought to its end. -/
theorem every_run_ends {ρ : Type} {s : Settings} {build : Nat → Except (List String) ρ}
    {cancelled : Bool} {p₀ : Pool α} {jobs : List (Job α)}
    (opened : openWith s build cancelled = .ok p₀) (run : steps ⟨p₀, jobs⟩ ls = some c) :
    (∀ ms c', c.steps ms = some c' → ms.countP (!·.isCancel) ≤ c.left) ∧
    (IsStuck c ↔ IsDone c) ∧
    (∀ w t, c.pool.phase? w = some (.attempting t) →
      (∀ report, ∃ c', c.step (.piece (.whole (.finish w report))) = some c') ∧
      ∀ traces, ∃ c', c.step (.piece (.whole (.crash w traces))) = some c') ∧
    (IsDone c → ∀ ticket < jobs.length, ∃ how, c.pool.queue.sendEnd? ticket = some how) ∧
    ∃ ms c', c.steps ms = some c' ∧ IsDone c' := by
  cases openWith_eq_ok opened
  have sane := sane_steps (sane_started s cancelled jobs) run
  refine ⟨fun ms c' rest => ?_, ?_, fun w t => ends_attempt, fun done ticket inside => ?_, ?_⟩
  · exact Nat.le_trans (Nat.le_add_left _ _) (left_steps sane rest)
  · exact ⟨fun stuck => stuck.isDone sane, fun done => done.isStuck sane⟩
  · refine done.sendEnd? ?_
    rw [jobs_steps run]
    exact inside
  · exact exists_run sane

/-- Two submissions overlap, and the run is cancelled while a worker holds the delivery of
the first one and that of the second one lies in the slot.  The action of the first job
takes its worker down and the other worker stops, before the client has begun with its
third job. -/
def crowd : List (Label Unit) :=
  [.offer, .piece (.ask 1), .piece (.post 0), .offer, .piece (.take 1), .piece (.post 1),
    .piece (.ask 0), .piece (.whole .cancel), .piece (.whole (.look 1)),
    .piece (.whole (.start 1)), .piece (.sight 1), .piece (.whole (.look 0)),
    .piece (.whole (.crash 1 .none))]

theorem every_run_ends_crowd :
    ∃ c : Served Unit, steps ⟨started pair false, [tryFirst, cleanUp, tryFirst]⟩ crowd = some c ∧
      openWith pair (fun _ => .ok ()) false = .ok (started pair false : Pool Unit) ∧
      c.pool.queue.receivers = 0 ∧ c.pool.queue.sendState? 1 = some .leaving ∧
      (∀ ms c', c.steps ms = some c' → ms.countP (!·.isCancel) ≤ 29) ∧ ¬ IsStuck c ∧
      ∃ ms c', c.steps ms = some c' ∧ IsDone c' := by
  have opened : openWith pair (fun _ => (.ok () : Except (List String) Unit)) false =
      .ok (started pair false : Pool Unit) := by
    rfl
  have run : steps ⟨started pair false, [tryFirst, cleanUp, tryFirst]⟩ crowd = some _ := rfl
  obtain ⟨few, stuck_iff, _, _, ends⟩ := every_run_ends opened run
  exact ⟨_, run, opened, rfl, rfl, few, fun stuck => (nomatch (stuck_iff.mp stuck).begun), ends⟩

end Served

end CommandPool.Pool
