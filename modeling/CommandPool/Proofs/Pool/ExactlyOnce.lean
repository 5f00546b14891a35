import CommandPool.Proofs.Pool.Changes

/-!
# Every accepted job runs once

The invariant `Chronicle` ties the queue, the workers and the history of a pool
together.  Nobody has a job that no receive has got, and nothing has happened to it.  A
job that was got has one worker, and its events follow from the first stage of the job;
the worker shows the stage that was reached as long as it is not done with the job.

So no accepted job is left between the queue and a worker, and none has two workers.
When the client has waited for all workers they are gone, and then every job that was
got is finished or its worker was taken down by it.
-/

namespace CommandPool.Pool

variable {α : Type} {p p' : Pool α}

/-! ## The invariant -/

/-- The worker is at this job, in this stage. -/
def At (p : Pool α) (w : Nat) (stage : Stage α) (ticket : Nat) : Prop :=
  p.stage? w = some stage ∧ ∃ t, stage.task? = some t ∧ t.ticket = ticket

/-- Nobody is at the job, and nothing has happened to it. -/
structure Silent (p : Pool α) (ticket : Nat) : Prop where
  events : eventsOf p.history ticket = []
  nobody : ∀ i other, ¬ p.At i other ticket

/-- What has happened to the job is its course at this worker up to this stage, and
nobody else is at it. -/
structure Heard (p : Pool α) (ticket w : Nat) (s : Send (Job α)) (stage : Stage α) : Prop where
  found : p.queue.sends[ticket]? = some s
  follows : Follows p.settings w (.first ticket s.job) (eventsOf p.history ticket) stage
  holder : ∀ i other, p.At i other ticket ↔ i = w ∧ stage.shown = some other

/-- The queue, the workers, the history and the client that waits go together. -/
structure Chronicle (p : Pool α) : Prop where
  agrees : p.queue.Agrees
  silent : ∀ ticket, ¬ p.queue.Got ticket → p.Silent ticket
  heard : ∀ ticket, p.queue.Got ticket → ∃ w s stage, p.Heard ticket w s stage
  /-- The client that waits has closed the pool, and went on only from workers that
  were gone. -/
  joined : ∀ k, p.joined = some k → p.queue.senderGone = true ∧
    ∀ i < k, ∃ phase, p.phase? i = some phase ∧ phase.isGone = true

/-! ## What a change preserves -/

/-- What concerns a job that a change leaves alone is as before. -/
theorem Silent.of_same {ticket : Nat} (silent : p.Silent ticket)
    (events : eventsOf p'.history ticket = eventsOf p.history ticket)
    (at_iff : ∀ i other, p'.At i other ticket ↔ p.At i other ticket) : p'.Silent ticket := by
  refine ⟨events.trans silent.events, fun i other => ?_⟩
  rw [at_iff]
  exact silent.nobody i other

theorem Heard.of_same {ticket w : Nat} {s : Send (Job α)} {stage : Stage α}
    (heard : p.Heard ticket w s stage) (keeps : Keeps p p')
    (events : eventsOf p'.history ticket = eventsOf p.history ticket)
    (at_iff : ∀ i other, p'.At i other ticket ↔ p.At i other ticket) :
    ∃ s', p'.Heard ticket w s' stage := by
  obtain ⟨s', found, job, _⟩ := keeps.sound.extends_.send ticket s heard.found
  refine ⟨s', found, ?_, fun i other => (at_iff i other).trans (heard.holder i other)⟩
  rw [events, keeps.settings, job]
  exact heard.follows

theorem at_iff_of_stages (stages : ∀ i, p'.stage? i = p.stage? i) (ticket i : Nat)
    (other : Stage α) : p'.At i other ticket ↔ p.At i other ticket := by
  rw [At, stages, ← At]

/-- A worker that is at another job before and after plays no part. -/
theorem at_iff_of_other {w ticket : Nat} {now : Option (Stage α)}
    (stages : ∀ i, p'.stage? i = if i = w then now else p.stage? i)
    (before : ∀ other, ¬ p.At w other ticket)
    (after : ∀ other t, now = some other → other.task? = some t → t.ticket ≠ ticket)
    (i : Nat) (other : Stage α) : p'.At i other ticket ↔ p.At i other ticket := by
  by_cases equal : i = w
  · subst equal
    refine iff_of_false ?_ (before other)
    rintro ⟨here, t, task, same⟩
    rw [stages, if_pos rfl] at here
    exact after other t here task same
  · rw [At, stages, if_neg equal, ← At]

theorem Chronicle.joined_of_keeps (chronicle : Chronicle p) (keeps : Keeps p p') (k : Nat)
    (waits : p'.joined = some k) : p'.queue.senderGone = true ∧
      ∀ i < k, ∃ phase, p'.phase? i = some phase ∧ phase.isGone = true := by
  rcases keeps.joined with same | ⟨begins, gone⟩ | ⟨j, phase, before, now, at_j, isGone⟩
  · obtain ⟨gone, past⟩ := chronicle.joined k (same ▸ waits)
    refine ⟨keeps.sound.gone gone, fun i less => ?_⟩
    obtain ⟨phase, at_i, isGone⟩ := past i less
    exact ⟨phase, keeps.gone i phase at_i isGone, isGone⟩
  · rw [begins] at waits
    cases waits
    exact ⟨gone, nofun⟩
  · rw [now] at waits
    cases waits
    obtain ⟨gone, past⟩ := chronicle.joined j before
    refine ⟨keeps.sound.gone gone, fun i less => ?_⟩
    rcases Nat.lt_succ_iff_lt_or_eq.mp less with earlier | rfl
    · obtain ⟨phase, at_i, isGone⟩ := past i earlier
      exact ⟨phase, keeps.gone i phase at_i isGone, isGone⟩
    · exact ⟨phase, keeps.gone i phase at_j isGone, isGone⟩

/-- A job is taken: it has a worker from now on. -/
theorem Chronicle.heard_taken {w ticket : Nat} {s : Send (Job α)} (chronicle : Chronicle p)
    (fresh : ¬ p.queue.Got ticket) (found : p'.queue.sends[ticket]? = some s)
    (stages : ∀ i, p'.stage? i =
      if i = w then some (.ready (.first ticket s.job)) else p.stage? i)
    (events : eventsOf p'.history ticket = eventsOf p.history ticket) :
    p'.Heard ticket w s (.ready (.first ticket s.job)) := by
  have silent := chronicle.silent ticket fresh
  refine ⟨found, ?_, fun i other => ?_⟩
  · rw [events, silent.events]
    exact .begin
  · by_cases equal : i = w
    · simp only [At, stages, equal, true_and]
      constructor
      · exact fun both => both.1
      · rintro here
        cases here
        exact ⟨rfl, _, rfl, rfl⟩
    · rw [At, stages, if_neg equal, ← At]
      exact iff_of_false (silent.nobody i other) fun same => equal same.1

/-- A worker that takes a job was at no other one. -/
theorem at_iff_of_taken {w ticket other : Nat} {job : Job α} (without : p.stage? w = none)
    (stages : ∀ i, p'.stage? i = if i = w then some (.ready (.first ticket job)) else p.stage? i)
    (different : other ≠ ticket) (i : Nat) (stage : Stage α) :
    p'.At i stage other ↔ p.At i stage other := by
  refine at_iff_of_other stages ?_ ?_ i stage
  · rintro stage ⟨here, _⟩
    rw [without] at here
    cases here
  · intro stage t now task same
    cases now
    cases task
    exact different same.symm

/-- A worker makes a move of its job. -/
theorem Heard.moved {w ticket : Nat} {s : Send (Job α)} {cancelled : Bool} {a b : Stage α}
    {new : List Event} (heard : p.Heard ticket w s a) (keeps : Keeps p p')
    (move : Move p.settings w cancelled a new b)
    (stages : ∀ i, p'.stage? i = if i = w then b.shown else p.stage? i)
    (events : ∀ ticket, eventsOf p'.history ticket = eventsOf new ticket ++
      eventsOf p.history ticket) : ∃ s', p'.Heard ticket w s' b := by
  obtain ⟨s', found, job, _⟩ := keeps.sound.extends_.send ticket s heard.found
  have follows := heard.follows.move move
  have mine : eventsOf new ticket = new := move.eventsOf_new heard.follows.ticket.1
  refine ⟨s', found, ?_, fun i other => ?_⟩
  · rw [events, mine, keeps.settings, job]
    exact follows
  · by_cases equal : i = w
    · simp only [At, stages, equal, true_and]
      constructor
      · exact fun both => both.1
      · intro here
        obtain ⟨rfl, t, task⟩ := Stage.shown_eq_some_iff.mp here
        exact ⟨here, t, task, move.ticket heard.follows.ticket.1 t task⟩
    · rw [At, stages, if_neg equal, ← At, heard.holder]
      exact iff_of_false (fun same => equal same.1) fun same => equal same.1

/-- To the other jobs nothing happens by that. -/
theorem Heard.others {w ticket other : Nat} {s : Send (Job α)} {cancelled : Bool}
    {a b : Stage α} {new : List Event} (heard : p.Heard ticket w s a)
    (before : p.stage? w = some a) (move : Move p.settings w cancelled a new b)
    (stages : ∀ i, p'.stage? i = if i = w then b.shown else p.stage? i)
    (events : ∀ ticket, eventsOf p'.history ticket = eventsOf new ticket ++
      eventsOf p.history ticket) (different : other ≠ ticket) :
    eventsOf p'.history other = eventsOf p.history other ∧
      ∀ i stage, p'.At i stage other ↔ p.At i stage other := by
  have foreign : eventsOf new other = [] := by
    refine List.filter_eq_nil_iff.mpr fun e member => ?_
    obtain ⟨spot, about, same, _⟩ := move.spots heard.follows.ticket.1 e member
    simpa [Event.isAbout, about, same, Task.first] using Ne.symm different
  refine ⟨by rw [events, foreign, List.nil_append], at_iff_of_other stages ?_ ?_⟩
  · rintro stage ⟨here, t, task, same⟩
    rw [before] at here
    cases here
    exact different (same.symm.trans (heard.follows.ticket.1 t task))
  · intro stage t now task same
    obtain ⟨rfl, _⟩ := Stage.shown_eq_some_iff.mp now
    exact different (same.symm.trans (move.ticket heard.follows.ticket.1 t task))

/-- Who is at a stage is at it in a job. -/
theorem exists_at {w : Nat} {a : Stage α} (here : p.stage? w = some a) :
    ∃ ticket, p.At w a ticket := by
  obtain ⟨phase, _, at_phase⟩ := Option.bind_eq_some_iff.mp here
  obtain ⟨_, t, task⟩ := Stage.shown_eq_some_iff.mp (Phase.stage?_shown at_phase)
  exact ⟨t.ticket, here, t, task, rfl⟩

/-- A job at which a worker is was got. -/
theorem Chronicle.heard_of_at {ticket w : Nat} {a : Stage α} (chronicle : Chronicle p)
    (busy : p.At w a ticket) : p.queue.Got ticket ∧ ∃ s, p.Heard ticket w s a := by
  by_cases got : p.queue.Got ticket
  · obtain ⟨w', s, stage, heard⟩ := chronicle.heard ticket got
    obtain ⟨rfl, shown⟩ := (heard.holder w a).mp busy
    obtain ⟨rfl, _⟩ := Stage.shown_eq_some_iff.mp shown
    exact ⟨got, s, heard⟩
  · exact absurd busy ((chronicle.silent ticket got).nobody w a)

/-- Who is at a stage is at it in a job that was got. -/
theorem Chronicle.heard_of_stage {w : Nat} {a : Stage α} (chronicle : Chronicle p)
    (here : p.stage? w = some a) :
    ∃ ticket s, p.queue.Got ticket ∧ p.Heard ticket w s a := by
  obtain ⟨ticket, busy⟩ := exists_at here
  obtain ⟨got, s, heard⟩ := chronicle.heard_of_at busy
  exact ⟨ticket, s, got, heard⟩

theorem chronicle_change (chronicle : Chronicle p) (keeps : Keeps p p') (change : Change p p') :
    Chronicle p' := by
  refine ⟨keeps.sound.agrees, ?_, ?_, chronicle.joined_of_keeps keeps⟩
  · intro ticket absent
    cases change with
    | aside stages events got =>
      exact (chronicle.silent ticket ((not_congr (got ticket)).mp absent)).of_same
        (events ticket) (at_iff_of_stages stages ticket)
    | taken w taken s without fresh found stages events got =>
      rw [got, not_or] at absent
      exact (chronicle.silent ticket absent.2).of_same (events ticket)
        (at_iff_of_taken without stages absent.1)
    | moved w a new b before move stages events got =>
      rw [got] at absent
      obtain ⟨mine, s, gotten, heard⟩ := chronicle.heard_of_stage before
      have different : ticket ≠ mine := by
        rintro rfl
        exact absent gotten
      obtain ⟨same, at_iff⟩ := heard.others before move stages events different
      exact (chronicle.silent ticket absent).of_same same at_iff
  · intro ticket gotten
    cases change with
    | aside stages events got =>
      obtain ⟨w, s, stage, heard⟩ := chronicle.heard ticket ((got ticket).mp gotten)
      exact ⟨w, _, stage, (heard.of_same keeps (events ticket)
        (at_iff_of_stages stages ticket)).choose_spec⟩
    | taken w taken s without fresh found stages events got =>
      by_cases equal : ticket = taken
      · subst equal
        exact ⟨w, s, _, chronicle.heard_taken fresh found stages (events ticket)⟩
      · obtain ⟨w', s', stage, heard⟩ :=
          chronicle.heard ticket (((got ticket).mp gotten).resolve_left equal)
        exact ⟨w', _, stage, (heard.of_same keeps (events ticket)
          (at_iff_of_taken without stages equal)).choose_spec⟩
    | moved w a new b before move stages events got =>
      obtain ⟨mine, s, _, heard⟩ := chronicle.heard_of_stage before
      by_cases equal : ticket = mine
      · subst equal
        exact ⟨w, _, b, (heard.moved keeps move stages events).choose_spec⟩
      · obtain ⟨same, at_iff⟩ := heard.others before move stages events equal
        obtain ⟨w', s', stage, heard'⟩ := chronicle.heard ticket ((got ticket).mp gotten)
        exact ⟨w', _, stage, (heard'.of_same keeps same at_iff).choose_spec⟩

/-- Pieces preserve the invariant, and leave what has ended in the queue as it ended. -/
theorem chronicle_pieces {ls : List (Piece α)} (chronicle : Chronicle p)
    (run : p.pieces ls = some p') : Chronicle p' ∧ Handoff.Extends p.queue p'.queue := by
  induction ls generalizing p with
  | nil =>
    cases run
    exact ⟨chronicle, .refl _⟩
  | cons l ls ih =>
    obtain ⟨next, step, rest⟩ := Option.bind_eq_some_iff.mp run
    obtain ⟨keeps, change⟩ := change_stepPiece chronicle.agrees step
    obtain ⟨later, extends_⟩ := ih (chronicle_change chronicle keeps change) rest
    exact ⟨later, keeps.sound.extends_.trans extends_⟩

theorem stage?_started (s : Settings) (cancelled : Bool) (i : Nat) :
    (started s cancelled : Pool α).stage? i = none := by
  have idle : (started s cancelled : Pool α).phase? i =
      if i < s.workers then some .idle else none := List.getElem?_replicate
  rw [stage?, idle]
  split <;> rfl

theorem chronicle_started (s : Settings) (cancelled : Bool) :
    Chronicle (started s cancelled : Pool α) where
  agrees := by
    have queue : Handoff.Sound (.new s.workers) (started s cancelled : Pool α).queue :=
      Handoff.sound_of_same (Handoff.agrees_new s.workers) rfl rfl rfl rfl
    exact queue.agrees
  silent := by
    intro ticket _
    refine ⟨rfl, ?_⟩
    rintro i other ⟨here, _⟩
    rw [stage?_started] at here
    cases here
  heard := by
    rintro ticket ⟨turn, got⟩
    cases got
  joined := nofun

/-- A pool that opens has just started. -/
theorem openWith_eq_ok {ρ : Type} {s : Settings} {build : Nat → Except (List String) ρ}
    {cancelled : Bool} (opened : openWith s build cancelled = .ok p) :
    p = started s cancelled := by
  unfold openWith at opened
  split at opened
  next => cases opened
  next =>
    split at opened
    next => cases opened
    next => cases opened; rfl

/-! ## What the invariant says -/

/-- A job that was got has a worker, was resolved along a path, or has taken its worker
down. -/
theorem Chronicle.at_or_over {ticket : Nat} (chronicle : Chronicle p)
    (got : p.queue.Got ticket) :
    (∃ w stage, p.At w stage ticket) ∨
    (∃ w s, p.queue.sends[ticket]? = some s ∧
      Resolves w ticket 0 s.job.toChain (resolutions (eventsOf p.history ticket))) ∨
    ∃ spot, .panicked spot ∈ p.history ∧ spot.ticket = ticket := by
  obtain ⟨w, s, stage, heard⟩ := chronicle.heard ticket got
  cases seen : stage.shown with
  | some other => exact Or.inl ⟨w, other, (heard.holder w other).mpr ⟨rfl, seen⟩⟩
  | none =>
    cases stage with
    | finished interrupted =>
      have ended : (Stage.finished interrupted : Stage α).Ahead w ticket [] := rfl
      have path := heard.follows.resolves rfl ended
      rw [List.append_nil] at path
      exact Or.inr (Or.inl ⟨w, s, heard.found, path⟩)
    | panicked =>
      obtain ⟨spot, member, same⟩ := heard.follows.panicked_mem
      exact Or.inr (Or.inr ⟨spot, (List.mem_filter.mp member).1, same⟩)
    | _ => cases seen

/-- Nothing has happened to a job whose send was refused. -/
theorem Chronicle.eventsOf_refused {ticket : Nat} {e : SubmitError} (chronicle : Chronicle p)
    (refused : p.queue.sendEnd? ticket = some (.refused e)) :
    eventsOf p.history ticket = [] := by
  refine (chronicle.silent ticket fun got => ?_).events
  cases (chronicle.agrees.accepted_iff refused).mpr got

theorem Heard.starts {ticket w : Nat} {s : Send (Job α)} {stage : Stage α}
    (heard : p.Heard ticket w s stage) : p.starts ticket = if stage.isFresh then 0 else 1 :=
  heard.follows.countP_isStart rfl rfl

theorem Silent.starts {ticket : Nat} (silent : p.Silent ticket) : p.starts ticket = 0 := by
  rw [Pool.starts, silent.events]
  rfl

theorem Chronicle.starts_le_one (chronicle : Chronicle p) (ticket : Nat) :
    p.starts ticket ≤ 1 := by
  by_cases got : p.queue.Got ticket
  · obtain ⟨w, s, stage, heard⟩ := chronicle.heard ticket got
    rw [heard.starts]
    split <;> decide
  · rw [(chronicle.silent ticket got).starts]
    decide

/-- All events of a job are about one worker. -/
theorem Chronicle.one_worker (chronicle : Chronicle p) (ticket : Nat) :
    ∃ w, ∀ e ∈ eventsOf p.history ticket, ∃ spot, e.spot? = some spot ∧ spot.worker = w := by
  by_cases got : p.queue.Got ticket
  · obtain ⟨w, s, stage, heard⟩ := chronicle.heard ticket got
    refine ⟨w, fun e member => ?_⟩
    obtain ⟨spot, about, _, worker⟩ := heard.follows.ticket.2 e member
    exact ⟨spot, about, worker⟩
  · refine ⟨0, ?_⟩
    rw [(chronicle.silent ticket got).events]
    nofun

theorem phase?_of_stage?_ready {w : Nat} {t : Task α} (here : p.stage? w = some (.ready t)) :
    p.phase? w = some (.ready t) := by
  obtain ⟨phase, at_w, stage⟩ := Option.bind_eq_some_iff.mp here
  cases phase <;> cases stage
  exact at_w

/-- An accepted job was started, or a worker is about to start it. -/
theorem Chronicle.started_or_ready {ticket : Nat} (chronicle : Chronicle p)
    (accepted : p.queue.sendEnd? ticket = some .accepted) :
    p.starts ticket = 1 ∨ ∃ w job, p.phase? w = some (.ready (.first ticket job)) := by
  obtain ⟨w, s, stage, heard⟩ :=
    chronicle.heard ticket ((chronicle.agrees.accepted_iff accepted).mp rfl)
  rw [heard.starts]
  by_cases fresh : stage.isFresh = true
  · have first := heard.follows.eq_of_isFresh fresh
    subst first
    refine Or.inr ⟨w, s.job, phase?_of_stage?_ready ?_⟩
    exact ((heard.holder w _).mpr ⟨rfl, rfl⟩).1
  · exact Or.inl (if_neg fresh)

/-- When the client has waited for all workers, none is at a job. -/
theorem Chronicle.nobody_of_isJoined (chronicle : Chronicle p) (joined : p.isJoined = true)
    (i : Nat) : p.stage? i = none := by
  rw [isJoined, beq_iff_eq] at joined
  cases at_i : p.phase? i with
  | none => rw [stage?, at_i]; rfl
  | some phase =>
    have inside : i < p.workers.length := (List.getElem?_eq_some_iff.mp at_i).1
    obtain ⟨same, here, gone⟩ := (chronicle.joined _ joined).2 i inside
    rw [at_i] at here
    cases here
    rw [stage?_of_phase? at_i]
    cases phase <;> first | rfl | cases gone

/-- A job that was got is finished then, or its worker was taken down by it. -/
theorem Heard.ended_of_isJoined {ticket w : Nat} {s : Send (Job α)} {stage : Stage α}
    (heard : p.Heard ticket w s stage) (chronicle : Chronicle p) (joined : p.isJoined = true) :
    stage = .panicked ∨ ∃ interrupted, stage = .finished interrupted := by
  have nobody := chronicle.nobody_of_isJoined joined w
  have unseen : ∀ other, stage.shown ≠ some other := by
    intro other shown
    have here := ((heard.holder w other).mpr ⟨rfl, shown⟩).1
    rw [nobody] at here
    cases here
  cases stage with
  | finished interrupted => exact Or.inr ⟨interrupted, rfl⟩
  | panicked => exact Or.inl rfl
  | _ => exact absurd rfl (unseen _)

/-- After the join a job was started exactly when it was accepted. -/
theorem Chronicle.starts_iff_of_isJoined (chronicle : Chronicle p) (joined : p.isJoined = true)
    (ticket : Nat) : p.starts ticket = 1 ↔ p.queue.sendEnd? ticket = some .accepted := by
  constructor
  · intro started
    have got : p.queue.Got ticket := by
      refine Classical.byContradiction fun absent => ?_
      rw [(chronicle.silent ticket absent).starts] at started
      cases started
    obtain ⟨state, at_ticket, accepted⟩ := (chronicle.agrees.got_iff ticket).mp got
    have gone := (chronicle.joined _ (beq_iff_eq.mp joined)).1
    have ended := (Handoff.senderGone_iff.mp gone).2 ticket state at_ticket
    rw [Handoff.sendEnd?_eq_some_iff, at_ticket]
    cases state with
    | ended how => cases how <;> first | rfl | cases accepted
    | _ => cases ended
  · intro accepted
    obtain ⟨w, s, stage, heard⟩ :=
      chronicle.heard ticket ((chronicle.agrees.accepted_iff accepted).mp rfl)
    rw [heard.starts]
    rcases heard.ended_of_isJoined chronicle joined with rfl | ⟨interrupted, rfl⟩ <;> rfl

/-- After the join an accepted job that took no worker down was resolved along a path. -/
theorem Chronicle.resolves_of_isJoined {ticket : Nat} {s : Send (Job α)}
    (chronicle : Chronicle p) (joined : p.isJoined = true)
    (found : p.queue.sends[ticket]? = some s)
    (accepted : p.queue.sendEnd? ticket = some .accepted)
    (unharmed : ∀ spot, Event.panicked spot ∈ p.history → spot.ticket ≠ ticket) :
    ∃ w, Resolves w ticket 0 s.job.toChain (resolutions (eventsOf p.history ticket)) := by
  have got := (chronicle.agrees.accepted_iff accepted).mp rfl
  rcases chronicle.at_or_over got with ⟨w, stage, here⟩ | ⟨w, s', found', path⟩ | down
  · cases (chronicle.nobody_of_isJoined joined w).symm.trans here.1
  · cases Option.some.inj (found'.symm.trans found)
    exact ⟨w, path⟩
  · obtain ⟨spot, panicked, about⟩ := down
    exact absurd about (unharmed spot panicked)

/-! ## Exactly once -/

/-- In every run of a pool that has opened, however polls overlap:

* to a job whose submission was refused nothing ever happens,
* a job is started at most once, and everything that happens to it happens at one
  worker,
* a job whose submission was accepted was started, or a worker is about to start it,
* when the client has waited for all workers, the jobs that were started are those
  whose submissions were accepted, and each of them that took no worker down was
  resolved node by node down to an empty chain, cancelled or not. -/
theorem accepted_jobs_run_once {ρ : Type} {s : Settings}
    {build : Nat → Except (List String) ρ} {cancelled : Bool} {p₀ : Pool α}
    {ls : List (Piece α)} (opened : openWith s build cancelled = .ok p₀)
    (run : p₀.pieces ls = some p) :
    (∀ ticket e, p.queue.sendEnd? ticket = some (.refused e) →
      ∀ ms p', p.pieces ms = some p' → eventsOf p'.history ticket = []) ∧
    (∀ ticket, p.starts ticket ≤ 1) ∧
    (∀ ticket, ∃ w, ∀ e ∈ eventsOf p.history ticket,
      ∃ spot, e.spot? = some spot ∧ spot.worker = w) ∧
    (∀ ticket, p.queue.sendEnd? ticket = some .accepted →
      p.starts ticket = 1 ∨ ∃ w job, p.phase? w = some (.ready (.first ticket job))) ∧
    (p.isJoined = true →
      (∀ ticket, p.starts ticket = 1 ↔ p.queue.sendEnd? ticket = some .accepted) ∧
      (∀ ticket s, p.queue.sends[ticket]? = some s →
        p.queue.sendEnd? ticket = some .accepted →
        (∀ spot, Event.panicked spot ∈ p.history → spot.ticket ≠ ticket) →
        ∃ w, Resolves w ticket 0 s.job.toChain (resolutions (eventsOf p.history ticket)))) := by
  have begins : Chronicle p₀ := openWith_eq_ok opened ▸ chronicle_started s cancelled
  obtain ⟨chronicle, _⟩ := chronicle_pieces begins run
  refine ⟨?_, chronicle.starts_le_one, chronicle.one_worker, ?_, fun joined => ⟨?_, ?_⟩⟩
  · intro ticket e refused ms p' rest
    obtain ⟨later, extends_⟩ := chronicle_pieces chronicle rest
    exact later.eventsOf_refused (extends_.sendEnd? refused)
  · exact fun ticket accepted => chronicle.started_or_ready accepted
  · exact chronicle.starts_iff_of_isJoined joined
  · intro ticket s found accepted unharmed
    exact chronicle.resolves_of_isJoined joined found accepted unharmed

/-- Two workers. -/
def pair : Settings := { workers := 2, maxRetries := 1 }

/-- A job that nothing follows. -/
def cleanUp : Job Unit := .single "clean up" ()

/-- A job with a second node for its failure. -/
def tryFirst : Job Unit := (Job.single "try" ()).orElse cleanUp

/-- A worker takes a delivery while the run is cancelled.  The first attempt of its job
is throttled and, as the run is cancelled, not made again, and the node for the failure
succeeds.  The other worker takes no job, and a second submission is refused. -/
def drain : List (Piece Unit) :=
  [.whole (.submit tryFirst), .ask 1, .take 1, .whole .cancel, .sight 0, .whole (.look 1),
    .whole (.pollSubmit 0), .whole (.submit cleanUp), .whole (.start 1),
    .whole (.finish 1 (.plain (.error (.throttled "slow down")))), .whole (.start 1),
    .whole (.finish 1 (.plain (.ok ()))), .whole (.look 0), .whole .beginJoin, .whole .join,
    .whole .join]

theorem accepted_jobs_run_once_drain :
    ∃ p : Pool Unit, (started pair false).pieces drain = some p ∧
      openWith pair (fun _ => .ok ()) false = .ok (started pair false : Pool Unit) ∧
      p.isJoined = true ∧ p.queue.sendEnd? 0 = some .accepted ∧ p.starts 0 = 1 ∧
      (∃ w, Resolves w 0 0 tryFirst.toChain (resolutions (eventsOf p.history 0))) ∧
      p.queue.sendEnd? 1 = some (.refused .cancelled) ∧ eventsOf p.history 1 = [] := by
  have opened : openWith pair (fun _ => (.ok () : Except (List String) Unit)) false =
      .ok (started pair false : Pool Unit) := by
    rfl
  have run : (started pair false).pieces drain = some _ := rfl
  have quiet : ∀ p, (started pair false).pieces drain = some p →
      p.history.all (fun | .panicked _ => false | _ => true) = true := by
    rintro p ran
    cases ran
    rfl
  obtain ⟨refused, _, _, _, joined⟩ := accepted_jobs_run_once opened run
  obtain ⟨began, resolved⟩ := joined rfl
  refine ⟨_, run, opened, rfl, rfl, (began 0).mpr rfl, ?_, rfl, refused 1 .cancelled rfl [] _ rfl⟩
  refine resolved 0 _ rfl rfl fun spot panicked => ?_
  cases List.all_eq_true.mp (quiet _ run) _ panicked

end CommandPool.Pool
