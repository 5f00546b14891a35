import CommandPool.Pool.Piece

/-!
# The course of a job

A worker that has a job goes through stages: it is about to make an attempt, is in
one, or waits for the next one, and in the end it is done with the job or was taken
down by it.  `Move` lists the ways from one stage to the next, each with the events
that it adds to the history.  A job's events *follow* from its first stage if they
come from such moves, one after another.

What is known about the events of a job is derived from this relation alone: they are
about one worker, the root is started once, and when the worker is done the nodes on
one path of the job have been resolved, from the root to an empty chain.
-/

namespace CommandPool.Pool

variable {α : Type}

/-! ## Events of a job -/

/-- Which node of which job an event is about. -/
def Event.spot? : Event → Option Spot
  | .attempted spot _ => some spot
  | .panicked spot => some spot
  | .throttled spot _ _ => some spot
  | .waited spot => some spot
  | .succeeded spot => some spot
  | .failed spot _ _ => some spot
  | _ => none

/-- The event is about the job of this ticket. -/
def Event.isAbout (e : Event) (ticket : Nat) : Bool := e.spot?.any (·.ticket == ticket)

/-- The events of a job, the latest first. -/
def eventsOf (history : List Event) (ticket : Nat) : List Event :=
  history.filter (·.isAbout ticket)

/-- A first attempt at the root of a job starts. -/
def Event.isStart : Event → Bool
  | .attempted spot number => spot.node == 0 && number == 1
  | _ => false

/-- How often a job was started. -/
def starts (p : Pool α) (ticket : Nat) : Nat := (eventsOf p.history ticket).countP (·.isStart)

/-- The node that an event resolves, and how. -/
def Event.resolution? : Event → Option (Spot × Outcome)
  | .succeeded spot => some (spot, .succeeded)
  | .failed spot _ _ => some (spot, .failed)
  | _ => none

/-- The nodes that events resolve, the earliest first. -/
def resolutions (events : List Event) : List (Spot × Outcome) :=
  events.reverse.filterMap (·.resolution?)

/-- These nodes are the ones on a path of the chain down to an empty chain, in order,
each resolved once and by this worker, and each outcome leads to the next node.  The
first node has the number `n`. -/
inductive Resolves (w ticket : Nat) : (n : Nat) → Chain α → List (Spot × Outcome) → Prop where
  | done (n : Nat) : Resolves w ticket n .done []
  | node {n : Nat} {job : Job α} {outcome : Outcome} {rest : List (Spot × Outcome)} :
      Resolves w ticket (n + 1) (job.after outcome) rest →
      Resolves w ticket n job.toChain ((⟨w, ticket, n, job.label⟩, outcome) :: rest)

/-! ## Stages -/

/-- Where a worker stands in its job. -/
inductive Stage (α : Type) where
  /-- It is about to start an attempt. -/
  | ready (t : Task α)
  /-- It is in an attempt. -/
  | attempting (t : Task α)
  /-- It waits before a retry. -/
  | sleeping (t : Task α) (error : JobError) (delay : Duration)
  /-- It is done with the job.  A wait may have been cut short. -/
  | finished (interrupted : Bool)
  /-- An action has taken it down. -/
  | panicked

/-- The task of a worker that is not done with its job. -/
def Stage.task? : Stage α → Option (Task α)
  | .ready t => some t
  | .attempting t => some t
  | .sleeping t _ _ => some t
  | .finished _ => none
  | .panicked => none

/-- The stage as far as it shows in the phase of the worker: one that is done with its
job shows nothing of it. -/
def Stage.shown (stage : Stage α) : Option (Stage α) := stage.task?.map fun _ => stage

/-- The stage of a worker in its job, if it has one. -/
def Phase.stage? : Phase α → Option (Stage α)
  | .ready t => some (.ready t)
  | .attempting t => some (.attempting t)
  | .sleeping t error delay => some (.sleeping t error delay)
  | _ => none

/-- The stage of a worker in its job, if it has one. -/
def stage? (p : Pool α) (w : Nat) : Option (Stage α) := (p.phase? w).bind (·.stage?)

/-- The task at the root of a job. -/
def Task.first (ticket : Nat) (job : Job α) : Task α := ⟨ticket, 0, job, 0, false⟩

/-- The stage that follows the end of a node. -/
def Task.onward (t : Task α) (outcome : Outcome) : Stage α :=
  match (t.job.after outcome).job? with
  | some next => .ready ⟨t.ticket, t.node + 1, next, 0, t.interrupted⟩
  | none => .finished t.interrupted

/-- The task after one more retry. -/
def Task.retry (t : Task α) : Task α := { t with retries := t.retries + 1 }

/-- The task after a wait was cut short. -/
def Task.cutShort (t : Task α) : Task α := { t with interrupted := true }

/-! ## Moves -/

/-- How a worker gets from one stage of its job to the next, and the events of that,
the latest first.  The run may be cancelled at that time. -/
inductive Move (s : Settings) (w : Nat) (cancelled : Bool) :
    Stage α → List Event → Stage α → Prop where
  | attempt (t : Task α) :
      Move s w cancelled (.ready t) [.attempted (t.spot w) (t.retries + 1)] (.attempting t)
  | succeed (t : Task α) :
      Move s w cancelled (.attempting t) [.succeeded (t.spot w)] (t.onward .succeeded)
  | fail (t : Task α) (error : JobError) :
      error.mayRetry t.retries s.maxRetries = false →
      Move s w cancelled (.attempting t) [.failed (t.spot w) t.retries error] (t.onward .failed)
  | throttle (t : Task α) (error : JobError) :
      error.mayRetry t.retries s.maxRetries = true → cancelled = false →
      Move s w cancelled (.attempting t)
        [.throttled (t.spot w) t.retry.retries (s.backoff.delay t.retry.retries)]
        (.sleeping t.retry error (s.backoff.delay t.retry.retries))
  | cut (t : Task α) (error : JobError) :
      error.mayRetry t.retries s.maxRetries = true → cancelled = true →
      Move s w cancelled (.attempting t)
        [.failed (t.spot w) t.retry.retries error,
          .throttled (t.spot w) t.retry.retries (s.backoff.delay t.retry.retries)]
        (t.retry.cutShort.onward .failed)
  | wait (t : Task α) (error : JobError) (delay : Duration) : cancelled = false →
      Move s w cancelled (.sleeping t error delay) [.waited (t.spot w)] (.ready t)
  | interrupt (t : Task α) (error : JobError) (delay : Duration) : cancelled = true →
      Move s w cancelled (.sleeping t error delay) [.failed (t.spot w) t.retries error]
        (t.cutShort.onward .failed)
  | panic (t : Task α) :
      Move s w cancelled (.attempting t) [.panicked (t.spot w)] .panicked

/-- The events of a job, the latest first, come from moves of one worker that begins
with the first task and is now at this stage. -/
inductive Follows (s : Settings) (w : Nat) (first : Task α) : List Event → Stage α → Prop where
  | begin : Follows s w first [] (.ready first)
  | move {events new : List Event} {a b : Stage α} {cancelled : Bool} :
      Follows s w first events a → Move s w cancelled a new b →
      Follows s w first (new ++ events) b

variable {s : Settings} {w : Nat} {cancelled : Bool} {a b stage : Stage α} {t first : Task α}
  {events new : List Event}

/-! ## One worker, one job -/

theorem Stage.shown_eq_some_iff {other : Stage α} :
    stage.shown = some other ↔ other = stage ∧ ∃ t, stage.task? = some t := by
  simp only [Stage.shown, Option.map_eq_some_iff]
  constructor
  · rintro ⟨t, found, rfl⟩
    exact ⟨rfl, t, found⟩
  · rintro ⟨rfl, t, found⟩
    exact ⟨t, found, rfl⟩

theorem Phase.stage?_shown {phase : Phase α} (at_phase : phase.stage? = some stage) :
    stage.shown = some stage := by
  cases phase <;> cases at_phase <;> rfl

/-- The node after a node is one of the same job. -/
theorem Task.ticket_onward {outcome : Outcome} {next : Task α}
    (found : (t.onward outcome).task? = some next) : next.ticket = t.ticket := by
  unfold Task.onward at found
  split at found
  next => cases found; rfl
  next => cases found

/-- A move stays in its job. -/
theorem Move.ticket {ticket : Nat} (move : Move s w cancelled a new b)
    (here : ∀ t, a.task? = some t → t.ticket = ticket) (next : Task α)
    (found : b.task? = some next) : next.ticket = ticket := by
  cases move with
  | attempt t =>
    cases found
    exact here next rfl
  | throttle t error =>
    cases found
    exact here t rfl
  | wait t error delay =>
    cases found
    exact here next rfl
  | panic t => cases found
  | succeed t => exact (Task.ticket_onward found).trans (here t rfl)
  | fail t error => exact (Task.ticket_onward found).trans (here t rfl)
  | cut t error => exact (Task.ticket_onward found).trans (here t rfl)
  | interrupt t error delay => exact (Task.ticket_onward found).trans (here t rfl)

/-- The events of a move are about its job and its worker. -/
theorem Move.spots {ticket : Nat} (move : Move s w cancelled a new b)
    (here : ∀ t, a.task? = some t → t.ticket = ticket) :
    ∀ e ∈ new, ∃ spot, e.spot? = some spot ∧ spot.ticket = ticket ∧ spot.worker = w := by
  cases move <;> simpa [Stage.task?, Event.spot?, Task.spot] using here

theorem Move.eventsOf_new {ticket : Nat} (move : Move s w cancelled a new b)
    (here : ∀ t, a.task? = some t → t.ticket = ticket) : eventsOf new ticket = new := by
  refine List.filter_eq_self.mpr fun e member => ?_
  obtain ⟨spot, about, same, _⟩ := move.spots here e member
  simp [Event.isAbout, about, same]

/-- The events of a job are about that job and one worker. -/
theorem Follows.ticket (follows : Follows s w first events stage) :
    (∀ t, stage.task? = some t → t.ticket = first.ticket) ∧
      ∀ e ∈ events, ∃ spot, e.spot? = some spot ∧ spot.ticket = first.ticket ∧
        spot.worker = w := by
  induction follows with
  | begin => exact ⟨by simp [Stage.task?], nofun⟩
  | move before move ih =>
    refine ⟨move.ticket ih.1, fun e member => ?_⟩
    rcases List.mem_append.mp member with new | old
    · exact move.spots ih.1 e new
    · exact ih.2 e old

/-! ## One start -/

/-- The root was not attempted yet. -/
def Stage.isFresh : Stage α → Bool
  | .ready t => t.node == 0 && t.retries == 0
  | _ => false

@[simp] theorem Stage.isFresh_ready (t : Task α) :
    (Stage.ready t).isFresh = (t.node == 0 && t.retries == 0) := rfl

@[simp] theorem Stage.isFresh_attempting (t : Task α) : (Stage.attempting t).isFresh = false := rfl

@[simp] theorem Stage.isFresh_sleeping (t : Task α) (error : JobError) (delay : Duration) :
    (Stage.sleeping t error delay).isFresh = false := rfl

@[simp] theorem Stage.isFresh_panicked : (Stage.panicked : Stage α).isFresh = false := rfl

@[simp] theorem Task.isFresh_onward (t : Task α) (outcome : Outcome) :
    (t.onward outcome).isFresh = false := by
  unfold Task.onward
  split <;> simp [Stage.isFresh]

/-- A wait is for a retry. -/
theorem Follows.retries_pos (follows : Follows s w first events stage) {error : JobError}
    {delay : Duration} (asleep : stage = .sleeping t error delay) : 0 < t.retries := by
  cases follows with
  | begin => cases asleep
  | move _ move =>
    cases move with
    | throttle t error =>
      cases asleep
      exact Nat.succ_pos _
    | attempt => cases asleep
    | wait => cases asleep
    | panic => cases asleep
    | _ =>
      unfold Task.onward at asleep
      split at asleep <;> cases asleep

/-- Only in its first stage the root of a job was not attempted. -/
theorem Follows.eq_of_isFresh (follows : Follows s w first events stage)
    (fresh : stage.isFresh = true) : stage = .ready first := by
  cases follows with
  | begin => rfl
  | move before move =>
    cases move with
    | wait t error delay =>
      have positive := before.retries_pos rfl
      simp [Nat.ne_of_gt positive] at fresh
    | _ => simp at fresh

/-- A job is started once, by its first move. -/
theorem Follows.countP_isStart (follows : Follows s w first events stage)
    (root : first.node = 0) (unused : first.retries = 0) :
    events.countP (·.isStart) = if stage.isFresh then 0 else 1 := by
  induction follows with
  | begin => simp [root, unused]
  | move before move ih =>
    rw [List.countP_append, ih]
    cases move with
    | attempt t =>
      by_cases fresh : t.node = 0 ∧ t.retries = 0
      · simp [Event.isStart, Task.spot, fresh]
      · have later : (t.node == 0 && t.retries == 0) = false := by simpa using fresh
        simp [Event.isStart, Task.spot, later]
    | wait t error delay =>
      have positive := before.retries_pos rfl
      simp [Event.isStart, Nat.ne_of_gt positive]
    | _ => simp [Event.isStart]

/-! ## One path -/

theorem resolutions_append (new events : List Event) :
    resolutions (new ++ events) = resolutions events ++ resolutions new := by
  simp [resolutions]

/-- What a worker at this stage has still to resolve. -/
def Stage.Ahead (w ticket : Nat) (rest : List (Spot × Outcome)) : Stage α → Prop
  | .ready t => Resolves w ticket t.node t.job.toChain rest
  | .attempting t => Resolves w ticket t.node t.job.toChain rest
  | .sleeping t _ _ => Resolves w ticket t.node t.job.toChain rest
  | .finished _ => rest = []
  | .panicked => False

/-- With a node resolved, what follows its outcome is ahead. -/
theorem Task.ahead_onward {outcome : Outcome} {ticket : Nat} {rest : List (Spot × Outcome)}
    (ahead : (t.onward outcome).Ahead w ticket rest) (here : t.ticket = ticket) :
    Resolves w ticket t.node t.job.toChain ((t.spot w, outcome) :: rest) := by
  subst here
  refine Resolves.node ?_
  unfold Task.onward at ahead
  cases chain : t.job.after outcome with
  | done =>
    rw [chain] at ahead
    rw [show rest = [] from ahead]
    exact .done _
  | node label action onSuccess onFailure =>
    rw [chain] at ahead
    exact ahead

/-- A move resolves what it takes off from what is ahead. -/
theorem Move.ahead {ticket : Nat} {rest : List (Spot × Outcome)}
    (move : Move s w cancelled a new b) (here : ∀ t, a.task? = some t → t.ticket = ticket)
    (ahead : b.Ahead w ticket rest) : a.Ahead w ticket (resolutions new ++ rest) := by
  cases move with
  | attempt t => exact ahead
  | succeed t => exact Task.ahead_onward ahead (here t rfl)
  | fail t error => exact Task.ahead_onward ahead (here t rfl)
  | throttle t error => exact ahead
  | cut t error => exact Task.ahead_onward (t := t.retry.cutShort) ahead (here t rfl)
  | wait t error delay => exact ahead
  | interrupt t error delay => exact Task.ahead_onward (t := t.cutShort) ahead (here t rfl)
  | panic t => exact ahead.elim

/-- What was resolved and what is ahead are together a path from the root. -/
theorem Follows.resolves (follows : Follows s w first events stage) (root : first.node = 0)
    {rest : List (Spot × Outcome)} (ahead : stage.Ahead w first.ticket rest) :
    Resolves w first.ticket 0 first.job.toChain (resolutions events ++ rest) := by
  induction follows generalizing rest with
  | begin =>
    rw [← root]
    exact ahead
  | move before move ih =>
    rw [resolutions_append, List.append_assoc]
    exact ih (move.ahead before.ticket.1 ahead)

/-- A worker that was taken down has left word of it. -/
theorem Follows.panicked_mem (follows : Follows s w first events .panicked) :
    ∃ spot, Event.panicked spot ∈ events ∧ spot.ticket = first.ticket := by
  generalize down : (Stage.panicked : Stage α) = stage at follows
  cases follows with
  | begin => cases down
  | move before move =>
    cases move with
    | panic t => exact ⟨_, List.mem_cons_self, before.ticket.1 t rfl⟩
    | attempt => cases down
    | wait => cases down
    | throttle => cases down
    | _ =>
      unfold Task.onward at down
      split at down <;> cases down

end CommandPool.Pool
