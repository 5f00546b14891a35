import CommandPool.Proofs.Pool.Course

/-!
# What happens to the nodes of a job

A job is a path of nodes, and each node has its events: it is started by a first
attempt, it is attempted again after each wait, and it is closed by a success, a
failure or a panic.  `Follows.nodes` says how many events of each kind a node has, given
the stage that the job has reached.  Nothing happens to a node before those in front of
it are closed, or after it is closed itself.
-/

namespace CommandPool.Pool

variable {α : Type}

/-! ## Kinds of events -/

/-- An attempt starts. -/
def Event.isAttempt : Event → Bool
  | .attempted .. => true
  | _ => false

/-- A node is started: its first attempt starts. -/
def Event.isFirst : Event → Bool
  | .attempted _ number => number == 1
  | _ => false

/-- A wait is over. -/
def Event.isWaited : Event → Bool
  | .waited _ => true
  | _ => false

/-- A node succeeds. -/
def Event.isSuccess : Event → Bool
  | .succeeded _ => true
  | _ => false

/-- A node fails. -/
def Event.isFailure : Event → Bool
  | .failed .. => true
  | _ => false

/-- The action of a node panics. -/
def Event.isPanic : Event → Bool
  | .panicked _ => true
  | _ => false

/-- A node is closed: it succeeds, fails or takes its worker down. -/
def Event.closes (e : Event) : Bool := e.isSuccess || e.isFailure || e.isPanic

/-- The event is about this node of this job. -/
def Event.isAt (e : Event) (ticket node : Nat) : Bool :=
  e.spot?.any fun spot => spot.ticket == ticket && spot.node == node

theorem Event.kinds_of_closes {e : Event} (closes : e.closes = true) :
    e.isFirst = false ∧ e.isAttempt = false ∧ e.isWaited = false := by
  cases e <;> first | exact ⟨rfl, rfl, rfl⟩ | cases closes

theorem countP_closes (events : List Event) : events.countP (·.closes) =
    events.countP (·.isSuccess) + events.countP (·.isFailure) + events.countP (·.isPanic) := by
  induction events with
  | nil => rfl
  | cons e events ih =>
    simp only [List.countP_cons, ih]
    cases e <;> simp [Event.closes, Event.isSuccess, Event.isFailure, Event.isPanic] <;> omega

/-- The number of events of a kind at a node. -/
def countAt (kind : Event → Bool) (events : List Event) (ticket node : Nat) : Nat :=
  events.countP fun e => kind e && e.isAt ticket node

/-- The latest event at a node ends a wait. -/
def isDue (events : List Event) (ticket node : Nat) : Bool :=
  (events.find? (·.isAt ticket node)).any (·.isWaited)

/-! ## Where a job stands -/

/-- The job has not left the node yet. -/
def Stage.isBefore (stage : Stage α) (node : Nat) : Bool := stage.task?.any (·.node ≤ node)

/-- The job is at a node that was attempted and is not closed. -/
def Stage.isOpen : Stage α → Bool
  | .ready t => t.retries != 0
  | .attempting _ => true
  | .sleeping .. => true
  | _ => false

/-- The job is about to attempt a node again. -/
def Stage.isDue : Stage α → Bool
  | .ready t => t.retries != 0
  | _ => false

/-- The job is at this node. -/
def Stage.isAt (stage : Stage α) (node : Nat) : Bool := stage.task?.any (·.node == node)

@[simp] theorem Stage.isDue_attempting (t : Task α) : (Stage.attempting t).isDue = false := rfl

@[simp] theorem Stage.isDue_sleeping (t : Task α) (error : JobError) (delay : Duration) :
    (Stage.sleeping t error delay).isDue = false := rfl

variable {s : Settings} {w : Nat} {stage : Stage α} {first : Task α} {events : List Event}

/-- How many events of each kind a node has when the job has reached this stage. -/
structure Accounts (events : List Event) (stage : Stage α) (ticket node : Nat) : Prop where
  closed : countAt Event.closes events ticket node + (stage.isBefore node).toNat ≤ 1
  opened : countAt Event.isFirst events ticket node =
    countAt Event.closes events ticket node + (stage.isOpen && stage.isAt node).toNat
  attempts : countAt Event.isAttempt events ticket node +
      (stage.isDue && stage.isAt node).toNat =
    countAt Event.isFirst events ticket node + countAt Event.isWaited events ticket node
  /-- A node that was attempted at all was started. -/
  started : 0 < countAt Event.isAttempt events ticket node →
    0 < countAt Event.isFirst events ticket node
  due : isDue events ticket node = (stage.isDue && stage.isAt node)

/-- A node that is open is not closed, and one that is closed was closed once. -/
theorem Accounts.once {ticket node : Nat} (accounts : Accounts events stage ticket node) :
    countAt Event.closes events ticket node + (stage.isOpen && stage.isAt node).toNat ≤ 1 := by
  have closed := accounts.closed
  have before : (stage.isOpen && stage.isAt node).toNat ≤ (stage.isBefore node).toNat := by
    cases at_node : stage.isAt node with
    | false => simp
    | true =>
      obtain ⟨t, task, same⟩ := (Option.any_eq_true _ _).mp at_node
      have reached : stage.isBefore node = true := by
        rw [Stage.isBefore, task]
        simp [eq_of_beq same]
      simp [reached, Bool.toNat_le]
  omega

/-! ## One more event -/

@[simp] theorem countAt_nil (kind : Event → Bool) (ticket node : Nat) :
    countAt kind [] ticket node = 0 := rfl

/-- An event of another kind is not counted. -/
theorem countAt_cons_of_not {k : Event → Bool} {e : Event} (other : k e = false)
    (events : List Event) (ticket node : Nat) :
    countAt k (e :: events) ticket node = countAt k events ticket node := by
  simp [countAt, other]

/-- An event of the kind is counted at its node. -/
theorem countAt_cons_of {k : Event → Bool} {e : Event} (counted : k e = true)
    (events : List Event) (ticket node : Nat) : countAt k (e :: events) ticket node =
      countAt k events ticket node + (e.isAt ticket node).toNat := by
  cases at_node : e.isAt ticket node <;> simp [countAt, counted, at_node]

theorem isDue_cons (e : Event) (events : List Event) (ticket node : Nat) :
    isDue (e :: events) ticket node =
      if e.isAt ticket node then e.isWaited else isDue events ticket node := by
  rw [isDue, List.find?_cons]
  cases e.isAt ticket node <;> rfl

/-- What happens at a task is at its node. -/
theorem Task.isAt_spot {t : Task α} {e : Event} {ticket : Nat}
    (about : e.spot? = some (t.spot w)) (here : t.ticket = ticket) (node : Nat) :
    e.isAt ticket node = (t.node == node) := by
  simp [Event.isAt, about, Task.spot, here]

/-! ## Moves -/

/-- After a node is closed the job is at none that was attempted, and before the next. -/
theorem Task.onward_stands (t : Task α) (outcome : Outcome) (node : Nat) :
    (t.onward outcome).isOpen = false ∧ (t.onward outcome).isDue = false ∧
      ((t.onward outcome).isBefore node = true → t.node < node) := by
  unfold Task.onward
  split
  next =>
    refine ⟨rfl, rfl, fun before => ?_⟩
    have beyond : t.node + 1 ≤ node := by simpa [Stage.isBefore, Stage.task?] using before
    exact beyond
  next => exact ⟨rfl, rfl, (by cases ·)⟩

/-- An event that closes the node of a task takes the job off that node. -/
theorem Accounts.close {t : Task α} {e : Event} {stage onward : Stage α} {ticket node : Nat}
    (accounts : Accounts events stage ticket node) (at_task : stage.task? = some t)
    (isOpen : stage.isOpen = true) (notDue : stage.isDue = false)
    (about : e.spot? = some (t.spot w)) (here : t.ticket = ticket) (closes : e.closes = true)
    (stands : onward.isOpen = false ∧ onward.isDue = false ∧
      (onward.isBefore node = true → t.node < node)) :
    Accounts (e :: events) onward ticket node := by
  obtain ⟨notOpen, notDue', past⟩ := stands
  have at_node := t.isAt_spot about here node
  obtain ⟨notFirst, notAttempt, notWaited⟩ := Event.kinds_of_closes closes
  obtain ⟨closed, opened, attempts, started, due⟩ := accounts
  simp only [Stage.isAt, at_task, Option.any_some, isOpen, notDue, Bool.true_and,
    Bool.false_and, Bool.toNat_false, Nat.add_zero] at opened attempts due
  refine ⟨?_, ?_, ?_, ?_, ?_⟩
  · rw [countAt_cons_of closes, at_node]
    have before : stage.isBefore node = decide (t.node ≤ node) := by
      rw [Stage.isBefore, at_task, Option.any_some]
    rw [before] at closed
    have stays : (t.node == node).toNat + (onward.isBefore node).toNat ≤
        (decide (t.node ≤ node)).toNat := by
      by_cases later : onward.isBefore node = true
      · have beyond := past later
        have other : (t.node == node) = false := by simpa using Nat.ne_of_lt beyond
        simp [later, other, Nat.le_of_lt beyond]
      · rw [Bool.not_eq_true] at later
        by_cases equal : t.node = node
        · simp [later, equal]
        · have other : (t.node == node) = false := by simpa using equal
          simp [later, other]
    omega
  · rw [countAt_cons_of_not notFirst, countAt_cons_of closes, at_node, notOpen, opened]
    rfl
  · rw [countAt_cons_of_not notAttempt, countAt_cons_of_not notFirst,
      countAt_cons_of_not notWaited, notDue']
    exact attempts
  · rw [countAt_cons_of_not notAttempt, countAt_cons_of_not notFirst]
    exact started
  · rw [isDue_cons, notWaited, notDue', due]
    simp

/-- A throttled attempt closes nothing, and the node waits. -/
theorem Accounts.throttle {t : Task α} {retry ticket node : Nat} {delay : Duration}
    (accounts : Accounts events (.attempting t) ticket node) (error : JobError)
    (delay' : Duration) :
    Accounts (.throttled (t.spot w) retry delay :: events) (.sleeping t.retry error delay')
      ticket node := by
  obtain ⟨closed, opened, attempts, started, due⟩ := accounts
  refine ⟨?_, ?_, ?_, ?_, ?_⟩
  · rw [countAt_cons_of_not rfl]
    exact closed
  · rw [countAt_cons_of_not rfl, countAt_cons_of_not rfl]
    exact opened
  · rw [countAt_cons_of_not rfl, countAt_cons_of_not rfl, countAt_cons_of_not rfl]
    exact attempts
  · rw [countAt_cons_of_not rfl, countAt_cons_of_not rfl]
    exact started
  · rw [isDue_cons]
    split
    next => rfl
    next => exact due

/-- Only the first attempt of a node counts as such. -/
theorem countAt_isFirst_attempted {t : Task α} {ticket : Nat} (here : t.ticket = ticket)
    (events : List Event) (node : Nat) :
    countAt Event.isFirst (.attempted (t.spot w) (t.retries + 1) :: events) ticket node =
      countAt Event.isFirst events ticket node + (t.retries == 0 && t.node == node).toNat := by
  cases fresh : t.retries == 0 with
  | true =>
    rw [countAt_cons_of (by simpa [Event.isFirst] using fresh), t.isAt_spot rfl here,
      Bool.true_and]
  | false =>
    rw [countAt_cons_of_not (by simpa [Event.isFirst] using fresh), Bool.false_and]
    rfl

/-- An attempt is the first one of its node, or the one that was due. -/
theorem Accounts.attempt {t : Task α} {ticket node : Nat}
    (accounts : Accounts events (.ready t) ticket node) (here : t.ticket = ticket) :
    Accounts (.attempted (t.spot w) (t.retries + 1) :: events) (.attempting t) ticket node := by
  have at_node := t.isAt_spot (e := .attempted (t.spot w) (t.retries + 1)) rfl here node
  have first := countAt_isFirst_attempted (w := w) here events node
  have either : (t.retries == 0 && t.node == node).toNat +
      (t.retries != 0 && t.node == node).toNat = (t.node == node).toNat := by
    rw [bne]
    cases t.retries == 0 <;> simp
  have attempt : countAt Event.isAttempt (.attempted (t.spot w) (t.retries + 1) :: events)
      ticket node = countAt Event.isAttempt events ticket node + (t.node == node).toNat := by
    rw [countAt_cons_of rfl, at_node]
  have closes : countAt Event.closes (.attempted (t.spot w) (t.retries + 1) :: events)
      ticket node = countAt Event.closes events ticket node := countAt_cons_of_not rfl ..
  have waited : countAt Event.isWaited (.attempted (t.spot w) (t.retries + 1) :: events)
      ticket node = countAt Event.isWaited events ticket node := countAt_cons_of_not rfl ..
  obtain ⟨closed, opened, attempts, started, due⟩ := accounts
  simp only [Stage.isOpen, Stage.isDue, Stage.isAt, Stage.task?, Option.any_some]
    at opened attempts due
  refine ⟨?_, ?_, ?_, ?_, ?_⟩
  · rw [closes]
    exact closed
  · rw [first, closes, opened, Stage.isOpen, Stage.isAt, Stage.task?, Option.any_some,
      Bool.true_and]
    omega
  · rw [attempt, first, waited, Stage.isDue_attempting, Bool.false_and, Bool.toNat_false]
    omega
  · rw [attempt, first]
    omega
  · rw [isDue_cons, at_node]
    by_cases equal : t.node = node
    · simp [equal, Event.isWaited, Stage.isDue]
    · have notDue : isDue events ticket node = false := by simp [due, equal]
      simp [equal, notDue, Stage.isDue]

/-- A wait that is over leaves an attempt due. -/
theorem Accounts.wait {t : Task α} {error : JobError} {delay : Duration} {ticket node : Nat}
    (accounts : Accounts events (.sleeping t error delay) ticket node)
    (here : t.ticket = ticket) (again : 0 < t.retries) :
    Accounts (.waited (t.spot w) :: events) (.ready t) ticket node := by
  have at_node := t.isAt_spot (e := .waited (t.spot w)) rfl here node
  have retried : (t.retries != 0) = true := by simpa using Nat.ne_of_gt again
  obtain ⟨closed, opened, attempts, started, due⟩ := accounts
  refine ⟨?_, ?_, ?_, ?_, ?_⟩
  · rw [countAt_cons_of_not rfl]
    exact closed
  · rw [countAt_cons_of_not rfl, countAt_cons_of_not rfl, opened, Stage.isOpen, Stage.isOpen,
      retried]
    rfl
  · rw [countAt_cons_of_not rfl, countAt_cons_of_not rfl, countAt_cons_of rfl, at_node,
      Stage.isDue, retried, Bool.true_and]
    rw [Stage.isDue_sleeping, Bool.false_and, Bool.toNat_false] at attempts
    rw [Stage.isAt, Stage.task?, Option.any_some]
    omega
  · rw [countAt_cons_of_not rfl, countAt_cons_of_not rfl]
    exact started
  · rw [isDue_cons, at_node, Stage.isDue, retried, Bool.true_and, due]
    cases equal : t.node == node <;> simp [Stage.isAt, Stage.task?, Stage.isDue, equal,
      Event.isWaited]

/-! ## Whole courses -/

/-- The accounts of every node are in order, at every stage of a job. -/
theorem Follows.accounts (follows : Follows s w first events stage) (unused : first.retries = 0)
    (node : Nat) : Accounts events stage first.ticket node := by
  induction follows with
  | begin =>
    constructor <;> simp [Stage.isOpen, Stage.isDue, isDue, unused, Bool.toNat_le]
  | move before move ih =>
    have here := before.ticket.1
    cases move with
    | attempt t => exact ih.attempt (here t rfl)
    | succeed t => exact ih.close rfl rfl rfl rfl (here t rfl) rfl (t.onward_stands _ node)
    | fail t error => exact ih.close rfl rfl rfl rfl (here t rfl) rfl (t.onward_stands _ node)
    | throttle t error => exact ih.throttle error _
    | cut t error =>
      exact (ih.throttle error ⟨0⟩).close rfl rfl rfl rfl (here t rfl) rfl
        (t.retry.cutShort.onward_stands .failed node)
    | wait t error delay => exact ih.wait (here t rfl) (before.retries_pos rfl)
    | interrupt t error delay =>
      exact ih.close rfl rfl rfl rfl (here t rfl) rfl (t.cutShort.onward_stands .failed node)
    | panic t => exact ih.close rfl rfl rfl rfl (here t rfl) rfl ⟨rfl, rfl, (by cases ·)⟩

end CommandPool.Pool
