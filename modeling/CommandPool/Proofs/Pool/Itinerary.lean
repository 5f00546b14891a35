import CommandPool.Proofs.Pool.Nodes

/-!
# Itineraries

If the results of attempts depend only on the node and on how often it was attempted, a
job that is left alone has no choice.  Its *itinerary* lists what happens to it, node by
node, and is a function of the job, of these results and of the retries that a node has.

A worker that follows the results keeps to the itinerary: what has happened to the job and
what is ahead at its stage are together the same list, whichever moves come next.
-/

namespace CommandPool.Pool

variable {α : Type}

/-! ## Marks -/

/-- What an event says about a job, wherever and whenever it happens. -/
inductive Mark where
  /-- An attempt at the node with this label starts, the `number`-th of the node. -/
  | attempt (label : String) (number : Nat)
  /-- A wait is over. -/
  | retry
  /-- A node succeeds. -/
  | success
  /-- A node fails. -/
  | failure
  deriving DecidableEq, Repr

/-- The mark of an event.  A wait that begins has none. -/
def Event.mark? : Event → Option Mark
  | .attempted spot number => some (.attempt spot.label number)
  | .waited _ => some .retry
  | .succeeded _ => some .success
  | .failed .. => some .failure
  | _ => none

/-- The marks of events, the earliest first. -/
def marks (events : List Event) : List Mark := events.reverse.filterMap (·.mark?)

theorem marks_append (new events : List Event) :
    marks (new ++ events) = marks events ++ marks new := by
  simp [marks]

/-! ## Results that are known -/

/-- What the attempts at a node give, by their number. -/
abbrev Results (α : Type) := Job α → Nat → Except JobError Unit

/-- What happens at a node from its attempt of this number on, and how the node ends, if
so many retries are left. -/
def ordeal (label : String) (result : Nat → Except JobError Unit) :
    (left number : Nat) → List Mark × Outcome
  | 0, number =>
    match result number with
    | .ok _ => ([.success], .succeeded)
    | .error _ => ([.failure], .failed)
  | left + 1, number =>
    match result number with
    | .ok _ => ([.success], .succeeded)
    | .error e =>
      if e.isThrottled then
        let rest := ordeal label result left (number + 1)
        (.retry :: .attempt label (number + 1) :: rest.1, rest.2)
      else ([.failure], .failed)

/-- What happens along a chain, if each node has so many retries. -/
def itinerary (result : Results α) (maxRetries : Nat) : Chain α → List Mark
  | .done => []
  | .node label action onSuccess onFailure =>
    let trial := ordeal label (result ⟨label, action, onSuccess, onFailure⟩) maxRetries 1
    .attempt label 1 :: trial.1 ++
      match trial.2 with
      | .succeeded => itinerary result maxRetries onSuccess
      | .failed => itinerary result maxRetries onFailure

/-- What happens to a job from the attempt on that its task is at. -/
def Task.trial (t : Task α) (result : Results α) (maxRetries : Nat) : List Mark :=
  let trial := ordeal t.job.label (result t.job) (maxRetries - t.retries) (t.retries + 1)
  trial.1 ++ itinerary result maxRetries (t.job.after trial.2)

/-- What is ahead of a job at a stage. -/
def Stage.prospect (result : Results α) (maxRetries : Nat) : Stage α → List Mark
  | .ready t => .attempt t.job.label (t.retries + 1) :: t.trial result maxRetries
  | .attempting t => t.trial result maxRetries
  | .sleeping t _ _ =>
    .retry :: .attempt t.job.label (t.retries + 1) :: t.trial result maxRetries
  | .finished _ => []
  | .panicked => []

/-- The event with which an attempt ends that has this result. -/
def Task.word (t : Task α) (s : Settings) (w : Nat) : Except JobError Unit → Event
  | .ok _ => .succeeded (t.spot w)
  | .error e =>
    if e.mayRetry t.retries s.maxRetries then
      .throttled (t.spot w) t.retry.retries (s.backoff.delay t.retry.retries)
    else .failed (t.spot w) t.retries e

/-! ## Ordeals -/

section Ordeal

variable {label : String} {result : Nat → Except JobError Unit} {left number : Nat}

theorem ordeal_ok (ok : result number = .ok ()) :
    ordeal label result left number = ([.success], .succeeded) := by
  cases left <;> simp [ordeal, ok]

theorem ordeal_error {e : JobError} (error : result number = .error e)
    (final : e.isThrottled = false ∨ left = 0) :
    ordeal label result left number = ([.failure], .failed) := by
  cases left with
  | zero => simp [ordeal, error]
  | succ left => simp [ordeal, error, final.resolve_right (Nat.succ_ne_zero left)]

theorem ordeal_throttled {e : JobError} (error : result number = .error e)
    (throttled : e.isThrottled = true) : ordeal label result (left + 1) number =
      (.retry :: .attempt label (number + 1) :: (ordeal label result left (number + 1)).1,
        (ordeal label result left (number + 1)).2) := by
  simp [ordeal, error, throttled]

end Ordeal

variable {s : Settings} {w : Nat} {t first : Task α} {a b stage : Stage α}
  {events new : List Event} {result : Results α}

theorem trial_ok (ok : result t.job (t.retries + 1) = .ok ()) (maxRetries : Nat) :
    t.trial result maxRetries =
      .success :: itinerary result maxRetries (t.job.after .succeeded) := by
  rw [Task.trial, ordeal_ok ok]
  rfl

theorem trial_error {e : JobError} {maxRetries : Nat}
    (error : result t.job (t.retries + 1) = .error e)
    (final : e.mayRetry t.retries maxRetries = false) : t.trial result maxRetries =
      .failure :: itinerary result maxRetries (t.job.after .failed) := by
  have last : e.isThrottled = false ∨ maxRetries - t.retries = 0 := by
    simp only [JobError.mayRetry, Bool.and_eq_false_iff, decide_eq_false_iff_not] at final
    rcases final with (otherwise | none) | spent
    · exact Or.inl otherwise
    · exact Or.inr (by omega)
    · exact Or.inr (by omega)
  rw [Task.trial, ordeal_error error last]
  rfl

theorem trial_throttled {e : JobError} {maxRetries : Nat}
    (error : result t.job (t.retries + 1) = .error e)
    (again : e.mayRetry t.retries maxRetries = true) : t.trial result maxRetries =
      .retry :: .attempt t.job.label (t.retry.retries + 1) ::
        t.retry.trial result maxRetries := by
  simp only [JobError.mayRetry, Bool.and_eq_true, decide_eq_true_eq] at again
  obtain ⟨⟨throttled, _⟩, less⟩ := again
  have left : maxRetries - t.retries = maxRetries - t.retry.retries + 1 := by
    show maxRetries - t.retries = maxRetries - (t.retries + 1) + 1
    omega
  rw [Task.trial, left, ordeal_throttled error throttled]
  rfl

/-- Before its first attempt a node has the whole itinerary of its chain ahead. -/
theorem prospect_ready (result : Results α) (maxRetries ticket node : Nat) (job : Job α)
    (interrupted : Bool) :
    (Stage.ready ⟨ticket, node, job, 0, interrupted⟩).prospect result maxRetries =
      itinerary result maxRetries job.toChain := by
  simp only [Stage.prospect, Task.trial, Job.toChain, itinerary, Nat.sub_zero, List.cons_append]
  split <;> rename_i ended <;> rw [ended] <;> rfl

/-- After the end of a node the rest of the itinerary is ahead. -/
theorem Task.prospect_onward (t : Task α) (result : Results α) (maxRetries : Nat)
    (outcome : Outcome) : (t.onward outcome).prospect result maxRetries =
      itinerary result maxRetries (t.job.after outcome) := by
  unfold Task.onward
  cases t.job.after outcome with
  | done => rfl
  | node label action onSuccess onFailure => exact prospect_ready result maxRetries _ _ _ _

/-! ## Moves -/

section Word

variable {r : Except JobError Unit} {spot : Spot}

theorem Task.ok_of_word (word : t.word s w r = .succeeded spot) : r = .ok () := by
  cases r with
  | ok => rfl
  | error e =>
    rw [Task.word] at word
    split at word <;> cases word

theorem Task.error_of_word {retries : Nat} {e : JobError}
    (word : t.word s w r = .failed spot retries e) :
    r = .error e ∧ e.mayRetry t.retries s.maxRetries = false := by
  cases r with
  | ok => cases word
  | error e' =>
    rw [Task.word] at word
    split at word <;> cases word
    next final => exact ⟨rfl, eq_false_of_ne_true final⟩

theorem Task.throttled_of_word {retry : Nat} {delay : Duration}
    (word : t.word s w r = .throttled spot retry delay) :
    ∃ e, r = .error e ∧ e.mayRetry t.retries s.maxRetries = true := by
  cases r with
  | ok => cases word
  | error e =>
    rw [Task.word] at word
    split at word <;> cases word
    next again => exact ⟨e, rfl, again⟩

theorem Task.word_ne_panicked (word : t.word s w r = .panicked spot) : False := by
  cases r with
  | ok => cases word
  | error e =>
    rw [Task.word] at word
    split at word <;> cases word

end Word

/-- An attempt at this stage ends as the results say. -/
def Abides (result : Results α) (s : Settings) (w : Nat) (a : Stage α) (new : List Event) : Prop :=
  ∀ t, a = .attempting t → new = [t.word s w (result t.job (t.retries + 1))]

/-- A move takes off what it marks from what is ahead. -/
theorem Move.prospect (move : Move s w false a new b) (abides : Abides result s w a new) :
    a.prospect result s.maxRetries = marks new ++ b.prospect result s.maxRetries := by
  cases move with
  | attempt t => rfl
  | succeed t =>
    have known := Task.ok_of_word (List.singleton_inj.mp (abides t rfl)).symm
    rw [Task.prospect_onward]
    exact trial_ok known s.maxRetries
  | fail t error =>
    obtain ⟨known, final⟩ := Task.error_of_word (List.singleton_inj.mp (abides t rfl)).symm
    rw [Task.prospect_onward]
    exact trial_error known final
  | throttle t error =>
    obtain ⟨e, known, again⟩ := Task.throttled_of_word (List.singleton_inj.mp (abides t rfl)).symm
    exact trial_throttled known again
  | wait t error delay => rfl
  | panic t => exact (Task.word_ne_panicked (List.singleton_inj.mp (abides t rfl)).symm).elim
  | cut t error _ cancelled => cases cancelled
  | interrupt t error delay cancelled => cases cancelled

/-! ## Numbers of attempts -/

/-- The stage is that of an attempt. -/
def Stage.isTrying : Stage α → Bool
  | .attempting _ => true
  | _ => false

/-- A node that the job has not reached was not attempted. -/
theorem Accounts.untried {ticket node : Nat} (accounts : Accounts events stage ticket node)
    (at_task : stage.task? = some t) (ahead : t.node < node) :
    countAt Event.isAttempt events ticket node = 0 := by
  obtain ⟨closed, opened, _, started, _⟩ := accounts
  have before : stage.isBefore node = true := by
    simp [Stage.isBefore, at_task, Nat.le_of_lt ahead]
  have elsewhere : stage.isAt node = false := by
    simp [Stage.isAt, at_task, Nat.ne_of_lt ahead]
  rw [before, Bool.toNat_true] at closed
  rw [elsewhere, Bool.and_false, Bool.toNat_false] at opened
  omega

/-- The node after a node was not attempted. -/
theorem Accounts.untried_onward {t ended next : Task α} {ticket : Nat} {outcome : Outcome}
    {e : Event} (accounts : ∀ node, Accounts events stage ticket node)
    (at_task : stage.task? = some t) (same : t.node = ended.node) (notAttempt : e.isAttempt = false)
    (found : (ended.onward outcome).task? = some next) :
    countAt Event.isAttempt (e :: events) ticket next.node =
      next.retries + (ended.onward outcome).isTrying.toNat := by
  unfold Task.onward at found ⊢
  split at found
  next =>
    cases found
    rw [countAt_cons_of_not notAttempt, ← same]
    exact (accounts (t.node + 1)).untried at_task (Nat.lt_succ_self _)
  next => cases found

/-- A node was attempted once more than it was retried, or as often if it is between two
attempts. -/
theorem Follows.attempts_at (follows : Follows s w first events stage)
    (unused : first.retries = 0) (task : stage.task? = some t) :
    countAt Event.isAttempt events first.ticket t.node = t.retries + stage.isTrying.toNat := by
  induction follows generalizing t with
  | begin =>
    cases task
    rw [unused]
    rfl
  | move before move ih =>
    have accounts := before.accounts unused
    have here := before.ticket.1
    cases move with
    | attempt t' =>
      cases task
      have at_node := t.isAt_spot (e := .attempted (t.spot w) (t.retries + 1)) rfl (here t rfl)
        t.node
      rw [List.singleton_append, countAt_cons_of rfl, at_node, ih rfl]
      simp [Stage.isTrying]
    | throttle t' error =>
      cases task
      rw [List.singleton_append, countAt_cons_of_not rfl]
      exact ih rfl
    | wait t' error delay =>
      cases task
      rw [List.singleton_append, countAt_cons_of_not rfl]
      exact ih rfl
    | panic => cases task
    | succeed t' => exact Accounts.untried_onward accounts rfl rfl rfl task
    | fail t' error => exact Accounts.untried_onward accounts rfl rfl rfl task
    | cut t' error =>
      exact
        Accounts.untried_onward (fun node => (accounts node).throttle error ⟨0⟩) rfl rfl rfl task
    | interrupt t' error delay => exact Accounts.untried_onward accounts rfl rfl rfl task

end CommandPool.Pool
