import CommandPool.Proofs.Pool.Itinerary
import CommandPool.Proofs.Pool.Tally
import Mathlib.Data.Nat.Find
import Mathlib.Order.Bounds.Basic

/-!
# Visits

A worker visits the nodes of a job one after another.  A visit is some rounds, each of an
attempt that is throttled, a warning and a wait that is over, and then one more attempt and
what closes the node.  So the number of the rounds and the way the node is closed say
everything that happens in a visit.

If the attempts at a node give known results, the visit is known too, as long as no wait is
cut short: the attempts before the first *decisive* one are all throttled, and that one
closes the node.
-/

namespace CommandPool.Pool

/-! ## What happens in a visit -/

/-- How the visit of a worker to a node ends. -/
inductive Closing where
  /-- The last attempt succeeds. -/
  | succeeded
  /-- The last attempt fails. -/
  | failed (error : JobError)
  /-- The last attempt is throttled with this error, and the cancellation cuts the wait for
  the next one short. -/
  | cutShort (error : JobError)

/-- How the node ends with it. -/
def Closing.outcome : Closing → Outcome
  | .succeeded => .succeeded
  | .failed _ => .failed
  | .cutShort _ => .failed

/-- A wait is cut short by it. -/
def Closing.isCut : Closing → Bool
  | .cutShort _ => true
  | _ => false

/-- The visit of a worker to a node. -/
structure Visit where
  /-- The label of the node. -/
  label : String
  /-- The waits that were over. -/
  retries : Nat
  /-- How it ends. -/
  closing : Closing

variable {s : Settings} {spot : Spot} {n m maxRetries : Nat} {result : Nat → Except JobError Unit}

/-- The first `n` attempts at a node are throttled, and each is followed by a wait. -/
def rounds (s : Settings) (spot : Spot) (n : Nat) : List Event :=
  (List.range n).flatMap fun i =>
    [.attempted spot (i + 1), .throttled spot (i + 1) (s.backoff.delay (i + 1)), .waited spot]

/-- What closes a node that was retried so often. -/
def Closing.events (s : Settings) (spot : Spot) (retries : Nat) : Closing → List Event
  | .succeeded => [.succeeded spot]
  | .failed error => [.failed spot retries error]
  | .cutShort error =>
    [.throttled spot (retries + 1) (s.backoff.delay (retries + 1)),
      .failed spot (retries + 1) error]

/-- What happens in a visit, the earliest first. -/
def Visit.events (s : Settings) (spot : Spot) (v : Visit) : List Event :=
  rounds s spot v.retries ++ .attempted spot (v.retries + 1) ::
    v.closing.events s spot v.retries

theorem rounds_succ (s : Settings) (spot : Spot) (n : Nat) : rounds s spot (n + 1) =
    rounds s spot n ++ [.attempted spot (n + 1),
      .throttled spot (n + 1) (s.backoff.delay (n + 1)), .waited spot] := by
  simp [rounds, List.range_succ]

theorem rounds_isPrefix (within : n ≤ m) : rounds s spot n <+: rounds s spot m := by
  induction within with
  | refl => exact List.prefix_rfl
  | step _ ih =>
    rw [rounds_succ]
    exact ih.trans (List.prefix_append _ _)

/-- Everything that happens in a visit is about its node. -/
theorem spot?_of_mem_rounds {e : Event} (member : e ∈ rounds s spot n) : e.spot? = some spot := by
  obtain ⟨i, _, here⟩ := List.mem_flatMap.mp member
  simp only [List.mem_cons, List.not_mem_nil, or_false] at here
  rcases here with rfl | rfl | rfl <;> rfl

theorem Visit.spot?_of_mem {v : Visit} {e : Event} (member : e ∈ v.events s spot) :
    e.spot? = some spot := by
  rcases List.mem_append.mp member with round | last
  · exact spot?_of_mem_rounds round
  · rcases List.mem_cons.mp last with rfl | closes
    · rfl
    · cases ends : v.closing <;> rw [ends] at closes <;>
        simp only [Closing.events, List.mem_cons, List.not_mem_nil, or_false] at closes
      next => subst closes; rfl
      next => subst closes; rfl
      next => rcases closes with rfl | rfl <;> rfl

/-! ## Results of attempts -/

/-- The attempt was throttled. -/
def Throttles (r : Except JobError Unit) : Prop := ∃ message, r = .error (.throttled message)

/-- The numbers of the attempts after which no other may come: those that are not throttled,
and the one for which all retries are used up. -/
def decisive (maxRetries : Nat) (result : Nat → Except JobError Unit) : Set Nat :=
  { i | 0 < i ∧ (¬ Throttles (result i) ∨ i = maxRetries + 1) }

/-- The first `n` attempts at a node were throttled, and each of them may be followed by
another one. -/
def Endures (maxRetries : Nat) (result : Nat → Except JobError Unit) (n : Nat) : Prop :=
  ∀ i < n, ∃ e, result (i + 1) = .error e ∧ e.mayRetry i maxRetries = true

/-- The attempts at the node give these results. -/
def Closing.Fits (maxRetries : Nat) (result : Nat → Except JobError Unit) (retries : Nat) :
    Closing → Prop
  | .succeeded => result (retries + 1) = .ok ()
  | .failed e => result (retries + 1) = .error e ∧ e.mayRetry retries maxRetries = false
  | .cutShort e => result (retries + 1) = .error e ∧ e.mayRetry retries maxRetries = true

/-- The attempts of the visit give these results. -/
structure Visit.Fits (maxRetries : Nat) (result : Nat → Except JobError Unit) (v : Visit) :
    Prop where
  endured : Endures maxRetries result v.retries
  closed : v.closing.Fits maxRetries result v.retries

theorem mayRetry_iff {e : JobError} {retries : Nat} : e.mayRetry retries maxRetries = true ↔
    (∃ message, e = .throttled message) ∧ retries < maxRetries := by
  cases e with
  | throttled message =>
    simp only [JobError.mayRetry, JobError.isThrottled, Bool.true_and, Bool.and_eq_true,
      decide_eq_true_eq, JobError.throttled.injEq, exists_eq', true_and]
    omega
  | _ => simp [JobError.mayRetry, JobError.isThrottled]

theorem endures_zero (maxRetries : Nat) (result : Nat → Except JobError Unit) :
    Endures maxRetries result 0 := by
  rintro i ⟨⟩

theorem Endures.succ {e : JobError} (endures : Endures maxRetries result n)
    (error : result (n + 1) = .error e) (again : e.mayRetry n maxRetries = true) :
    Endures maxRetries result (n + 1) := by
  intro i less
  rcases Nat.lt_succ_iff_lt_or_eq.mp less with earlier | rfl
  · exact endures i earlier
  · exact ⟨e, error, again⟩

theorem Endures.retries_le (endures : Endures maxRetries result n) : n ≤ maxRetries := by
  cases n with
  | zero => exact Nat.zero_le _
  | succ n =>
    obtain ⟨e, _, again⟩ := endures n (Nat.lt_succ_self n)
    exact (mayRetry_iff.mp again).2

/-- No attempt after which another came is decisive. -/
theorem Endures.lt_of_decisive {i : Nat} (endures : Endures maxRetries result n)
    (decides : i ∈ decisive maxRetries result) : n < i := by
  obtain ⟨positive, decides⟩ := decides
  refine Nat.lt_of_not_le fun within => ?_
  obtain ⟨j, rfl⟩ := Nat.exists_eq_add_one_of_ne_zero (Nat.ne_of_gt positive)
  obtain ⟨e, error, again⟩ := endures j within
  obtain ⟨⟨message, rfl⟩, less⟩ := mayRetry_iff.mp again
  rcases decides with otherwise | last
  · exact otherwise ⟨message, error⟩
  · omega

/-- An attempt is decisive unless it is throttled with a retry left. -/
theorem decisive_of_final (final : ∀ e, result (n + 1) = .error e → e.mayRetry n maxRetries = false)
    (within : n ≤ maxRetries) : n + 1 ∈ decisive maxRetries result := by
  refine ⟨Nat.succ_pos n, ?_⟩
  by_cases spent : n = maxRetries
  · exact Or.inr (congrArg (· + 1) spent)
  · refine Or.inl ?_
    rintro ⟨message, error⟩
    have again : (JobError.throttled message).mayRetry n maxRetries = true :=
      mayRetry_iff.mpr ⟨⟨message, rfl⟩, by omega⟩
    rw [final _ error] at again
    cases again

/-- A visit in which no wait is cut short ends with the first decisive attempt. -/
theorem Visit.Fits.isLeast {v : Visit} (fits : v.Fits maxRetries result)
    (uncut : v.closing.isCut = false) : IsLeast (decisive maxRetries result) (v.retries + 1) := by
  refine ⟨decisive_of_final ?_ fits.endured.retries_le,
    fun i decides => fits.endured.lt_of_decisive decides⟩
  intro e error
  have closed := fits.closed
  cases ends : v.closing <;> rw [ends] at closed uncut
  next => cases closed.symm.trans error
  next => cases closed.1.symm.trans error; exact closed.2
  next => cases uncut

/-- At every node some attempt is the first decisive one. -/
theorem exists_isLeast_decisive (maxRetries : Nat) (result : Nat → Except JobError Unit) :
    ∃ k, IsLeast (decisive maxRetries result) k := by
  classical
  have last : ∃ k, k ∈ decisive maxRetries result :=
    ⟨maxRetries + 1, Nat.succ_pos _, Or.inr rfl⟩
  exact ⟨Nat.find last, Nat.find_spec last, fun i decides => Nat.find_min' last decides⟩

/-! ## Visits that are known -/

/-- The event with which the last attempt at a node ends, after so many retries. -/
def verdict (spot : Spot) (retries : Nat) : Except JobError Unit → Event
  | .ok _ => .succeeded spot
  | .error e => .failed spot retries e

/-- What happens at a node whose attempts give these results, if the attempt number `k` is
the last one. -/
def trial (s : Settings) (spot : Spot) (result : Nat → Except JobError Unit) (k : Nat) :
    List Event :=
  rounds s spot (k - 1) ++ [.attempted spot k, verdict spot (k - 1) (result k)]

theorem spot?_of_mem_trial {k : Nat} {e : Event} (member : e ∈ trial s spot result k) :
    e.spot? = some spot := by
  rcases List.mem_append.mp member with round | last
  · exact spot?_of_mem_rounds round
  · simp only [List.mem_cons, List.not_mem_nil, or_false] at last
    rcases last with rfl | rfl
    · rfl
    · cases result k <;> rfl

theorem Visit.Fits.events_eq_trial {v : Visit} (fits : v.Fits maxRetries result)
    (uncut : v.closing.isCut = false) : v.events s spot = trial s spot result (v.retries + 1) := by
  have closed := fits.closed
  rw [Visit.events, trial, Nat.add_sub_cancel]
  cases ends : v.closing <;> rw [ends] at closed uncut
  next => rw [show result (v.retries + 1) = .ok () from closed]; rfl
  next => rw [closed.1]; rfl
  next => cases uncut

/-- The entry that warns of the wait before a retry. -/
def warning (spot : Spot) (retry : Nat) (delay : Duration) : Log.Entry :=
  ⟨.warn, .worker, "ratelimit " ++ Event.enquote spot.label ++ ", sleep for " ++ delay.text,
    [("attempt", .number retry), ("delay", .text delay.text)], Event.nodeMarks⟩

/-- The number of an attempt that starts. -/
def Event.attempt? : Event → Option Nat
  | .attempted _ number => some number
  | _ => none

/-- The wait that follows a throttled attempt: before which retry, and how long. -/
def Event.wait? : Event → Option (Nat × Duration)
  | .throttled _ retry delay => some (retry, delay)
  | _ => none

theorem attempts_rounds (s : Settings) (spot : Spot) (n : Nat) :
    (rounds s spot n).filterMap (·.attempt?) = List.range' 1 n := by
  induction n with
  | zero => rfl
  | succ n ih =>
    rw [rounds_succ, List.filterMap_append, ih, List.range'_1_concat, Nat.add_comm 1 n]
    rfl

theorem waits_rounds (s : Settings) (spot : Spot) (n : Nat) :
    (rounds s spot n).filterMap (·.wait?) =
      (List.range' 1 n).map fun i => (i, s.backoff.delay i) := by
  induction n with
  | zero => rfl
  | succ n ih =>
    rw [rounds_succ, List.filterMap_append, ih, List.range'_1_concat, List.map_append,
      Nat.add_comm 1 n]
    rfl

theorem entries_rounds (s : Settings) (spot : Spot) (n : Nat) :
    (rounds s spot n).filterMap Event.entry? =
      (List.range' 1 n).map fun i => warning spot i (s.backoff.delay i) := by
  induction n with
  | zero => rfl
  | succ n ih =>
    rw [rounds_succ, List.filterMap_append, ih, List.range'_1_concat, List.map_append,
      Nat.add_comm 1 n]
    rfl

theorem resolutions_rounds (s : Settings) (spot : Spot) (n : Nat) :
    (rounds s spot n).filterMap (·.resolution?) = [] := by
  induction n with
  | zero => rfl
  | succ n ih => rw [rounds_succ, List.filterMap_append, ih]; rfl

theorem countP_rounds (s : Settings) (spot : Spot) (n : Nat) (c : Counter) :
    (rounds s spot n).countP (·.counts c) = if c = .retryOp then n else 0 := by
  induction n with
  | zero => simp [rounds]
  | succ n ih =>
    rw [rounds_succ, List.countP_append, ih]
    cases c <;> rfl

theorem countP_isAttempt_rounds (s : Settings) (spot : Spot) (n : Nat) :
    (rounds s spot n).countP (·.isAttempt) = n := by
  induction n with
  | zero => rfl
  | succ n ih => rw [rounds_succ, List.countP_append, ih]; rfl

theorem Visit.countP_isAttempt (s : Settings) (spot : Spot) (v : Visit) :
    (v.events s spot).countP (·.isAttempt) = v.retries + 1 := by
  rw [Visit.events, List.countP_append, countP_isAttempt_rounds]
  cases v.closing <;> rfl

/-- What a worker does at a node whose attempts give these results, if the attempt number `k`
is the last one: which attempts it makes, how long it waits between them, what it writes to
the log and what it counts, and how the node ends. -/
structure Resolved (s : Settings) (spot : Spot) (result : Nat → Except JobError Unit) (k : Nat)
    (events : List Event) : Prop where
  course : events = trial s spot result k
  attempts : events.filterMap (·.attempt?) = List.range' 1 k
  waits : events.filterMap (·.wait?) =
    (List.range' 1 (k - 1)).map fun i => (i, s.backoff.delay i)
  /-- The warnings, and then the one entry that tells the end. -/
  entries : ∃ last : Log.Entry, events.filterMap Event.entry? =
      ((List.range' 1 (k - 1)).map fun i => warning spot i (s.backoff.delay i)) ++ [last] ∧
    last.level = if (result k).isOk then .info else .error
  retryOp : events.countP (·.counts .retryOp) = k - 1
  success : events.countP (·.counts .success) = (result k).isOk.toNat
  fail : events.countP (·.counts .fail) = (!(result k).isOk).toNat
  storageOp : events.countP (·.counts .storageOp) = 0
  fileOp : events.countP (·.counts .fileOp) = 0
  outcome : events.filterMap (·.resolution?) =
    [(spot, if (result k).isOk then .succeeded else .failed)]

theorem resolved_trial (s : Settings) (spot : Spot) (result : Nat → Except JobError Unit)
    {k : Nat} (positive : 0 < k) : Resolved s spot result k (trial s spot result k) := by
  have numbers : List.range' 1 k = List.range' 1 (k - 1) ++ [k] := by
    obtain ⟨n, rfl⟩ := Nat.exists_eq_add_one_of_ne_zero (Nat.ne_of_gt positive)
    rw [List.range'_1_concat, Nat.add_comm 1 n, Nat.add_sub_cancel]
  have counts : ∀ c, (trial s spot result k).countP (·.counts c) =
      (if c = .retryOp then k - 1 else 0) +
        [Event.attempted spot k, verdict spot (k - 1) (result k)].countP (·.counts c) := by
    intro c
    rw [trial, List.countP_append, countP_rounds]
  refine ⟨rfl, ?_, ?_, ?_, ?_, ?_, ?_, ?_, ?_, ?_⟩
  · rw [trial, List.filterMap_append, attempts_rounds, numbers]
    cases result k <;> rfl
  · rw [trial, List.filterMap_append, waits_rounds]
    cases result k <;> exact List.append_nil _
  · rw [trial, List.filterMap_append, entries_rounds]
    cases result k <;> exact ⟨_, rfl, rfl⟩
  · rw [counts]; cases result k <;> rfl
  · rw [counts]; cases result k <;> rfl
  · rw [counts]; cases result k <;> rfl
  · rw [counts]; cases result k <;> rfl
  · rw [counts]; cases result k <;> rfl
  · rw [trial, List.filterMap_append, resolutions_rounds]
    cases result k <;> rfl

end CommandPool.Pool
