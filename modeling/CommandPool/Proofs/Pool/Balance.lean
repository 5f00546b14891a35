import CommandPool.Proofs.Pool.Advance
import CommandPool.Proofs.Pool.Feeders
import CommandPool.Proofs.Pool.Tally

/-!
# The counters balance

The counters of a pool are tied to what its workers have done: every attempt is the first
of its node or follows a wait that was counted, and every node that was started is
counted as a success or a failure, took its worker down or is still in progress.

The totals of one job follow from its course.  A history is a shuffle of those of its
jobs, and its totals are the sums of theirs.
-/

namespace CommandPool.Pool

variable {α : Type} {p : Pool α}

/-! ## Totals of a pool -/

/-- The event starts a node of the given kind. -/
def Event.isFirstOf (e : Event) (kind : Nat → Nat → Bool) : Bool :=
  e.isFirst && e.spot?.any fun spot => kind spot.ticket spot.node

/-- The attempts that were started. -/
def attempts (p : Pool α) : Nat := p.history.countP (·.isAttempt)

/-- The nodes that were started. -/
def startedNodes (p : Pool α) : Nat := p.history.countP (·.isFirst)

/-- The nodes whose wait is over and counted, and that were not attempted again yet. -/
def dueNodes (p : Pool α) : Nat := p.history.countP (·.isFirstOf (isDue p.history))

/-- Nothing has closed the node yet. -/
def isUnclosed (events : List Event) (ticket node : Nat) : Bool :=
  countAt Event.closes events ticket node == 0

/-- The nodes in progress: they were started, and have neither succeeded nor failed nor
taken their worker down. -/
def openNodes (p : Pool α) : Nat := p.history.countP (·.isFirstOf (isUnclosed p.history))

/-- The nodes that took their worker down. -/
def panics (p : Pool α) : Nat := p.history.countP (·.isPanic)

/-- The lines that were no command. -/
def rejections (p : Pool α) : Nat := p.history.countP (·.isRejection)

/-- Lines are counted as rejected by the piece that rejects them. -/
theorem rejections_stepPiece {p' : Pool α} {l : Piece α} (step : p.stepPiece l = some p') :
    p'.rejections = p.rejections + l.rejects.toNat := by
  obtain ⟨new, adds, notes⟩ := adds_stepPiece step
  rw [rejections, adds.history, List.countP_append, notes.countP_isRejection, rejections]
  exact Nat.add_comm _ _

/-! ## Totals of one job -/

section Course

variable {s : Settings} {w : Nat} {first : Task α} {events : List Event} {stage : Stage α}

theorem Stage.isOpen_of_isDue (stage : Stage α) (due : stage.isDue = true) :
    stage.isOpen = true := by
  cases stage <;> first | exact due | rfl

/-- A node that was started is closed, or it is the open one. -/
theorem Accounts.unclosed {ticket node : Nat} (accounts : Accounts events stage ticket node)
    (started : 0 < countAt Event.isFirst events ticket node) :
    (countAt Event.closes events ticket node == 0) = (stage.isOpen && stage.isAt node) := by
  have once := accounts.once
  have opened := accounts.opened
  cases here : stage.isOpen && stage.isAt node with
  | false =>
    rw [here, Bool.toNat_false] at opened
    exact beq_eq_false_iff_ne.mpr (by omega)
  | true =>
    rw [here, Bool.toNat_true] at once
    exact beq_iff_eq.mpr (by omega)

/-- The totals of a job at a stage: its attempts are those of the nodes started and one
after each wait, but for one that is due, and its nodes are closed, but for one that is
open. -/
structure Totals (events : List Event) (stage : Stage α) : Prop where
  attempts : events.countP (·.isAttempt) + stage.isDue.toNat =
    events.countP (·.isFirst) + events.countP (·.isWaited)
  opened : events.countP (·.isFirst) = events.countP (·.closes) + stage.isOpen.toNat

/-- One more event of a job. -/
theorem countP_cons_toNat (kind : Event → Bool) (e : Event) (events : List Event) :
    (e :: events).countP kind = events.countP kind + (kind e).toNat := by
  cases counted : kind e <;> simp [counted]

theorem Totals.close {e : Event} {onward : Stage α} (totals : Totals events stage)
    (isOpen : stage.isOpen = true) (notDue : stage.isDue = false) (closes : e.closes = true)
    (stands : onward.isOpen = false ∧ onward.isDue = false) : Totals (e :: events) onward := by
  obtain ⟨notFirst, notAttempt, notWaited⟩ := Event.kinds_of_closes closes
  obtain ⟨attempts, opened⟩ := totals
  rw [notDue] at attempts
  rw [isOpen] at opened
  constructor <;> simp only [countP_cons_toNat, notFirst, notAttempt, notWaited, closes, stands,
    Bool.toNat_false, Bool.toNat_true, Nat.add_zero]
  · exact attempts
  · exact opened

theorem Totals.throttle {t : Task α} {spot : Spot} {retry : Nat} {delay : Duration}
    (totals : Totals events (.attempting t)) (error : JobError) (delay' : Duration) :
    Totals (.throttled spot retry delay :: events) (.sleeping t.retry error delay') :=
  ⟨totals.attempts, totals.opened⟩

theorem Totals.attempt {t : Task α} (totals : Totals events (.ready t)) :
    Totals (.attempted (t.spot w) (t.retries + 1) :: events) (.attempting t) := by
  obtain ⟨attempts, opened⟩ := totals
  have attempted : (Event.attempted (t.spot w) (t.retries + 1)).isAttempt = true := rfl
  have notWaited : (Event.attempted (t.spot w) (t.retries + 1)).isWaited = false := rfl
  have notClosing : (Event.attempted (t.spot w) (t.retries + 1)).closes = false := rfl
  by_cases fresh : t.retries = 0
  · have isFirst : (Event.attempted (t.spot w) (t.retries + 1)).isFirst = true := by
      simp [Event.isFirst, fresh]
    simp only [Stage.isDue, Stage.isOpen, fresh, bne_self_eq_false, Bool.toNat_false]
      at attempts opened
    constructor <;> simp only [countP_cons_toNat, attempted, notWaited, notClosing, isFirst,
      Stage.isDue, Stage.isOpen, Bool.toNat_true, Bool.toNat_false] <;> omega
  · have notFirst : (Event.attempted (t.spot w) (t.retries + 1)).isFirst = false := by
      simp [Event.isFirst, fresh]
    have again : (t.retries != 0) = true := by simpa using fresh
    simp only [Stage.isDue, Stage.isOpen, again, Bool.toNat_true] at attempts opened
    constructor <;> simp only [countP_cons_toNat, attempted, notWaited, notClosing, notFirst,
      Stage.isDue, Stage.isOpen, Bool.toNat_true, Bool.toNat_false] <;> omega

theorem Totals.wait {t : Task α} {error : JobError} {delay : Duration} {spot : Spot}
    (totals : Totals events (.sleeping t error delay)) (again : 0 < t.retries) :
    Totals (.waited spot :: events) (.ready t) := by
  obtain ⟨attempts, opened⟩ := totals
  have notAttempt : (Event.waited spot).isAttempt = false := rfl
  have notFirst : (Event.waited spot).isFirst = false := rfl
  have waited : (Event.waited spot).isWaited = true := rfl
  have notClosing : (Event.waited spot).closes = false := rfl
  have retried : (t.retries != 0) = true := by simpa using Nat.ne_of_gt again
  simp only [Stage.isDue, Stage.isOpen, Bool.toNat_true, Bool.toNat_false] at attempts opened
  constructor <;> simp only [countP_cons_toNat, notAttempt, notFirst, waited, notClosing,
    Stage.isDue, Stage.isOpen, retried, Bool.toNat_true, Bool.toNat_false] <;> omega

/-- At every stage the totals of a job are in order. -/
theorem Follows.totals (follows : Follows s w first events stage) (unused : first.retries = 0) :
    Totals events stage := by
  induction follows with
  | begin => constructor <;> simp [Stage.isDue, Stage.isOpen, unused]
  | move before move ih =>
    have onward (t : Task α) (outcome : Outcome) :
        (t.onward outcome).isOpen = false ∧ (t.onward outcome).isDue = false :=
      ⟨(t.onward_stands outcome 0).1, (t.onward_stands outcome 0).2.1⟩
    cases move with
    | attempt t => exact ih.attempt
    | succeed t => exact ih.close rfl rfl rfl (onward t .succeeded)
    | fail t error => exact ih.close rfl rfl rfl (onward t .failed)
    | throttle t error => exact ih.throttle error _
    | cut t error => exact (ih.throttle error ⟨0⟩).close rfl rfl rfl (onward _ .failed)
    | wait t error delay => exact ih.wait (before.retries_pos rfl)
    | interrupt t error delay => exact ih.close rfl rfl rfl (onward _ .failed)
    | panic t => exact ih.close rfl rfl rfl ⟨rfl, rfl⟩

/-- If a kind of nodes has among the nodes of a job that were started at most the open one,
it has one when the job is at an open node of that kind, and else none. -/
theorem Follows.countP_isFirstOf (follows : Follows s w first events stage)
    (unused : first.retries = 0) {kind : Nat → Nat → Bool} {flag : Bool}
    (isOpen : flag = true → stage.isOpen = true)
    (only : ∀ node, 0 < countAt Event.isFirst events first.ticket node →
      kind first.ticket node = (flag && stage.isAt node)) :
    events.countP (·.isFirstOf kind) = flag.toNat := by
  have started : ∀ e ∈ events, ∀ spot, e.isFirst = true → e.spot? = some spot →
      spot.ticket = first.ticket ∧ kind spot.ticket spot.node = (flag && stage.isAt spot.node) := by
    intro e member spot isFirst about
    obtain ⟨same, here, ticket, _⟩ := follows.ticket.2 e member
    cases about.symm.trans here
    refine ⟨ticket, ?_⟩
    rw [ticket]
    refine only spot.node (List.countP_pos_iff.mpr ⟨e, member, ?_⟩)
    simp [isFirst, Event.isAt, about, ticket]
  cases flag with
  | false =>
    refine List.countP_eq_zero.mpr fun e member counted => ?_
    obtain ⟨isFirst, of_kind⟩ := (Bool.and_eq_true _ _).mp counted
    obtain ⟨spot, about, of_kind⟩ := (Option.any_eq_true _ _).mp of_kind
    rw [(started e member spot isFirst about).2] at of_kind
    cases of_kind
  | true =>
    have opened := isOpen rfl
    obtain ⟨t, task⟩ : ∃ t, stage.task? = some t := by
      cases stage <;> first | exact ⟨_, rfl⟩ | cases opened
    obtain ⟨closed, once, _, _, _⟩ := follows.accounts unused t.node
    have here : stage.isAt t.node = true := by simp [Stage.isAt, task]
    have before : stage.isBefore t.node = true := by simp [Stage.isBefore, task]
    rw [before, Bool.toNat_true] at closed
    rw [opened, here, Bool.and_self, Bool.toNat_true] at once
    have same : events.countP (·.isFirstOf kind) =
        countAt Event.isFirst events first.ticket t.node := by
      refine List.countP_congr fun e member => ?_
      rw [Event.isFirstOf, Bool.and_eq_true, Bool.and_eq_true]
      refine and_congr_right fun isFirst => ?_
      cases about : e.spot? with
      | none => simp [Event.isAt, about]
      | some spot =>
        obtain ⟨ticket, of_kind⟩ := started e member spot isFirst about
        rw [Option.any_some, of_kind, Event.isAt, about, Option.any_some, ticket, Stage.isAt, task,
          Option.any_some, beq_self_eq_true, Bool.true_and, Bool.true_and, BEq.comm]
    rw [same, Bool.toNat_true]
    omega

end Course

/-! ## Totals of a history -/

/-- The event is about a job of a smaller ticket. -/
def Event.isBelow (e : Event) (ticket : Nat) : Bool := e.spot?.any (·.ticket < ticket)

/-- The events of a kind about the jobs up to one are those about the jobs before it and
those about itself. -/
theorem countP_below_succ (kind : Event → Bool) (history : List Event) (ticket : Nat) :
    history.countP (fun e => kind e && e.isBelow (ticket + 1)) =
      history.countP (fun e => kind e && e.isBelow ticket) +
        (eventsOf history ticket).countP kind := by
  rw [eventsOf, List.countP_filter]
  induction history with
  | nil => rfl
  | cons e history ih =>
    have split : (kind e && e.isBelow (ticket + 1)).toNat =
        (kind e && e.isBelow ticket).toNat + (kind e && e.isAbout ticket).toNat := by
      cases kind e with
      | false => rfl
      | true =>
        simp only [Event.isBelow, Event.isAbout, Bool.true_and]
        cases e.spot? with
        | none => rfl
        | some spot =>
          simp only [Option.any_some]
          rcases Nat.lt_trichotomy spot.ticket ticket with before | same | after
          · rw [decide_eq_true before, decide_eq_true (Nat.lt_succ_of_lt before),
              beq_eq_false_iff_ne.mpr (Nat.ne_of_lt before)]
            rfl
          · rw [decide_eq_true (Nat.lt_succ_of_le (Nat.le_of_eq same)),
              decide_eq_false (Nat.not_lt.mpr (Nat.le_of_eq same.symm)), beq_iff_eq.mpr same]
            rfl
          · rw [decide_eq_false (Nat.not_lt.mpr (Nat.succ_le_of_lt after)),
              decide_eq_false (Nat.not_lt.mpr (Nat.le_of_lt after)),
              beq_eq_false_iff_ne.mpr (Nat.ne_of_gt after)]
            rfl
    rw [countP_cons_toNat, countP_cons_toNat, countP_cons_toNat, split, ih]
    omega

theorem exists_isBelow (history : List Event) :
    ∃ ticket, ∀ e ∈ history, ∀ spot, e.spot? = some spot → e.isBelow ticket = true := by
  induction history with
  | nil => exact ⟨0, by simp⟩
  | cons e history ih =>
    obtain ⟨ticket, below⟩ := ih
    have enough : ∀ (e : Event) (m n : Nat), m ≤ n → e.isBelow m = true → e.isBelow n = true := by
      intro e m n less before
      obtain ⟨spot, about, inside⟩ := (Option.any_eq_true _ _).mp before
      refine (Option.any_eq_true _ _).mpr ⟨spot, about, ?_⟩
      exact decide_eq_true (Nat.lt_of_lt_of_le (of_decide_eq_true inside) less)
    cases first : e.spot? with
    | none =>
      refine ⟨ticket, List.forall_mem_cons.mpr ⟨fun spot about => ?_, below⟩⟩
      cases first.symm.trans about
    | some spot =>
      refine ⟨max ticket (spot.ticket + 1), List.forall_mem_cons.mpr ⟨fun spot' about => ?_, ?_⟩⟩
      · refine (Option.any_eq_true _ _).mpr ⟨spot, first, decide_eq_true ?_⟩
        exact Nat.lt_of_lt_of_le (Nat.lt_succ_self _) (Nat.le_max_right _ _)
      · exact fun e member spot' about =>
          enough e _ _ (Nat.le_max_left _ _) (below e member spot' about)

/-- Events of the kind are about a node. -/
def IsSpotted (kind : Event → Bool) : Prop :=
  ∀ e, kind e = true → ∃ spot, e.spot? = some spot

theorem isSpotted_isAttempt : IsSpotted (·.isAttempt) := by
  rintro e kind
  cases e <;> first | exact ⟨_, rfl⟩ | cases kind

theorem isSpotted_isFirst : IsSpotted (·.isFirst) := by
  rintro e kind
  cases e <;> first | exact ⟨_, rfl⟩ | cases kind

theorem isSpotted_isFirstOf (nodes : Nat → Nat → Bool) : IsSpotted (·.isFirstOf nodes) :=
  fun e kind => isSpotted_isFirst e ((Bool.and_eq_true _ _).mp kind).1

theorem isSpotted_isWaited : IsSpotted (·.isWaited) := by
  rintro e kind
  cases e <;> first | exact ⟨_, rfl⟩ | cases kind

theorem isSpotted_none : IsSpotted fun _ => false := by
  rintro e kind
  cases kind

theorem isSpotted_closes : IsSpotted (·.closes) := by
  rintro e kind
  cases e <;> first | exact ⟨_, rfl⟩ | cases kind

theorem countP_isBelow {history : List Event} {kind : Event → Bool} {ticket : Nat}
    (spotted : IsSpotted kind)
    (all : ∀ e ∈ history, ∀ spot, e.spot? = some spot → e.isBelow ticket = true) :
    history.countP (fun e => kind e && e.isBelow ticket) = history.countP kind := by
  refine List.countP_congr fun e member => ?_
  rw [Bool.and_eq_true]
  refine and_iff_left_of_imp fun counted => ?_
  obtain ⟨spot, here⟩ := spotted e counted
  exact all e member spot here

/-- What holds of the counts of every job holds of the counts of the history. -/
theorem countP_of_jobs {history : List Event} {a b c d : Event → Bool}
    (jobs : ∀ ticket, (eventsOf history ticket).countP a + (eventsOf history ticket).countP b =
      (eventsOf history ticket).countP c + (eventsOf history ticket).countP d)
    (a_spotted : IsSpotted a) (b_spotted : IsSpotted b) (c_spotted : IsSpotted c)
    (d_spotted : IsSpotted d) :
    history.countP a + history.countP b = history.countP c + history.countP d := by
  have below : ∀ ticket,
      history.countP (fun e => a e && e.isBelow ticket) +
          history.countP (fun e => b e && e.isBelow ticket) =
        history.countP (fun e => c e && e.isBelow ticket) +
          history.countP (fun e => d e && e.isBelow ticket) := by
    intro ticket
    induction ticket with
    | zero => simp [Event.isBelow]
    | succ ticket ih =>
      have job := jobs ticket
      simp only [countP_below_succ]
      omega
  obtain ⟨ticket, all⟩ := exists_isBelow history
  have total := below ticket
  rwa [countP_isBelow a_spotted all, countP_isBelow b_spotted all, countP_isBelow c_spotted all,
    countP_isBelow d_spotted all] at total

/-! ## Totals of a pool -/

theorem isDue_eventsOf (history : List Event) (ticket node : Nat) :
    isDue (eventsOf history ticket) ticket node = isDue history ticket node := by
  have same : (fun e : Event => decide (e.isAbout ticket = true ∧ e.isAt ticket node = true)) =
      fun e => e.isAt ticket node := by
    funext e
    cases at_node : e.isAt ticket node with
    | false => simp
    | true => simp [about_of_isAt at_node]
  rw [isDue, isDue, eventsOf, List.find?_filter, same]

/-- A job has a node that is due when its stage says so, and else none, and likewise a
node in progress. -/
theorem Heard.nodes {ticket w : Nat} {s : Send (Job α)} {stage : Stage α}
    (heard : p.Heard ticket w s stage) :
    (eventsOf p.history ticket).countP (·.isFirstOf (isDue p.history)) = stage.isDue.toNat ∧
      (eventsOf p.history ticket).countP (·.isFirstOf (isUnclosed p.history)) =
        stage.isOpen.toNat := by
  have accounts := heard.follows.accounts rfl
  constructor
  · refine heard.follows.countP_isFirstOf rfl stage.isOpen_of_isDue fun node _ => ?_
    exact (isDue_eventsOf p.history ticket node).symm.trans (accounts node).due
  · refine heard.follows.countP_isFirstOf rfl id fun node started => ?_
    rw [isUnclosed, ← countAt_eventsOf]
    exact (accounts node).unclosed started

theorem Chronicle.attempts_eq (chronicle : Chronicle p) :
    p.attempts + p.dueNodes = p.startedNodes + p.history.countP (·.isWaited) := by
  refine countP_of_jobs (fun ticket => ?_) isSpotted_isAttempt (isSpotted_isFirstOf _)
    isSpotted_isFirst isSpotted_isWaited
  by_cases got : p.queue.Got ticket
  · obtain ⟨w, s, stage, heard⟩ := chronicle.heard ticket got
    rw [heard.nodes.1]
    exact (heard.follows.totals rfl).attempts
  · rw [(chronicle.silent ticket got).events]
    rfl

theorem countP_none (events : List Event) : events.countP (fun _ => false) = 0 :=
  List.countP_eq_zero.mpr (by simp)

theorem Chronicle.startedNodes_eq (chronicle : Chronicle p) :
    p.startedNodes = p.history.countP (·.closes) + p.openNodes := by
  have total : p.startedNodes + p.history.countP (fun _ => false) =
      p.history.countP (·.closes) + p.openNodes := by
    refine countP_of_jobs (fun ticket => ?_) isSpotted_isFirst isSpotted_none isSpotted_closes
      (isSpotted_isFirstOf _)
    by_cases got : p.queue.Got ticket
    · obtain ⟨w, s, stage, heard⟩ := chronicle.heard ticket got
      rw [heard.nodes.2, countP_none]
      exact (heard.follows.totals rfl).opened
    · rw [(chronicle.silent ticket got).events]
      rfl
  rwa [countP_none, Nat.add_zero] at total

/-- When the client has waited for all workers, no node is due and none is open. -/
theorem Chronicle.nodes_of_isJoined (chronicle : Chronicle p) (joined : p.isJoined = true) :
    p.dueNodes = 0 ∧ p.openNodes = 0 := by
  have total : p.dueNodes + p.openNodes =
      p.history.countP (fun _ => false) + p.history.countP (fun _ => false) := by
    refine countP_of_jobs (fun ticket => ?_) (isSpotted_isFirstOf _) (isSpotted_isFirstOf _)
      isSpotted_none isSpotted_none
    rw [countP_none]
    by_cases got : p.queue.Got ticket
    · obtain ⟨w, s, stage, heard⟩ := chronicle.heard ticket got
      rw [heard.nodes.1, heard.nodes.2]
      rcases heard.ended_of_isJoined chronicle joined with rfl | ⟨interrupted, rfl⟩ <;> rfl
    · rw [(chronicle.silent ticket got).events]
      rfl
  rw [countP_none] at total
  omega

/-! ## The counters -/

theorem countP_fail (events : List Event) : events.countP (·.counts .fail) =
    events.countP (·.isFailure) + events.countP (·.isRejection) := by
  induction events with
  | nil => rfl
  | cons e events ih =>
    have split : (e.counts .fail).toNat = e.isFailure.toNat + e.isRejection.toNat := by
      cases e <;> rfl
    rw [countP_cons_toNat, countP_cons_toNat, countP_cons_toNat, ih, split]
    omega

/-- The counters of nodes and lines, in terms of the history. -/
theorem Tallied.counters (tallied : Tallied p) :
    p.counters.success = p.history.countP (·.isSuccess) ∧
      p.counters.fail = p.history.countP (·.isFailure) + p.rejections ∧
      p.counters.retryOp = p.history.countP (·.isWaited) := by
  have success : ∀ e : Event, e.counts .success = e.isSuccess := by rintro (_ | _) <;> rfl
  have waited : ∀ e : Event, e.counts .retryOp = e.isWaited := by rintro (_ | _) <;> rfl
  refine ⟨(tallied .success rfl).trans ?_, (tallied .fail rfl).trans (countP_fail _),
    (tallied .retryOp rfl).trans ?_⟩
  · simp only [success]
  · simp only [waited]

/-- The counters balance with what was started. -/
structure Balanced (p : Pool α) : Prop where
  /-- Each attempt is the first one of its node or follows a counted wait. -/
  attempts : p.attempts + p.dueNodes = p.startedNodes + p.counters.retryOp
  /-- Each node that was started, and each rejected line, has one place. -/
  nodes : p.startedNodes + p.rejections =
    p.counters.success + p.counters.fail + p.openNodes + p.panics
  /-- A node that was attempted was started once. -/
  once : ∀ ticket node, countAt Event.isFirst p.history ticket node =
    if countAt Event.isAttempt p.history ticket node = 0 then 0 else 1

/-- The counters after the client has waited for all workers. -/
structure Settled (p : Pool α) : Prop where
  attempts : p.attempts = p.startedNodes + p.counters.retryOp
  rejections : p.rejections ≤ p.counters.fail
  nodes : p.startedNodes = p.counters.success + (p.counters.fail - p.rejections) + p.panics

theorem Chronicle.started_iff (chronicle : Chronicle p) (ticket node : Nat) :
    countAt Event.isFirst p.history ticket node =
      if countAt Event.isAttempt p.history ticket node = 0 then 0 else 1 := by
  have once := (chronicle.once ticket node).2
  have attempted : countAt Event.isFirst p.history ticket node ≤
      countAt Event.isAttempt p.history ticket node := by
    refine List.countP_mono_left fun e _ counted => ?_
    obtain ⟨isFirst, at_node⟩ := (Bool.and_eq_true _ _).mp counted
    refine (Bool.and_eq_true _ _).mpr ⟨?_, at_node⟩
    cases e <;> first | rfl | cases isFirst
  split
  next none => omega
  next some_attempt =>
    have started : 0 < countAt Event.isFirst p.history ticket node := by
      rw [← countAt_eventsOf] at some_attempt ⊢
      by_cases got : p.queue.Got ticket
      · obtain ⟨w, s, stage, heard⟩ := chronicle.heard ticket got
        exact (heard.follows.accounts rfl node).started (Nat.pos_of_ne_zero some_attempt)
      · rw [(chronicle.silent ticket got).events] at some_attempt
        exact absurd rfl some_attempt
    omega

theorem Chronicle.balanced (chronicle : Chronicle p) (tallied : Tallied p) : Balanced p := by
  obtain ⟨success, fail, retryOp⟩ := tallied.counters
  have nodes := chronicle.startedNodes_eq
  rw [countP_closes] at nodes
  refine ⟨?_, ?_, chronicle.started_iff⟩
  · rw [retryOp]
    exact chronicle.attempts_eq
  · rw [success, fail, nodes, panics]
    omega

theorem Balanced.settled (balanced : Balanced p) (chronicle : Chronicle p) (tallied : Tallied p)
    (joined : p.isJoined = true) : Settled p := by
  obtain ⟨attempts, nodes, _⟩ := balanced
  obtain ⟨due, opened⟩ := chronicle.nodes_of_isJoined joined
  obtain ⟨_, fail, _⟩ := tallied.counters
  constructor <;> omega

/-- In every state of a pool that has opened, while clients and a feeder use it, the
counters balance, however everything overlaps.  They are settled when the client has
waited for all workers. -/
theorem counters_balance {ρ : Type} {s : Settings} {build : Nat → Except (List String) ρ}
    {cancelled : Bool} {p₀ : Pool α} {parse : Parse α} {feeder : Feeder} {f : Fed α}
    {ls : List (Fed.Label α)} (opened : openWith s build cancelled = .ok p₀)
    (run : Fed.steps parse ⟨p₀, feeder⟩ ls = some f) :
    Balanced f.pool ∧ (f.pool.isJoined = true → Settled f.pool) := by
  obtain ⟨ms, run⟩ := pieces_of_steps run
  rw [openWith_eq_ok opened] at run
  have chronicle := (chronicle_pieces (chronicle_started s cancelled) run).1
  have tallied := tallied_pieces (tallied_started s cancelled) run
  have balanced := chronicle.balanced tallied
  exact ⟨balanced, balanced.settled chronicle tallied⟩

/-- One word is a command here, and no other line is. -/
def tryOnly : Parse Unit := fun text => if text = "try" then .ok tryFirst else .error .empty

/-- The bytes of `try` and `bad`, each on a line. -/
def tryThenBad : List UInt8 := [116, 114, 121, 10, 98, 97, 100, 10]

/-- A command and a line that is none arrive.  The first attempt of the command is throttled
and waited after. -/
def nagging : List (Fed.Label Unit) :=
  [.arrive tryThenBad, .inputEnds, .feed, .pool (.whole (.look 0)), .feed, .feed,
    .feed, .pool (.whole (.start 0)),
    .pool (.whole (.finish 0 (.plain (.error (.throttled "slow down"))))),
    .pool (.whole (.wake 0))]

/-- The command is tried again, and everything ends. -/
def resting : List (Fed.Label Unit) :=
  [.feed, .pool (.whole (.start 0)), .pool (.whole (.finish 0 (.plain (.ok ())))),
    .pool (.whole .beginJoin), .pool (.whole (.look 0)), .pool (.whole (.look 1)),
    .pool (.whole .join), .pool (.whole .join)]

theorem counters_balance_nagging :
    ∃ f f' : Fed Unit,
      Fed.steps tryOnly ⟨started pair false, .new (.stream .empty)⟩ nagging = some f ∧
      Balanced f.pool ∧ f.pool.attempts = 1 ∧ f.pool.dueNodes = 1 ∧ f.pool.startedNodes = 1 ∧
      f.pool.rejections = 1 ∧ f.pool.openNodes = 1 ∧ f.pool.counters = ⟨0, 1, 1, 0, 0⟩ ∧
      Fed.steps tryOnly ⟨started pair false, .new (.stream .empty)⟩ (nagging ++ resting) =
        some f' ∧
      f'.pool.isJoined = true ∧ Settled f'.pool ∧ f'.pool.attempts = 2 ∧
      f'.pool.counters = ⟨1, 1, 1, 0, 0⟩ := by
  have opened : openWith pair (fun _ => (.ok () : Except (List String) Unit)) false =
      .ok (started pair false : Pool Unit) := by
    rfl
  have nags : Fed.steps tryOnly ⟨started pair false, .new (.stream .empty)⟩ nagging = some _ := rfl
  have rests : Fed.steps tryOnly ⟨started pair false, .new (.stream .empty)⟩
      (nagging ++ resting) = some _ := rfl
  exact ⟨_, _, nags, (counters_balance opened nags).1, rfl, rfl, rfl, rfl, rfl, rfl, rests, rfl,
    (counters_balance opened rests).2 rfl, rfl, rfl⟩

end CommandPool.Pool
