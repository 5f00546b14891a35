import CommandPool.Proofs.Pool.Schedules
import CommandPool.Proofs.Pool.Visits

/-!
# Tours

The events of a job are those of a *tour*: of the visits to the nodes on one path of its tree,
one after another, and of what has happened so far at the node that the worker is at.  The
first visit is to the root, and the outcome of each picks the continuation that the next one
is to.

`Toured` is the invariant.  A move of the worker adds an event to what has happened at its
node, or closes the node: then the events there are those of a visit that fits the results of
the attempts, and the worker stands at the beginning of the next node.
-/

namespace CommandPool.Pool

variable {α : Type}

/-! ## Tours -/

/-- The visits lead along the chain: each is to the first node of what is left, and its outcome
picks what is left then.  In the end that is `rest`. -/
inductive Along : (chain : Chain α) → List Visit → (rest : Chain α) → Prop where
  | here (chain : Chain α) : Along chain [] chain
  | visit {job : Job α} {v : Visit} {visits : List Visit} {rest : Chain α} :
      v.label = job.label → Along (job.after v.closing.outcome) visits rest →
      Along job.toChain (v :: visits) rest

/-- What happens in visits to nodes of a job, from its node `n` on. -/
def tour (s : Settings) (w ticket : Nat) : (n : Nat) → List Visit → List Event
  | _, [] => []
  | n, v :: visits => v.events s ⟨w, ticket, n, v.label⟩ ++ tour s w ticket (n + 1) visits

/-- What the attempts of a job give, by the number of the node and that of the attempt at it. -/
abbrev Answers := Nat → Nat → Except JobError Unit

/-- In one of the visits a wait is cut short. -/
def isCutShort (visits : List Visit) : Bool := visits.any (·.closing.isCut)

variable {s : Settings} {w ticket node n : Nat} {answers : Answers} {cut cancelled : Bool}
  {chain rest : Chain α} {job : Job α} {v : Visit} {visits : List Visit} {a b stage : Stage α}
  {here new events : List Event} {t : Task α}

/-- One more visit, to the first node of what is left. -/
theorem Along.concat (along : Along chain visits rest) (left : rest = job.toChain)
    (label : v.label = job.label) :
    Along chain (visits ++ [v]) (job.after v.closing.outcome) := by
  induction along with
  | here =>
    subst left
    exact .visit label (.here _)
  | visit label' _ ih => exact .visit label' (ih left)

theorem isCutShort_concat (visits : List Visit) (v : Visit) :
    isCutShort (visits ++ [v]) = (isCutShort visits || v.closing.isCut) := by
  simp [isCutShort]

theorem isCutShort_concat_of_not (visits : List Visit) (uncut : v.closing.isCut = false) :
    isCutShort (visits ++ [v]) = isCutShort visits := by
  rw [isCutShort_concat, uncut, Bool.or_false]

theorem height_after (job : Job α) (outcome : Outcome) :
    (job.after outcome).height + 1 ≤ job.toChain.height := by
  show _ ≤ max job.onSuccess.height job.onFailure.height + 1
  cases outcome
  · exact Nat.succ_le_succ (Nat.le_max_left _ _)
  · exact Nat.succ_le_succ (Nat.le_max_right _ _)

/-- There are no more visits than nodes on a path. -/
theorem Along.length_add_height (along : Along chain visits rest) :
    visits.length + rest.height ≤ chain.height := by
  induction along with
  | here => exact Nat.le_of_eq (Nat.zero_add _)
  | @visit job v visits rest _ _ ih =>
    have shorter := height_after job v.closing.outcome
    rw [List.length_cons]
    omega

theorem tour_concat (n : Nat) : tour s w ticket n (visits ++ [v]) =
    tour s w ticket n visits ++ v.events s ⟨w, ticket, n + visits.length, v.label⟩ := by
  induction visits generalizing n with
  | nil => exact List.append_nil _
  | cons first visits ih =>
    rw [List.cons_append, tour, ih, tour, List.append_assoc, List.length_cons,
      Nat.add_right_comm, Nat.add_assoc]

theorem node_of_mem_tour {e : Event} (member : e ∈ tour s w ticket n visits) :
    ∃ spot, e.spot? = some spot ∧ n ≤ spot.node := by
  induction visits generalizing n with
  | nil => cases member
  | cons v visits ih =>
    rcases List.mem_append.mp member with first | later
    · exact ⟨_, Visit.spot?_of_mem first, Nat.le_refl n⟩
    · obtain ⟨spot, about, beyond⟩ := ih later
      exact ⟨spot, about, Nat.le_of_succ_le beyond⟩

/-- Events about another node are not at this one. -/
theorem filter_isAt_of_other {events : List Event}
    (others : ∀ e ∈ events, ∃ spot, e.spot? = some spot ∧ spot.node ≠ node) :
    events.filter (·.isAt ticket node) = [] := by
  refine List.filter_eq_nil_iff.mpr fun e member => ?_
  obtain ⟨spot, about, other⟩ := others e member
  simp [Event.isAt, about, other]

/-- Events about this node are at it. -/
theorem filter_isAt_of_same {events : List Event} {label : String}
    (same : ∀ e ∈ events, e.spot? = some ⟨w, ticket, node, label⟩) :
    events.filter (·.isAt ticket node) = events := by
  refine List.filter_eq_self.mpr fun e member => ?_
  simp [Event.isAt, same e member]

/-- What happens in a tour at one of its nodes is the visit to it. -/
theorem filter_tour (s : Settings) (w ticket : Nat) (visits : List Visit) (n i : Nat) :
    (tour s w ticket n visits).filter (·.isAt ticket (n + i)) =
    match visits[i]? with
    | some v => v.events s ⟨w, ticket, n + i, v.label⟩
    | none => [] := by
  induction visits generalizing n i with
  | nil => rfl
  | cons v visits ih =>
    rw [tour, List.filter_append]
    cases i with
    | zero =>
      have later : (tour s w ticket (n + 1) visits).filter (·.isAt ticket (n + 0)) = [] := by
        refine filter_isAt_of_other fun e member => ?_
        obtain ⟨spot, about, beyond⟩ := node_of_mem_tour member
        exact ⟨spot, about, by omega⟩
      rw [later, List.append_nil]
      exact filter_isAt_of_same fun e member => Visit.spot?_of_mem member
    | succ i =>
      have first : (v.events s ⟨w, ticket, n, v.label⟩).filter (·.isAt ticket (n + (i + 1))) =
          [] := by
        refine filter_isAt_of_other fun e member => ?_
        exact ⟨_, Visit.spot?_of_mem member, by simp only; omega⟩
      rw [first, List.nil_append, List.getElem?_cons_succ, ← Nat.add_assoc, Nat.add_right_comm]
      exact ih (n + 1) i

/-- Each visit of a tour has one attempt, and at most as many more as retries are allowed. -/
theorem attempts_tour {maxRetries : Nat} (few : ∀ v ∈ visits, v.retries ≤ maxRetries) (n : Nat) :
    (tour s w ticket n visits).countP (·.isAttempt) ≤ (maxRetries + 1) * visits.length := by
  induction visits generalizing n with
  | nil => exact Nat.zero_le _
  | cons v visits ih =>
    have first := few v List.mem_cons_self
    have later := ih (fun u member => few u (List.mem_cons_of_mem v member)) (n + 1)
    rw [tour, List.countP_append, Visit.countP_isAttempt, List.length_cons, Nat.mul_succ]
    omega

/-! ## Where a worker stands -/

/-- The worker is at this stage of the node with this number, with this chain ahead of it.
These events have happened there, the earliest first, and the attempts that are over have
given these answers. -/
inductive Stands (s : Settings) (w ticket : Nat) (answers : Answers) (node : Nat) (cut : Bool) :
    Chain α → List Event → Stage α → Prop where
  | ready (job : Job α) (retries : Nat) : Endures s.maxRetries (answers node) retries →
      Stands s w ticket answers node cut job.toChain
        (rounds s ⟨w, ticket, node, job.label⟩ retries) (.ready ⟨ticket, node, job, retries, cut⟩)
  | attempting (job : Job α) (retries : Nat) : Endures s.maxRetries (answers node) retries →
      Stands s w ticket answers node cut job.toChain
        (rounds s ⟨w, ticket, node, job.label⟩ retries ++
          [.attempted ⟨w, ticket, node, job.label⟩ (retries + 1)])
        (.attempting ⟨ticket, node, job, retries, cut⟩)
  | sleeping (job : Job α) (retries : Nat) (error : JobError) :
      Endures s.maxRetries (answers node) retries →
      answers node (retries + 1) = .error error → error.mayRetry retries s.maxRetries = true →
      Stands s w ticket answers node cut job.toChain
        (rounds s ⟨w, ticket, node, job.label⟩ retries ++
          [.attempted ⟨w, ticket, node, job.label⟩ (retries + 1),
            .throttled ⟨w, ticket, node, job.label⟩ (retries + 1) (s.backoff.delay (retries + 1))])
        (.sleeping ⟨ticket, node, job, retries + 1, cut⟩ error (s.backoff.delay (retries + 1)))
  | finished : Stands s w ticket answers node cut .done [] (.finished cut)

/-- What has happened to a job is a tour along its chain, up to where its worker stands. -/
structure Toured (s : Settings) (w ticket : Nat) (answers : Answers) (chain : Chain α)
    (visits : List Visit) (rest : Chain α) (here events : List Event) (stage : Stage α) :
    Prop where
  along : Along chain visits rest
  fits : ∀ i (v : Visit), visits[i]? = some v → v.Fits s.maxRetries (answers i)
  stands : Stands s w ticket answers visits.length (isCutShort visits) rest here stage
  /-- The history has the latest event first. -/
  course : events.reverse = tour s w ticket 0 visits ++ here

/-- A worker that goes on after a node stands at the beginning of what follows. -/
theorem stands_onward (s : Settings) (w : Nat) (answers : Answers) (t : Task α)
    (outcome : Outcome) : Stands s w t.ticket answers (t.node + 1) t.interrupted
      (t.job.after outcome) [] (t.onward outcome) := by
  unfold Task.onward
  cases t.job.after outcome with
  | done => exact .finished
  | node label action onSuccess onFailure =>
    exact .ready ⟨label, action, onSuccess, onFailure⟩ 0 (endures_zero _ _)

theorem toured_first (s : Settings) (w ticket : Nat) (answers : Answers) (job : Job α) :
    Toured s w ticket answers job.toChain [] job.toChain [] [] (.ready (.first ticket job)) where
  along := .here _
  fits := nofun
  stands := .ready job 0 (endures_zero _ _)
  course := rfl

/-- A worker that shows no stage of its job is done with it. -/
theorem Stands.finished_of_unseen
    (stands : Stands s w ticket answers node cut rest here stage) (unseen : stage.shown = none) :
    rest = .done ∧ here = [] ∧ stage = .finished cut := by
  cases stands with
  | finished => exact ⟨rfl, rfl, rfl⟩
  | _ => cases unseen

/-- At a node there is one attempt, and at most as many more as retries are allowed. -/
theorem Stands.attempts (stands : Stands s w ticket answers node cut rest here stage) :
    here.countP (·.isAttempt) ≤ (s.maxRetries + 1) * rest.height := by
  have tall : ∀ job : Job α, s.maxRetries + 1 ≤ (s.maxRetries + 1) * job.toChain.height :=
    fun job => Nat.le_mul_of_pos_right _ (Nat.succ_pos _)
  cases stands with
  | ready job retries endures =>
    rw [countP_isAttempt_rounds]
    exact Nat.le_trans (Nat.le_succ_of_le endures.retries_le) (tall job)
  | attempting job retries endures =>
    rw [List.countP_append, countP_isAttempt_rounds]
    exact Nat.le_trans (Nat.succ_le_succ endures.retries_le) (tall job)
  | sleeping job retries error endures =>
    rw [List.countP_append, countP_isAttempt_rounds]
    exact Nat.le_trans (Nat.succ_le_succ endures.retries_le) (tall job)
  | finished => exact Nat.zero_le _

/-- A tour has no more attempts than all retries at all nodes of one path allow. -/
theorem Toured.attempts (toured : Toured s w ticket answers chain visits rest here events stage) :
    events.countP (·.isAttempt) ≤ (s.maxRetries + 1) * chain.height := by
  have few : ∀ v ∈ visits, v.retries ≤ s.maxRetries := by
    intro v member
    obtain ⟨i, found⟩ := List.mem_iff_getElem?.mp member
    exact (toured.fits i v found).endured.retries_le
  rw [← List.countP_reverse, toured.course, List.countP_append]
  calc (tour s w ticket 0 visits).countP (·.isAttempt) + here.countP (·.isAttempt)
      ≤ (s.maxRetries + 1) * visits.length + (s.maxRetries + 1) * rest.height :=
        Nat.add_le_add (attempts_tour few 0) toured.stands.attempts
    _ = (s.maxRetries + 1) * (visits.length + rest.height) := (Nat.mul_add ..).symm
    _ ≤ (s.maxRetries + 1) * chain.height :=
        Nat.mul_le_mul_left _ toured.along.length_add_height

/-! ## How an attempt ends -/

/-- The end of an attempt with this result: its events, the latest first, and the stage that
it leads to. -/
def Task.close (t : Task α) (s : Settings) (w : Nat) (cancelled : Bool) :
    Except JobError Unit → List Event × Stage α
  | .ok _ => ([.succeeded (t.spot w)], t.onward .succeeded)
  | .error e =>
    let delay := s.backoff.delay t.retry.retries
    let throttled := Event.throttled (t.spot w) t.retry.retries delay
    if e.mayRetry t.retries s.maxRetries then
      if cancelled then
        ([.failed (t.spot w) t.retry.retries e, throttled], t.retry.cutShort.onward .failed)
      else ([throttled], .sleeping t.retry e delay)
    else ([.failed (t.spot w) t.retries e], t.onward .failed)

theorem Task.move_close (t : Task α) (s : Settings) (w : Nat) (cancelled : Bool)
    (r : Except JobError Unit) : Move s w cancelled (.attempting t)
      (t.close s w cancelled r).1 (t.close s w cancelled r).2 := by
  cases r with
  | ok => exact .succeed t
  | error e =>
    simp only [Task.close]
    by_cases again : e.mayRetry t.retries s.maxRetries = true
    · rw [if_pos again]
      cases cancelled with
      | true => exact .cut t e again rfl
      | false => exact .throttle t e again rfl
    · rw [if_neg again]
      exact .fail t e (eq_false_of_ne_true again)

/-- An attempt at this stage ends as the answers say. -/
def Heeds (answers : Answers) (s : Settings) (w : Nat) (cancelled : Bool) (a : Stage α)
    (new : List Event) (b : Stage α) : Prop :=
  ∀ t, a = .attempting t → (new, b) = t.close s w cancelled (answers t.node (t.retries + 1))

/-! ## Moves -/

/-- A move adds to what has happened at the node. -/
theorem Toured.stay {here' : List Event}
    (toured : Toured s w ticket answers chain visits rest here events a)
    (stands : Stands s w ticket answers visits.length (isCutShort visits) rest here' b)
    (grows : here' = here ++ new.reverse) :
    Toured s w ticket answers chain visits rest here' (new ++ events) b where
  along := toured.along
  fits := toured.fits
  stands := stands
  course := by rw [List.reverse_append, toured.course, grows, List.append_assoc]

/-- A move closes the node. -/
theorem Toured.close {retries : Nat} {interrupted : Bool}
    (toured : Toured s w ticket answers chain visits job.toChain here events a)
    (label : v.label = job.label) (fits : v.Fits s.maxRetries (answers visits.length))
    (whole : here ++ new.reverse = v.events s ⟨w, ticket, visits.length, job.label⟩)
    (cut : (isCutShort visits || v.closing.isCut) = interrupted) :
    Toured s w ticket answers chain (visits ++ [v]) (job.after v.closing.outcome) []
      (new ++ events)
      (Task.onward ⟨ticket, visits.length, job, retries, interrupted⟩ v.closing.outcome) where
  along := toured.along.concat rfl label
  fits := by
    intro i u found
    rcases Nat.lt_trichotomy i visits.length with earlier | rfl | beyond
    · rw [List.getElem?_append_left earlier] at found
      exact toured.fits i u found
    · rw [List.getElem?_concat_length] at found
      cases found
      exact fits
    · rw [List.getElem?_eq_none] at found
      · cases found
      · rw [List.length_append, List.length_singleton]
        exact beyond
  stands := by
    rw [isCutShort_concat, cut, List.length_append]
    exact stands_onward s w answers ⟨ticket, visits.length, job, retries, interrupted⟩ _
  course := by
    rw [List.reverse_append, toured.course, List.append_assoc, whole, tour_concat, label,
      Nat.zero_add, List.append_nil]

/-- What a move preserves.  It closes a node by a wait that is cut short only if the run is
cancelled. -/
theorem Toured.move (toured : Toured s w ticket answers chain visits rest here events a)
    (move : Move s w cancelled a new b) (heeds : Heeds answers s w cancelled a new b) :
    ∃ visits' rest' here',
      Toured s w ticket answers chain visits' rest' here' (new ++ events) b ∧
      (isCutShort visits' = true →
        isCutShort visits = true ∨ cancelled = true) := by
  have stands := toured.stands
  cases stands with
  | ready job retries endures =>
    cases move with
    | attempt => exact ⟨_, _, _, toured.stay (.attempting job retries endures) rfl, Or.inl⟩
  | sleeping job retries error endures answer again =>
    cases move with
    | wait =>
      refine ⟨_, _, _, toured.stay (.ready job (retries + 1) (endures.succ answer again)) ?_,
        Or.inl⟩
      rw [rounds_succ, List.append_assoc]
      rfl
    | interrupt _ _ _ interrupted =>
      let v : Visit := ⟨job.label, retries, .cutShort error⟩
      refine ⟨_, _, _, toured.close (v := v) rfl ⟨endures, answer, again⟩ ?_ (Bool.or_true _),
        fun _ => Or.inr interrupted⟩
      rw [List.append_assoc]
      rfl
  | finished => cases move
  | attempting job retries endures =>
    have known := heeds _ rfl
    cases answer : answers visits.length (retries + 1) with
    | ok =>
      rw [answer] at known
      cases known
      let v : Visit := ⟨job.label, retries, .succeeded⟩
      refine ⟨_, _, _, toured.close (v := v) rfl ⟨endures, answer⟩ ?_ (Bool.or_false _), ?_⟩
      · rw [List.append_assoc]
        rfl
      · rw [isCutShort_concat_of_not visits rfl]
        exact Or.inl
    | error e =>
      rw [answer] at known
      simp only [Task.close] at known
      split at known
      next again =>
        cases cancelled with
        | true =>
          cases known
          let v : Visit := ⟨job.label, retries, .cutShort e⟩
          refine ⟨_, _, _, toured.close (v := v) rfl ⟨endures, answer, again⟩ ?_
            (Bool.or_true _), fun _ => Or.inr rfl⟩
          rw [List.append_assoc]
          rfl
        | false =>
          cases known
          refine ⟨_, _, _, toured.stay (.sleeping job retries e endures answer again) ?_, Or.inl⟩
          rw [List.append_assoc]
          rfl
      next final =>
        cases known
        let v : Visit := ⟨job.label, retries, .failed e⟩
        refine ⟨_, _, _, toured.close (v := v) rfl
          ⟨endures, answer, eq_false_of_ne_true final⟩ ?_ (Bool.or_false _), ?_⟩
        · rw [List.append_assoc]
          rfl
        · rw [isCutShort_concat_of_not visits rfl]
          exact Or.inl

end CommandPool.Pool
