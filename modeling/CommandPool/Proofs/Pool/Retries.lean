import CommandPool.Proofs.Pool.OnTour

/-!
# Retries

As long as the run is not cancelled, what a worker does at a node follows from the results that
the attempts at this node would give.  It makes attempts up to the first *decisive* one, the
first that is not throttled or for which no retry is left, and waits between them as long as
the policy says.  Each wait is announced by a warning and counted when it is over, and one more
entry and one more count tell the end.

`Resolved` says all that of the events at a node.  A node that is not closed yet has the
beginning of such events, and its worker alone can bring it to its end.
-/

namespace CommandPool.Pool

variable {α : Type} {p q : Pool α} {w ticket node k : Nat} {stage : Stage α} {answers : Answers}
  {s : Settings} {visits : List Visit} {v : Visit} {chain rest : Chain α} {cut : Bool}
  {here history : List Event}

/-- What has happened at a node of a job, the earliest first. -/
def eventsAt (history : List Event) (ticket node : Nat) : List Event :=
  (history.filter (·.isAt ticket node)).reverse

theorem eventsAt_eq (history : List Event) (ticket node : Nat) : eventsAt history ticket node =
    (eventsOf history ticket).reverse.filter (·.isAt ticket node) := by
  rw [eventsAt, eventsOf, List.filter_reverse, List.filter_filter]
  congr 2
  funext e
  cases at_node : e.isAt ticket node with
  | false => rfl
  | true => rw [about_of_isAt at_node]; rfl

theorem mem_eventsAt {e : Event} :
    e ∈ eventsAt history ticket node ↔ e ∈ history ∧ e.isAt ticket node = true := by
  rw [eventsAt, List.mem_reverse, List.mem_filter]

/-! ## The node at which a worker stands -/

theorem Stands.spots (stands : Stands s w ticket answers node cut rest here stage) :
    ∃ label, ∀ e ∈ here, e.spot? = some ⟨w, ticket, node, label⟩ := by
  have after : ∀ (label : String) (n : Nat) (more : List Event),
      (∀ e ∈ more, e.spot? = some ⟨w, ticket, node, label⟩) →
      ∀ e ∈ rounds s ⟨w, ticket, node, label⟩ n ++ more, e.spot? = some ⟨w, ticket, node, label⟩ :=
    fun label n more rest e member =>
      (List.mem_append.mp member).elim spot?_of_mem_rounds (rest e)
  cases stands with
  | ready job retries => exact ⟨job.label, fun e => spot?_of_mem_rounds⟩
  | attempting job retries => exact ⟨job.label, after _ _ _ (by simp [Event.spot?])⟩
  | sleeping job retries => exact ⟨job.label, after _ _ _ (by simp [Event.spot?])⟩
  | finished => exact ⟨"", List.forall_mem_nil _⟩

theorem rounds_isPrefix_trial {spot : Spot} {n : Nat} (result : Nat → Except JobError Unit)
    (early : n < k) : rounds s spot n <+: trial s spot result k :=
  (rounds_isPrefix (Nat.le_sub_one_of_lt early)).trans (List.prefix_append _ _)

/-- What has happened at the node so far is the beginning of what happens there in all. -/
theorem Stands.isPrefix (stands : Stands s w ticket answers node cut rest here stage)
    (least : IsLeast (decisive s.maxRetries (answers node)) k) (unfinished : rest ≠ .done) :
    ∃ label, here <+: trial s ⟨w, ticket, node, label⟩ (answers node) k := by
  cases stands with
  | ready job retries endures =>
    exact ⟨job.label, rounds_isPrefix_trial _ (endures.lt_of_decisive least.1)⟩
  | attempting job retries endures =>
    refine ⟨job.label, ?_⟩
    rcases Nat.lt_or_eq_of_le (endures.lt_of_decisive least.1) with earlier | last
    · refine List.IsPrefix.trans ?_ (rounds_isPrefix_trial _ earlier)
      rw [Nat.succ_eq_add_one, rounds_succ, List.prefix_append_right_inj]
      exact List.prefix_append _ _
    · rw [trial, ← last, Nat.succ_eq_add_one, Nat.add_sub_cancel, List.prefix_append_right_inj]
      exact List.prefix_append _ _
  | sleeping job retries error endures answer again =>
    have later := (endures.succ answer again).lt_of_decisive least.1
    refine ⟨job.label, List.IsPrefix.trans ?_ (rounds_isPrefix_trial _ later)⟩
    rw [rounds_succ, List.prefix_append_right_inj]
    exact List.prefix_append _ _
  | finished => exact absurd rfl unfinished

/-! ## The nodes of a tour -/

section Toured

variable (toured : Toured s w ticket answers chain visits rest here (eventsOf history ticket) stage)

include toured

theorem Toured.eventsAt_visit (found : visits[node]? = some v) :
    eventsAt history ticket node = v.events s ⟨w, ticket, node, v.label⟩ := by
  have past := filter_tour s w ticket visits 0 node
  rw [Nat.zero_add, found] at past
  have elsewhere : here.filter (·.isAt ticket node) = [] := by
    obtain ⟨label, spots⟩ := toured.stands.spots
    refine filter_isAt_of_other fun e member => ⟨_, spots e member, ?_⟩
    exact Nat.ne_of_gt (List.getElem?_eq_some_iff.mp found).1
  rw [eventsAt_eq, toured.course, List.filter_append, elsewhere, List.append_nil, past]

theorem Toured.eventsAt_here : eventsAt history ticket visits.length = here := by
  have past := filter_tour s w ticket visits 0 visits.length
  rw [Nat.zero_add, List.getElem?_eq_none (Nat.le_refl _)] at past
  obtain ⟨label, spots⟩ := toured.stands.spots
  rw [eventsAt_eq, toured.course, List.filter_append, past, List.nil_append]
  exact filter_isAt_of_same spots

theorem Toured.eventsAt_beyond (beyond : visits.length < node) :
    eventsAt history ticket node = [] := by
  have past := filter_tour s w ticket visits 0 node
  rw [Nat.zero_add, List.getElem?_eq_none (Nat.le_of_lt beyond)] at past
  have elsewhere : here.filter (·.isAt ticket node) = [] := by
    obtain ⟨label, spots⟩ := toured.stands.spots
    exact filter_isAt_of_other fun e member => ⟨_, spots e member, Nat.ne_of_lt beyond⟩
  rw [eventsAt_eq, toured.course, List.filter_append, elsewhere, List.append_nil, past]

/-- A node that was left is resolved by its first decisive attempt. -/
theorem Toured.resolved (uncut : isCutShort visits = false) (found : visits[node]? = some v) :
    IsLeast (decisive s.maxRetries (answers node)) (v.retries + 1) ∧
      Resolved s ⟨w, ticket, node, v.label⟩ (answers node) (v.retries + 1)
        (eventsAt history ticket node) := by
  have mine : v.closing.isCut = false := by
    have all := List.any_eq_false.mp uncut v (List.mem_of_getElem? found)
    exact eq_false_of_ne_true all
  have fits := toured.fits node v found
  refine ⟨fits.isLeast mine, ?_⟩
  rw [toured.eventsAt_visit found, fits.events_eq_trial mine]
  exact resolved_trial s _ _ (Nat.succ_pos _)

end Toured

/-! ## Nodes of a pool -/

/-- A run of pieces of one worker cancels nothing. -/
theorem cancelled_of_own {ms : List (Piece α)} (run : p.pieces ms = some q)
    (own : ∀ l ∈ ms, l.worker? = some w) : q.cancelled = p.cancelled := by
  induction ms generalizing p with
  | nil => cases run; rfl
  | cons l ms ih =>
    obtain ⟨next, step, rest⟩ := Option.bind_eq_some_iff.mp run
    obtain ⟨named, own⟩ := List.forall_mem_cons.mp own
    have keeps : l.cancels = false := by
      rcases l with (_ | _) | _ <;> first | rfl | cases named
    rw [ih rest own, cancelled_stepPiece step, keeps, Bool.or_false]

theorem got_stays {ms : List (Piece α)} (chronicle : Chronicle p) (run : p.pieces ms = some q)
    (got : p.queue.Got ticket) : q.queue.Got ticket :=
  got.imp fun turn got => (chronicle_pieces chronicle run).2.recv turn _ got rfl

/-- When nobody is at a job that was taken, and the run is not cancelled, each node of it that
was attempted is resolved by its first decisive attempt. -/
theorem OnTour.resolved {e : Event} (onTour : OnTour answers ticket p)
    (got : p.queue.Got ticket) (running : p.cancelled = false)
    (nobody : ∀ i other, ¬ p.At i other ticket) (member : e ∈ eventsAt p.history ticket node) :
    ∃ spot k, spot.ticket = ticket ∧ spot.node = node ∧ e.spot? = some spot ∧
      IsLeast (decisive p.settings.maxRetries (answers node)) k ∧
      Resolved p.settings spot (answers node) k (eventsAt p.history ticket node) := by
  obtain ⟨w, sent, visits, rest, here, stage, heard, toured, cut⟩ := onTour got
  have uncut : isCutShort visits = false :=
    eq_false_of_ne_true fun short => Bool.false_ne_true (running.symm.trans (cut short))
  have unseen : stage.shown = none := by
    refine Option.eq_none_iff_forall_ne_some.mpr fun other shown => ?_
    exact nobody w other ((heard.holder w other).mpr ⟨rfl, shown⟩)
  obtain ⟨rfl, rfl, rfl⟩ := toured.stands.finished_of_unseen unseen
  cases found : visits[node]? with
  | some v =>
    obtain ⟨least, resolved⟩ := toured.resolved uncut found
    refine ⟨_, _, rfl, rfl, ?_, least, resolved⟩
    rw [toured.eventsAt_visit found] at member
    exact Visit.spot?_of_mem member
  | none =>
    rcases Nat.lt_or_eq_of_le (List.getElem?_eq_none_iff.mp found) with beyond | rfl
    · rw [toured.eventsAt_beyond beyond] at member
      cases member
    · rw [toured.eventsAt_here] at member
      cases member

/-- A node whose attempt number `k` will be the last one is not closed yet. -/
structure Undecided (p : Pool α) (answers : Answers) (spot : Spot) (k : Nat) : Prop where
  /-- What has happened is the beginning of what happens at the node in all. -/
  begun : eventsAt p.history spot.ticket spot.node <+:
    trial p.settings spot (answers spot.node) k
  here : ∃ stage t, p.At spot.worker stage spot.ticket ∧ stage.task? = some t ∧
    t.node = spot.node
  /-- A wait after so many attempts is as long as the policy says. -/
  asleep : ∀ t error delay, p.phase? spot.worker = some (.sleeping t error delay) →
    delay = p.settings.backoff.delay
      (countAt Event.isAttempt p.history spot.ticket spot.node)
  /-- The worker alone can bring the node to its end. -/
  ends : ∃ ms q, p.pieces ms = some q ∧ (∀ l ∈ ms, l.worker? = some spot.worker) ∧
    Throughout stepPiece (Gives answers spot.ticket) p ms ∧
    Resolved p.settings spot (answers spot.node) k
      (eventsAt q.history spot.ticket spot.node)

theorem Stands.node_eq {t : Task α} (stands : Stands s w ticket answers node cut rest here stage)
    (task : stage.task? = some t) : t.node = node := by
  cases stands <;> cases task <;> rfl

theorem Stands.delay_eq {t : Task α} {error : JobError} {delay : Duration}
    (stands : Stands s w ticket answers node cut rest here (.sleeping t error delay)) :
    delay = s.backoff.delay t.retries := by
  cases stands
  rfl

/-- A node at which something has happened, and where the worker stands, is undecided. -/
theorem undecided_of_stands {sent : Send (Job α)} {e : Event} (chronicle : Chronicle p)
    (onTour : OnTour answers ticket p) (got : p.queue.Got ticket) (running : p.cancelled = false)
    (heard : p.Heard ticket w sent stage) (busy : p.At w stage ticket)
    (stands : Stands p.settings w ticket answers node cut rest here stage)
    (course : eventsAt p.history ticket node = here) (member : e ∈ here) :
    ∃ spot k, spot.ticket = ticket ∧ spot.node = node ∧
      IsLeast (decisive p.settings.maxRetries (answers node)) k ∧ Undecided p answers spot k := by
  obtain ⟨ms, q, run, own, given, nobody⟩ := exists_end answers chronicle busy
  have settings : q.settings = p.settings := (frame_pieces chronicle.agrees run).1
  have later : e ∈ eventsAt q.history ticket node := by
    obtain ⟨new, history⟩ := history_pieces run
    rw [← course, mem_eventsAt] at member
    rw [mem_eventsAt, history]
    exact ⟨List.mem_append_right _ member.1, member.2⟩
  obtain ⟨spot, k, _, _, about, least, resolved⟩ :=
    (onTour_pieces onTour chronicle run given).resolved (got_stays chronicle run got)
      ((cancelled_of_own run own).trans running) nobody later
  rw [settings] at least resolved
  have unfinished : rest ≠ .done := by
    rintro rfl
    cases stands
    cases member
  obtain ⟨label, begun⟩ := stands.isPrefix least unfinished
  -- The event is about the spot where the worker stands and about the one that is resolved.
  cases about.symm.trans (spot?_of_mem_trial (begun.subset member))
  refine ⟨_, k, rfl, rfl, least, ?_, ?_, ?_, ms, q, run, own, given, resolved⟩
  · rw [course]
    exact begun
  · obtain ⟨t, task, _⟩ := busy.2
    exact ⟨stage, t, busy, task, stands.node_eq task⟩
  · intro t error delay asleep
    cases (stage?_of_phase? asleep).symm.trans busy.1
    have attempts := heard.follows.attempts_at rfl rfl
    rw [stands.node_eq rfl] at attempts
    rw [stands.delay_eq, ← countAt_eventsOf]
    exact congrArg _ attempts.symm

/-- What the attempts at a job give is given by `answers`, and no attempt at it panics.  Then in
every run of a pool that is not cancelled, however polls overlap and whatever the settings, a
node that was attempted has a last attempt `k`, the first that is not throttled or the one for
which all retries are used up, and all attempts before it are throttled.  When the worker has
left the node:

* it has made exactly the attempts from the first to number `k`,
* between attempt `i` and the next one it has waited as long as the policy says for `i`,
* it has written a warning for each of these waits, with its number and its delay, and then
  one entry at the level for the end,
* it has counted each wait as a retry, and one success or one failure, and nothing else; the
  counters of the pool are the sums of what was counted,
* the node has succeeded exactly if the last attempt has.

Before that it has done the beginning of this, and the worker alone can do the rest. -/
theorem nodes_are_attempted_until_decided {ls : List (Piece α)}
    (run : (started s false).pieces ls = some p)
    (given : Throughout stepPiece (Gives answers ticket) (started s false) ls)
    (running : p.cancelled = false)
    (attempted : 0 < countAt Event.isAttempt p.history ticket node) :
    ∃ spot k, spot.ticket = ticket ∧ spot.node = node ∧
      IsLeast (decisive s.maxRetries (answers node)) k ∧
      (∀ i, 0 < i → i < k → Throttles (answers node i)) ∧
      (Resolved s spot (answers node) k (eventsAt p.history ticket node) ∨
        Undecided p answers spot k) ∧
      (∀ c, c.isTally = true → p.counters.get c = p.history.countP (·.counts c)) := by
  have begins := chronicle_started (α := α) s false
  have chronicle := (chronicle_pieces begins run).1
  have settings : p.settings = s := (frame_pieces begins.agrees run).1
  have tallied := tallied_pieces (tallied_started s false) run
  have onTour := onTour_pieces (onTour_started answers ticket s false) begins run given
  obtain ⟨e, member⟩ : ∃ e, e ∈ eventsAt p.history ticket node := by
    obtain ⟨e, member, both⟩ := List.countP_pos_iff.mp attempted
    exact ⟨e, mem_eventsAt.mpr ⟨member, (Bool.and_eq_true _ _ ▸ both).2⟩⟩
  have got : p.queue.Got ticket := by
    refine Classical.byContradiction fun absent => ?_
    rw [eventsAt_eq, (chronicle.silent ticket absent).events] at member
    cases member
  have before : ∀ {k}, IsLeast (decisive s.maxRetries (answers node)) k →
      ∀ i, 0 < i → i < k → Throttles (answers node i) := by
    intro k least i positive early
    refine Classical.byContradiction fun otherwise => ?_
    exact absurd (least.2 ⟨positive, Or.inl otherwise⟩) (Nat.not_le_of_lt early)
  by_cases busy : ∃ i other, p.At i other ticket
  · obtain ⟨i, stage, busy⟩ := busy
    obtain ⟨w, sent, visits, rest, here, stage', heard, toured, cut⟩ := onTour got
    obtain ⟨rfl, shown⟩ := (heard.holder i stage).mp busy
    obtain ⟨rfl, _⟩ := Stage.shown_eq_some_iff.mp shown
    have uncut : isCutShort visits = false :=
      eq_false_of_ne_true fun short => Bool.false_ne_true (running.symm.trans (cut short))
    rcases Nat.lt_trichotomy node visits.length with left | rfl | beyond
    · obtain ⟨least, resolved⟩ := toured.resolved uncut (List.getElem?_eq_getElem left)
      rw [settings] at least resolved
      exact ⟨_, _, rfl, rfl, least, before least, Or.inl resolved, tallied⟩
    · rw [toured.eventsAt_here] at member
      obtain ⟨spot, k, here, at_node, least, undecided⟩ := undecided_of_stands chronicle onTour got
        running heard busy toured.stands toured.eventsAt_here member
      rw [settings] at least
      exact ⟨spot, k, here, at_node, least, before least, Or.inr undecided, tallied⟩
    · rw [toured.eventsAt_beyond beyond] at member
      cases member
  · have nobody : ∀ i other, ¬ p.At i other ticket := by simpa using busy
    obtain ⟨spot, k, here, at_node, _, least, resolved⟩ :=
      onTour.resolved got running nobody member
    rw [settings] at least resolved
    exact ⟨spot, k, here, at_node, least, before least, Or.inl resolved, tallied⟩

/-- At the root of a job the first attempt is throttled and the others fail.  All other nodes
succeed. -/
def begrudged : Answers := fun node number =>
  if node = 0 then
    if number = 1 then .error (.throttled "slow down") else .error (.other "broken" [])
  else .ok ()

theorem nodes_are_attempted_until_decided_together :
    ∃ p : Pool Unit, (started pair false).pieces together = some p ∧
      Throughout stepPiece (Gives begrudged 0) (started pair false) together ∧
      p.cancelled = false ∧ 0 < countAt Event.isAttempt p.history 0 0 ∧
      ∃ spot, spot.ticket = 0 ∧ spot.node = 0 ∧
        IsLeast (decisive pair.maxRetries (begrudged 0)) 2 ∧
        Resolved pair spot (begrudged 0) 2 (eventsAt p.history 0 0) := by
  have run : (started pair false).pieces together = some _ := rfl
  have given : Throughout stepPiece (Gives begrudged 0) (started pair false) together := by
    -- All pieces but the four ends of attempts give nothing.
    repeat' first
      | exact trivial
      | refine throughout_cons ?_ rfl ?_
      | (intro t here mine; cases here; first | rfl | cases mine)
  have decided : ∃ k, k = 2 ∧ IsLeast (decisive pair.maxRetries (begrudged 0)) k := by
    obtain ⟨k, least⟩ := exists_isLeast_decisive pair.maxRetries (begrudged 0)
    have second : 2 ∈ decisive pair.maxRetries (begrudged 0) := ⟨by decide, Or.inr rfl⟩
    have first : Endures pair.maxRetries (begrudged 0) 1 :=
      (endures_zero _ _).succ (e := .throttled "slow down") rfl rfl
    exact ⟨k, Nat.le_antisymm (least.2 second) (first.lt_of_decisive least.1), least⟩
  obtain ⟨_, rfl, least⟩ := decided
  obtain ⟨spot, k, ticket, node, least', _, resolved | undecided, _⟩ :=
    nodes_are_attempted_until_decided run given rfl
      (show 0 < countAt Event.isAttempt _ 0 0 by decide)
  · cases least'.unique least
    exact ⟨_, run, given, rfl, by decide, spot, ticket, node, least, resolved⟩
  · -- Nobody is at the job any more.
    obtain ⟨_, _, ⟨here, _⟩, _⟩ := undecided.here
    have chronicle := (chronicle_pieces (chronicle_started pair false) run).1
    cases (chronicle.nobody_of_isJoined rfl _).symm.trans here

end CommandPool.Pool
