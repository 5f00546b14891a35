import CommandPool.Proofs.Pool.Diary
import CommandPool.Proofs.Pool.Quiet

/-!
# One job at a time

A job that a worker has taken is open until it is resolved down to an empty chain or takes
its worker down.  A worker that is busy is at one open job, and at each open job there is
one worker, so there are never more open jobs than workers.  The queue holds no job back
for them: a delivery that nobody has taken out of the slot is not accepted yet.
-/

namespace CommandPool.Pool

variable {α : Type} {p p' : Pool α} {w ticket : Nat}

/-! ## Paths that are not at their ends -/

/-- A path down a job begins with the job. -/
theorem resolves_toChain_iff {n : Nat} {job : Job α} {path : List (Spot × Outcome)} :
    Resolves w ticket n job.toChain path ↔ ∃ outcome rest,
      path = (⟨w, ticket, n, job.label⟩, outcome) :: rest ∧
        Resolves w ticket (n + 1) (job.after outcome) rest := by
  constructor
  · intro resolves
    generalize begins : job.toChain = chain at resolves
    cases resolves with
    | done => cases begins
    | @node _ job' outcome rest below =>
      cases job
      cases job'
      cases begins
      exact ⟨outcome, rest, rfl, below⟩
  · rintro ⟨outcome, rest, rfl, below⟩
    exact below.node

/-- No path goes on from the end of another one. -/
theorem Resolves.append_nil {w' n : Nat} {chain : Chain α} {path rest : List (Spot × Outcome)}
    (short : Resolves w ticket n chain path) (long : Resolves w' ticket n chain (path ++ rest)) :
    rest = [] := by
  induction short with
  | done n => cases long; rfl
  | node _ ih =>
    obtain ⟨outcome, further, same, below⟩ := resolves_toChain_iff.mp long
    obtain ⟨first, rfl⟩ := List.cons.inj same
    obtain ⟨_, rfl⟩ := Prod.mk.inj first
    exact ih below

theorem exists_resolves (w ticket n : Nat) (chain : Chain α) :
    ∃ path, Resolves w ticket n chain path := by
  induction chain generalizing n with
  | done => exact ⟨[], .done n⟩
  | node label action onSuccess onFailure success _ =>
    obtain ⟨rest, path⟩ := success (n + 1)
    let job : Job α := ⟨label, action, onSuccess, onFailure⟩
    have below : Resolves w ticket (n + 1) (job.after .succeeded) rest := path
    exact ⟨_, below.node⟩

/-- A job that is not at its end has a node ahead. -/
theorem exists_ahead {stage : Stage α} {t : Task α} (task : stage.task? = some t)
    (w ticket : Nat) : ∃ rest, rest ≠ [] ∧ stage.Ahead w ticket rest := by
  obtain ⟨rest, path⟩ := exists_resolves w ticket t.node t.job.toChain
  have some_node : rest ≠ [] := by
    obtain ⟨outcome, below, rfl, _⟩ := resolves_toChain_iff.mp path
    nofun
  refine ⟨rest, some_node, ?_⟩
  cases stage <;> cases task <;> exact path

/-- As long as a job has a worker no action of it has panicked. -/
theorem Follows.unharmed {s : Settings} {first t : Task α} {events : List Event}
    {stage : Stage α} (follows : Follows s w first events stage) (task : stage.task? = some t)
    (spot : Spot) : .panicked spot ∉ events := by
  induction follows generalizing t with
  | begin => nofun
  | move before move ih =>
    rw [List.mem_append, not_or]
    cases move with
    | panic => cases task
    | _ => exact ⟨by simp, ih rfl⟩

/-! ## Open jobs -/

/-- A worker has taken the job, no action of it has panicked, and it was not resolved down
to an empty chain. -/
structure IsOpen (p : Pool α) (ticket : Nat) : Prop where
  got : p.queue.Got ticket
  unharmed : ∀ spot, .panicked spot ∈ p.history → spot.ticket ≠ ticket
  unresolved : ∀ w s, p.queue.sends[ticket]? = some s →
    ¬ Resolves w ticket 0 s.job.toChain (resolutions (eventsOf p.history ticket))

/-- The open jobs are those that workers are at. -/
theorem Chronicle.isOpen_iff (chronicle : Chronicle p) :
    IsOpen p ticket ↔ ∃ w stage, p.At w stage ticket := by
  constructor
  · rintro ⟨got, unharmed, unresolved⟩
    rcases chronicle.at_or_over got with here | ⟨w, s, found, path⟩ | ⟨spot, panicked, same⟩
    · exact here
    · exact absurd path (unresolved w s found)
    · exact absurd same (unharmed spot panicked)
  · rintro ⟨w, stage, here⟩
    obtain ⟨got, s, heard⟩ := chronicle.heard_of_at here
    obtain ⟨_, t, task, _⟩ := here
    refine ⟨got, fun spot panicked same => ?_, fun i s' found path => ?_⟩
    · refine heard.follows.unharmed task spot (List.mem_filter.mpr ⟨panicked, ?_⟩)
      simp [Event.isAbout, Event.spot?, same]
    · cases Option.some.inj (heard.found.symm.trans found)
      obtain ⟨rest, some_node, ahead⟩ := exists_ahead task w ticket
      exact some_node (path.append_nil (heard.follows.resolves rfl ahead))

/-! ## Busy workers -/

/-- The worker is at a job. -/
def Phase.isBusy (phase : Phase α) : Bool := phase.stage?.isSome

/-- The ticket of the job that a worker is at. -/
def Phase.ticket? (phase : Phase α) : Option Nat :=
  (phase.stage?.bind (·.task?)).map (·.ticket)

/-- The tickets of the jobs that the busy workers are at, one for each. -/
def tickets (p : Pool α) : List Nat := p.workers.filterMap (·.ticket?)

theorem Phase.ticket?_eq_some_iff {phase : Phase α} : phase.ticket? = some ticket ↔
    ∃ stage, phase.stage? = some stage ∧ ∃ t, stage.task? = some t ∧ t.ticket = ticket := by
  simp only [Phase.ticket?, Option.map_eq_some_iff, Option.bind_eq_some_iff]
  constructor
  · rintro ⟨t, ⟨stage, at_phase, task⟩, same⟩
    exact ⟨stage, at_phase, t, task, same⟩
  · rintro ⟨stage, at_phase, t, task, same⟩
    exact ⟨t, ⟨stage, at_phase, task⟩, same⟩

theorem Phase.isSome_ticket? (phase : Phase α) : phase.ticket?.isSome = phase.isBusy := by
  cases phase <;> rfl

theorem at_of_ticket? {phase : Phase α} (at_w : p.phase? w = some phase)
    (here : phase.ticket? = some ticket) : ∃ stage, p.At w stage ticket := by
  obtain ⟨stage, at_phase, task⟩ := Phase.ticket?_eq_some_iff.mp here
  exact ⟨stage, (stage?_of_phase? at_w).trans at_phase, task⟩

theorem mem_tickets_iff : ticket ∈ p.tickets ↔ ∃ w stage, p.At w stage ticket := by
  rw [tickets, List.mem_filterMap]
  constructor
  · rintro ⟨phase, member, here⟩
    obtain ⟨w, at_w⟩ := List.getElem?_of_mem member
    exact ⟨w, at_of_ticket? at_w here⟩
  · rintro ⟨w, stage, here, task⟩
    obtain ⟨phase, at_w, at_phase⟩ := Option.bind_eq_some_iff.mp here
    exact ⟨phase, List.mem_of_getElem? at_w, Phase.ticket?_eq_some_iff.mpr ⟨stage, at_phase, task⟩⟩

/-- At a job there is at most one worker. -/
theorem Chronicle.at_once {i j : Nat} {a b : Stage α} (chronicle : Chronicle p)
    (at_i : p.At i a ticket) (at_j : p.At j b ticket) : i = j := by
  obtain ⟨_, s, heard⟩ := chronicle.heard_of_at at_j
  exact ((heard.holder i a).mp at_i).1

theorem Chronicle.nodup_tickets (chronicle : Chronicle p) : p.tickets.Nodup := by
  rw [tickets, List.Nodup, List.pairwise_filterMap, List.pairwise_iff_getElem]
  rintro i j inside_i inside_j less ticket at_i _ at_j rfl
  obtain ⟨a, here⟩ := at_of_ticket? (List.getElem?_eq_getElem inside_i) at_i
  obtain ⟨b, there⟩ := at_of_ticket? (List.getElem?_eq_getElem inside_j) at_j
  exact Nat.ne_of_lt less (chronicle.at_once here there)

theorem length_tickets (p : Pool α) : p.tickets.length = p.workers.countP (·.isBusy) := by
  rw [tickets, List.length_filterMap_eq_countP]
  exact List.countP_congr fun phase _ => by rw [phase.isSome_ticket?]

/-! ## All together -/

/-- A delivery that lies in the slot, or in the hands of a worker that is about to accept
it, is not accepted. -/
theorem not_got_of_lies {h : Handoff α} {place : Handoff.Place} (agrees : h.Agrees)
    (placed : h.Placed) (lies : h.Lies ticket place) : ¬ h.Got ticket := by
  obtain ⟨state, at_ticket, out⟩ := placed.out ticket place lies
  intro got
  obtain ⟨state', at_ticket', accepted⟩ := (agrees.got_iff ticket).mp got
  cases at_ticket.symm.trans at_ticket'
  cases state with
  | ended how =>
    cases how with
    | accepted => cases out
    | refused => cases accepted
  | taken => cases out
  | _ => cases accepted

/-- In every state of a run of a pool that has opened, however polls overlap:

* the jobs that the busy workers are at, one for each, are the open ones, and none of them
  is there twice, so there are never more open jobs than workers,
* a delivery that lies in the slot, or that a worker holds and has not accepted, is that of
  no job that a worker has, and its submission has not succeeded,
* everything that happens to a job happens at one worker,
* whatever happens at that worker between two events of the job is about that job. -/
theorem one_job_at_a_time {ρ : Type} {s : Settings} {build : Nat → Except (List String) ρ}
    {cancelled : Bool} {p₀ : Pool α} {ls : List (Piece α)}
    (opened : openWith s build cancelled = .ok p₀) (run : p₀.pieces ls = some p) :
    (p.tickets.Nodup ∧ (∀ ticket, ticket ∈ p.tickets ↔ IsOpen p ticket) ∧
      p.tickets.length = p.workers.countP (·.isBusy) ∧ p.tickets.length ≤ s.workers) ∧
    (∀ ticket place, p.queue.Lies ticket place →
      ¬ p.queue.Got ticket ∧ p.queue.sendEnd? ticket ≠ some .accepted) ∧
    (∀ ticket, ∃ w, ∀ e ∈ eventsOf p.history ticket,
      ∃ spot, e.spot? = some spot ∧ spot.worker = w) ∧
    ∀ e₁ e₂ e₃ first second third, [e₃, e₂, e₁].Sublist p.history →
      e₁.spot? = some first → e₂.spot? = some second → e₃.spot? = some third →
      third.ticket = first.ticket → second.worker = first.worker →
      second.ticket = first.ticket := by
  let so : Pool α → Prop := fun q => Orderly q ∧ Diligent q ∧ q.workers.length = s.workers
  have kept : ∀ q q' l, so q → stepPiece q l = some q' → so q' := by
    intro q q' l ⟨orderly, diligent, count⟩ step
    have keeps := (change_stepPiece orderly.chronicle.agrees step).1
    exact ⟨orderly_stepPiece orderly step, diligent_stepPiece diligent orderly.chronicle step,
      keeps.count.trans count⟩
  have begins : so p₀ := openWith_eq_ok opened ▸
    ⟨orderly_started s cancelled, diligent_started s cancelled, List.length_replicate⟩
  obtain ⟨orderly, diligent, count⟩ := holds_of_pieces so kept begins run
  have chronicle := orderly.chronicle
  refine ⟨⟨chronicle.nodup_tickets, fun ticket => ?_, length_tickets p, ?_⟩, ?_,
    chronicle.one_worker, ?_⟩
  · rw [mem_tickets_iff, chronicle.isOpen_iff]
  · rw [length_tickets, ← count]
    exact List.countP_le_length
  · intro ticket place lies
    have absent := not_got_of_lies chronicle.agrees orderly.attended.placed lies
    exact ⟨absent, fun accepted => absent ((chronicle.agrees.accepted_iff accepted).mp rfl)⟩
  · intro e₁ e₂ e₃ first second third sublist at_first at_second at_third same here
    exact diligent.between chronicle sublist at_first at_second at_third same here

/-- The first node of one job fails, and its worker is at the second one while the other
worker is at another job.  The delivery of a third job lies in the slot. -/
def engaged : List (Piece Unit) :=
  [.whole (.submit tryFirst), .whole (.look 0), .whole (.start 0),
    .whole (.finish 0 (.plain (.error .cancelled))), .whole (.submit cleanUp), .whole (.look 1),
    .whole (.start 1), .whole (.start 0), .whole (.submit tryFirst)]

theorem one_job_at_a_time_engaged :
    ∃ p : Pool Unit, (started pair false).pieces engaged = some p ∧
      openWith pair (fun _ => .ok ()) false = .ok (started pair false : Pool Unit) ∧
      p.tickets = [0, 1] ∧ IsOpen p 0 ∧ IsOpen p 1 ∧ p.queue.slot = some 2 ∧
      p.queue.sendEnd? 2 ≠ some .accepted ∧
      ∀ e₂ second, [.attempted ⟨0, 0, 1, "clean up"⟩ 1, e₂, .attempted ⟨0, 0, 0, "try"⟩ 1].Sublist
        p.history → e₂.spot? = some second → second.worker = 0 → second.ticket = 0 := by
  have opened : openWith pair (fun _ => (.ok () : Except (List String) Unit)) false =
      .ok (started pair false : Pool Unit) := by
    rfl
  have busy : ((started pair false).pieces engaged).map (fun p => (p.tickets, p.queue.slot)) =
      some ([0, 1], some 2) := by
    decide +kernel
  obtain ⟨p, run, values⟩ := Option.map_eq_some_iff.mp busy
  obtain ⟨tickets, slot⟩ := by simpa only [Prod.mk.injEq] using values
  obtain ⟨⟨_, isOpen_iff, _, _⟩, out, _, between⟩ := one_job_at_a_time opened run
  refine ⟨p, run, opened, tickets, ?_, ?_, slot, (out 2 .slot slot).2, ?_⟩
  · exact (isOpen_iff 0).mp (by simp [tickets])
  · exact (isOpen_iff 1).mp (by simp [tickets])
  · intro e₂ second sublist at_second here
    exact between _ e₂ _ _ second _ sublist rfl at_second rfl rfl here

end CommandPool.Pool
