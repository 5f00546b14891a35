import CommandPool.Proofs.Pool.ExactlyOnce
import CommandPool.Proofs.Pool.Tally

/-!
# One job after the other

The diary of a worker says which jobs it has dealt with, event by event.  A worker that is
at a job has written of no other one since it began with it, and with a job that is new to
it it writes a new name.  So no name comes back after another one: whatever happens at a
worker between two events of a job is about that job.
-/

namespace CommandPool.Pool

variable {α : Type} {p p' : Pool α} {w : Nat}

/-! ## Names that do not come back -/

/-- No name comes back after another one. -/
def Unbroken (names : List Nat) : Prop :=
  ∀ name other, [name, other, name].Sublist names → other = name

/-- A new name, or the last one once more. -/
theorem Unbroken.cons {names : List Nat} {name : Nat} (unbroken : Unbroken names)
    (last : name ∈ names → names.head? = some name) : Unbroken (name :: names) := by
  intro again other sublist
  cases sublist with
  | cons _ below => exact unbroken again other below
  | cons_cons _ rest =>
    have before : name ∈ names := rest.subset (List.mem_cons_of_mem _ List.mem_cons_self)
    obtain ⟨older, rfl⟩ := List.head?_eq_some_iff.mp (last before)
    cases rest with
    | cons _ below => exact unbroken name other (below.cons_cons name)
    | cons_cons => rfl

theorem Unbroken.append {names : List Nat} {name : Nat} (unbroken : Unbroken names)
    (last : name ∈ names → names.head? = some name) (count : Nat) :
    Unbroken (List.replicate count name ++ names) ∧
      (name ∈ List.replicate count name ++ names →
        (List.replicate count name ++ names).head? = some name) := by
  induction count with
  | zero => exact ⟨unbroken, last⟩
  | succ count ih =>
    rw [List.replicate_succ, List.cons_append]
    exact ⟨ih.1.cons ih.2, fun _ => rfl⟩

/-! ## Diaries -/

/-- The job that an event at this worker is about. -/
def Event.jobAt? (e : Event) (w : Nat) : Option Nat :=
  e.spot?.bind fun spot => if spot.worker = w then some spot.ticket else none

/-- The jobs that a worker has dealt with, event by event, the latest first. -/
def diary (p : Pool α) (w : Nat) : List Nat := p.history.filterMap (·.jobAt? w)

theorem jobAt?_eq_some_iff {e : Event} {ticket : Nat} : e.jobAt? w = some ticket ↔
    ∃ spot, e.spot? = some spot ∧ spot.worker = w ∧ spot.ticket = ticket := by
  simp only [Event.jobAt?, Option.bind_eq_some_iff, Option.ite_none_right_eq_some,
    Option.some.injEq]

theorem diary_eq (p : Pool α) (w : Nat) :
    p.diary w = (p.history.filter (·.spot?.isSome)).filterMap (·.jobAt? w) := by
  have spotted : ∀ e : Event, e.jobAt? w = if e.spot?.isSome then e.jobAt? w else none := by
    intro e
    rw [Event.jobAt?]
    cases e.spot? <;> rfl
  rw [diary, List.filterMap_filter]
  exact congrArg (List.filterMap · p.history) (funext spotted)

/-- What is written in a diary has happened to the job. -/
theorem eventsOf_ne_nil_of_mem {ticket : Nat} (written : ticket ∈ p.diary w) :
    eventsOf p.history ticket ≠ [] := by
  obtain ⟨e, member, here⟩ := List.mem_filterMap.mp written
  obtain ⟨spot, about, _, same⟩ := jobAt?_eq_some_iff.mp here
  refine List.ne_nil_of_mem (List.mem_filter.mpr ⟨member, ?_⟩)
  simp [Event.isAbout, about, same]

/-! ## New events -/

/-- The new events are these ones about a job at a worker, and others that are about no
job. -/
structure Writes (p p' : Pool α) (worker ticket : Nat) (new : List Event) : Prop where
  history : ∃ added, p'.history = added ++ p.history
  events : ∀ other, eventsOf p'.history other = eventsOf new other ++ eventsOf p.history other
  spots : ∀ e ∈ new, ∃ spot, e.spot? = some spot ∧ spot.ticket = ticket ∧ spot.worker = worker

/-- What is new in a history is known from what is new in each job. -/
theorem Writes.spotted {worker ticket : Nat} {new : List Event}
    (writes : Writes p p' worker ticket new) : p'.history.filter (·.spot?.isSome) =
      new ++ p.history.filter (·.spot?.isSome) := by
  obtain ⟨⟨added, history⟩, events, spots⟩ := writes
  have same : ∀ other, eventsOf added other = eventsOf new other := by
    intro other
    have both := events other
    rw [history, eventsOf_append] at both
    exact List.append_cancel_right both
  have about : ∀ e ∈ added, e.spot?.isSome = e.isAbout ticket := by
    intro e member
    cases spotted : e.spot? with
    | none => simp [Event.isAbout, spotted]
    | some spot =>
      have here : e ∈ eventsOf added spot.ticket :=
        List.mem_filter.mpr ⟨member, by simp [Event.isAbout, spotted]⟩
      rw [same] at here
      obtain ⟨spot', about, at_ticket, _⟩ := spots e (List.mem_filter.mp here).1
      cases spotted.symm.trans about
      simp [Event.isAbout, spotted, at_ticket]
  have mine : eventsOf new ticket = new := by
    refine List.filter_eq_self.mpr fun e member => ?_
    obtain ⟨spot, about, at_ticket, _⟩ := spots e member
    simp [Event.isAbout, about, at_ticket]
  rw [history, List.filter_append, List.filter_congr about]
  exact congrArg (· ++ _) ((same ticket).trans mine)

theorem filterMap_jobAt? {new : List Event} {worker ticket : Nat}
    (spots : ∀ e ∈ new, ∃ spot, e.spot? = some spot ∧ spot.ticket = ticket ∧
      spot.worker = worker) (w : Nat) : new.filterMap (·.jobAt? w) =
        List.replicate (if worker = w then new.length else 0) ticket := by
  induction new with
  | nil => split <;> rfl
  | cons e new ih =>
    obtain ⟨⟨spot, about, rfl, rfl⟩, spots⟩ := List.forall_mem_cons.mp spots
    have rest := ih spots
    have first : e.jobAt? w = if spot.worker = w then some spot.ticket else none := by
      rw [Event.jobAt?, about]
      rfl
    rw [List.filterMap_cons, first, rest]
    by_cases here : spot.worker = w
    · simp [here, List.replicate_succ]
    · simp [here]

/-- The worker writes the name of the job once for each event, and nobody else writes. -/
theorem Writes.diary {worker ticket : Nat} {new : List Event}
    (writes : Writes p p' worker ticket new) (w : Nat) : p'.diary w =
      List.replicate (if worker = w then new.length else 0) ticket ++ p.diary w := by
  rw [diary_eq, writes.spotted, List.filterMap_append, filterMap_jobAt? writes.spots, ← diary_eq]

theorem diary_of_same (history : ∃ added, p'.history = added ++ p.history)
    (events : ∀ other, eventsOf p'.history other = eventsOf p.history other) (w : Nat) :
    p'.diary w = p.diary w := by
  have writes : Writes p p' w 0 [] := ⟨history, events, nofun⟩
  rw [writes.diary w, if_pos rfl]
  rfl

/-! ## The invariant -/

/-- The diary of each worker is unbroken, and a worker that is at a job wrote of it last, if
it has written of it at all. -/
structure Diligent (p : Pool α) : Prop where
  unbroken : ∀ w, Unbroken (p.diary w)
  last : ∀ w stage ticket, p.At w stage ticket → ticket ∈ p.diary w →
    (p.diary w).head? = some ticket

theorem At.ticket {a : Stage α} {ticket : Nat} (here : p.At w a ticket) (t : Task α)
    (task : a.task? = some t) : t.ticket = ticket := by
  obtain ⟨t', task', same⟩ := here.2
  cases task.symm.trans task'
  exact same

theorem diligent_stepPiece {l : Piece α} (diligent : Diligent p) (chronicle : Chronicle p)
    (step : p.stepPiece l = some p') : Diligent p' := by
  have history : ∃ added, p'.history = added ++ p.history := by
    obtain ⟨added, adds, _⟩ := adds_stepPiece step
    exact ⟨added, adds.history⟩
  cases (change_stepPiece chronicle.agrees step).2 with
  | aside stages events =>
    have same := diary_of_same history events
    refine ⟨fun w => ?_, fun w stage ticket here written => ?_⟩
    · rw [same]
      exact diligent.unbroken w
    · rw [same] at written ⊢
      exact diligent.last w stage ticket ((at_iff_of_stages stages ticket w stage).mp here) written
  | taken i taken s without fresh found stages events =>
    have same := diary_of_same history events
    refine ⟨fun w => ?_, fun w stage ticket here written => ?_⟩
    · rw [same]
      exact diligent.unbroken w
    · rw [same] at written ⊢
      by_cases different : ticket = taken
      · subst different
        exact absurd (chronicle.silent ticket fresh).events (eventsOf_ne_nil_of_mem written)
      · have before := (at_iff_of_taken without stages different w stage).mp here
        exact diligent.last w stage ticket before written
  | moved i a new b before move stages events =>
    obtain ⟨ticket, here⟩ := exists_at before
    have writes : Writes p p' i ticket new := ⟨history, events, move.spots here.ticket⟩
    have appended := (diligent.unbroken i).append (diligent.last i a ticket here) new.length
    refine ⟨fun w => ?_, fun w stage other now written => ?_⟩
    · rw [writes.diary w]
      split
      next equal => exact equal ▸ appended.1
      next => exact diligent.unbroken w
    · rw [writes.diary w] at written ⊢
      have stage_now := now.1
      rw [stages] at stage_now
      split at written
      next equal =>
        subst equal
        rw [if_pos rfl] at stage_now ⊢
        obtain ⟨rfl, _⟩ := Stage.shown_eq_some_iff.mp stage_now
        obtain ⟨t, task, rfl⟩ := now.2
        rw [move.ticket here.ticket t task] at written ⊢
        exact appended.2 written
      next different =>
        rw [if_neg (Ne.symm different)] at stage_now
        rw [if_neg different]
        exact diligent.last w stage other ⟨stage_now, now.2⟩ written

theorem diligent_started (s : Settings) (cancelled : Bool) :
    Diligent (started s cancelled : Pool α) where
  unbroken w name other sublist := by
    cases sublist
  last w stage ticket here written := by
    cases written

/-- Whatever happens at the worker of a job between two events of the job is about that
job. -/
theorem Diligent.between {e₁ e₂ e₃ : Event} {first second third : Spot} (diligent : Diligent p)
    (chronicle : Chronicle p) (sublist : [e₃, e₂, e₁].Sublist p.history)
    (at_first : e₁.spot? = some first) (at_second : e₂.spot? = some second)
    (at_third : e₃.spot? = some third) (same : third.ticket = first.ticket)
    (here : second.worker = first.worker) : second.ticket = first.ticket := by
  obtain ⟨w, worker⟩ := chronicle.one_worker first.ticket
  have mine : ∀ e spot, e ∈ p.history → e.spot? = some spot → spot.ticket = first.ticket →
      spot.worker = w := by
    intro e spot member about same
    obtain ⟨spot', about', at_w⟩ :=
      worker e (List.mem_filter.mpr ⟨member, by simp [Event.isAbout, about, same]⟩)
    cases about.symm.trans about'
    exact at_w
  have one := mine e₁ first (sublist.subset (by simp)) at_first rfl
  have three := mine e₃ third (sublist.subset (by simp)) at_third same
  have names := sublist.filterMap (·.jobAt? w)
  simp only [List.filterMap_cons, Event.jobAt?, at_first, at_second, at_third, Option.bind_some,
    one, three, here, if_true, same, List.filterMap_nil] at names
  exact diligent.unbroken w first.ticket second.ticket names

end CommandPool.Pool
