import CommandPool.Proofs.Pool.ExactlyOnce
import CommandPool.Proofs.Pool.Nodes

/-!
# How a job goes on

A job that has a worker stays with it, and whatever else happens in the pool, its events
grow by those of the moves that its worker makes.  So what is known about one course
holds for every job of a pool, at every node.
-/

namespace CommandPool.Pool

variable {α : Type} {p p' : Pool α} {ticket w : Nat} {s : Send (Job α)} {a : Stage α}

/-- In a step a job that has a worker stays as it is, or its worker makes a move of
it. -/
theorem Heard.next (heard : p.Heard ticket w s a) (chronicle : Chronicle p)
    (gotten : p.queue.Got ticket) (keeps : Keeps p p') (change : Change p p') :
    ∃ s' b new, p'.Heard ticket w s' b ∧
      eventsOf p'.history ticket = new ++ eventsOf p.history ticket ∧
      ((new = [] ∧ b = a) ∨ Move p.settings w p.cancelled a new b) := by
  have stays : eventsOf p'.history ticket = eventsOf p.history ticket →
      (∀ i other, p'.At i other ticket ↔ p.At i other ticket) →
      ∃ s' b new, p'.Heard ticket w s' b ∧
        eventsOf p'.history ticket = new ++ eventsOf p.history ticket ∧
        ((new = [] ∧ b = a) ∨ Move p.settings w p.cancelled a new b) := by
    intro events at_iff
    obtain ⟨s', heard'⟩ := heard.of_same keeps events at_iff
    exact ⟨s', a, [], heard', events, Or.inl ⟨rfl, rfl⟩⟩
  cases change with
  | aside stages events got => exact stays (events ticket) (at_iff_of_stages stages ticket)
  | taken i taken s' without fresh found stages events got =>
    have different : ticket ≠ taken := by
      rintro rfl
      exact fresh gotten
    exact stays (events ticket) (at_iff_of_taken without stages different)
  | moved i a' new b before move stages events got =>
    obtain ⟨mine, s', _, heard'⟩ := chronicle.heard_of_stage before
    by_cases equal : ticket = mine
    · subst equal
      -- The stage is shown, so both accounts of the job have the same worker and stage.
      obtain ⟨_, t, task⟩ := Stage.shown_eq_some_iff.mp
        (Phase.stage?_shown (Option.bind_eq_some_iff.mp before).choose_spec.2)
      have busy : p.At i a' ticket := ⟨before, t, task, heard'.follows.ticket.1 t task⟩
      obtain ⟨rfl, shown⟩ := (heard.holder i a').mp busy
      obtain ⟨rfl, _⟩ := Stage.shown_eq_some_iff.mp shown
      obtain ⟨s'', later⟩ := heard.moved keeps move stages events
      have whole : eventsOf new ticket = new := move.eventsOf_new heard.follows.ticket.1
      exact ⟨s'', b, new, later, by rw [events, whole], Or.inr move⟩
    · obtain ⟨same, at_iff⟩ := heard'.others before move stages events equal
      exact stays same at_iff

/-! ## Nodes of a pool -/

/-- What happens at a node of a job happens to the job. -/
theorem about_of_isAt {e : Event} {node : Nat} (at_node : e.isAt ticket node = true) :
    e.isAbout ticket = true := by
  obtain ⟨spot, found, same⟩ := (Option.any_eq_true _ _).mp at_node
  rw [Bool.and_eq_true] at same
  exact (Option.any_eq_true _ _).mpr ⟨spot, found, same.1⟩

theorem countAt_eventsOf (kind : Event → Bool) (history : List Event) (ticket node : Nat) :
    countAt kind (eventsOf history ticket) ticket node = countAt kind history ticket node := by
  rw [countAt, eventsOf, List.countP_filter, countAt]
  refine List.countP_congr fun e _ => ?_
  cases at_node : e.isAt ticket node with
  | false => simp
  | true => simp [about_of_isAt at_node]

theorem countAt_append (kind : Event → Bool) (new events : List Event) (ticket node : Nat) :
    countAt kind (new ++ events) ticket node =
      countAt kind new ticket node + countAt kind events ticket node :=
  List.countP_append

theorem countAt_closes (events : List Event) (ticket node : Nat) :
    countAt Event.closes events ticket node = countAt Event.isSuccess events ticket node +
      countAt Event.isFailure events ticket node + countAt Event.isPanic events ticket node := by
  simp only [countAt, ← List.countP_filter]
  exact countP_closes _

/-- A node of any job is started at most once, and closed at most as often. -/
theorem Chronicle.once (chronicle : Chronicle p) (ticket node : Nat) :
    countAt Event.closes p.history ticket node ≤ countAt Event.isFirst p.history ticket node ∧
      countAt Event.isFirst p.history ticket node ≤ 1 := by
  rw [← countAt_eventsOf, ← countAt_eventsOf Event.isFirst]
  by_cases got : p.queue.Got ticket
  · obtain ⟨w, s, stage, heard⟩ := chronicle.heard ticket got
    have accounts := heard.follows.accounts rfl node
    have once := accounts.once
    have opened := accounts.opened
    simp only [Task.first] at once opened
    omega
  · rw [(chronicle.silent ticket got).events]
    simp

/-- A node that has failed has done so once, and has neither succeeded nor taken its
worker down. -/
theorem Chronicle.failed_once {spot : Spot} {retries : Nat} {error : JobError}
    (chronicle : Chronicle p) (failed : Event.failed spot retries error ∈ p.history) :
    countAt Event.isFailure p.history spot.ticket spot.node = 1 ∧
      countAt Event.isSuccess p.history spot.ticket spot.node = 0 := by
  have some_failure : 0 < countAt Event.isFailure p.history spot.ticket spot.node :=
    List.countP_pos_iff.mpr ⟨_, failed, by simp [Event.isFailure, Event.isAt, Event.spot?]⟩
  obtain ⟨closed, once⟩ := chronicle.once spot.ticket spot.node
  rw [countAt_closes] at closed
  omega

end CommandPool.Pool
