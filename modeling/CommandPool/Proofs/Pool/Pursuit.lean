import CommandPool.Proofs.Pool.Quiet

/-!
# Jobs that have a worker

A job that a worker has taken is followed to its end, unless an action of it takes the
worker down.  Until then the worker can move, each of its moves brings the job nearer to its
end, and nothing that happens to anybody else touches the job: other workers may be taken
down, and clients may submit as much as they like.

When a pool that was not cancelled is quiet, this has come to an end for every job, and
every other submission has ended as closed.
-/

namespace CommandPool.Pool

variable {α : Type} {p p' : Pool α} {w ticket : Nat}

/-! ## Jobs that have a worker -/

/-- The worker is at the job and can move.  Each of its moves brings the job nearer to its
end, and nothing that happens to anybody else touches the job. -/
structure Pursues (p : Pool α) (ticket w : Nat) (stage : Stage α) : Prop where
  here : p.At w stage ticket
  canMove : ∃ l q, l.worker? = some w ∧ p.stepPiece l = some q
  nearer : ∀ l q, p.stepPiece l = some q → l.worker? = some w →
    ∃ b : Stage α, q.stage? w = b.shown ∧
      b.left p.settings.maxRetries < stage.left p.settings.maxRetries
  stays : ∀ l q, p.stepPiece l = some q → l.worker? ≠ some w → q.stage? w = some stage

theorem pursues_of_at {stage : Stage α} (agrees : p.queue.Agrees) (here : p.At w stage ticket) :
    Pursues p ticket w stage where
  here := here
  canMove := by
    obtain ⟨phase, at_w, at_phase⟩ := Option.bind_eq_some_iff.mp here.1
    rcases moves_or_waits at_w with gone | ⟨turn, rfl⟩ | moves
    · cases phase with
      | stopped => cases at_phase
      | panicked => cases at_phase
      | _ => cases gone
    · cases at_phase
    · exact moves
  nearer l q step named := by
    obtain ⟨new, b, move, shown⟩ := moved_of_named agrees step named here.1
    exact ⟨b, shown, move.left_lt⟩
  stays l q step other := by
    rw [stage?, phase?_of_unnamed agrees step other]
    exact here.1

/-- What has become of a job that a worker has taken. -/
inductive Fate (p : Pool α) (ticket : Nat) (s : Send (Job α)) : Prop where
  /-- It was followed to its end at this worker. -/
  | resolved (w : Nat) :
      Resolves w ticket 0 s.job.toChain (resolutions (eventsOf p.history ticket)) →
      Fate p ticket s
  /-- An action of it took its worker down. -/
  | down (spot : Spot) : .panicked spot ∈ p.history → spot.ticket = ticket →
      p.isDown spot.worker = true → Fate p ticket s
  | underWay (w : Nat) (stage : Stage α) : Pursues p ticket w stage → Fate p ticket s

theorem Orderly.fate {s : Send (Job α)} (orderly : Orderly p)
    (found : p.queue.sends[ticket]? = some s) (got : p.queue.Got ticket) : Fate p ticket s := by
  rcases orderly.chronicle.at_or_over got with ⟨w, stage, here⟩ | ⟨w, s', found', path⟩ | down
  · exact .underWay w stage (pursues_of_at orderly.chronicle.agrees here)
  · cases Option.some.inj (found'.symm.trans found)
    exact .resolved w path
  · obtain ⟨spot, panicked, same⟩ := down
    exact .down spot panicked same (orderly.reported.isDown panicked)

/-! ## At rest -/

/-- What has become of a submission and of its job when nothing moves any more. -/
inductive Concluded (p : Pool α) (ticket : Nat) (s : Send (Job α)) : Prop where
  /-- The job was accepted and followed to its end at this worker. -/
  | resolved (w : Nat) : p.queue.sendEnd? ticket = some .accepted → p.starts ticket = 1 →
      Resolves w ticket 0 s.job.toChain (resolutions (eventsOf p.history ticket)) →
      Concluded p ticket s
  /-- The job was accepted, and an action of it took its worker down. -/
  | down (spot : Spot) : p.queue.sendEnd? ticket = some .accepted → p.starts ticket = 1 →
      .panicked spot ∈ p.history → spot.ticket = ticket → p.isDown spot.worker = true →
      Concluded p ticket s
  /-- The job was refused and never started: no worker is left, or the pool was closed. -/
  | refused : p.queue.sendEnd? ticket = some (.refused .closed) →
      eventsOf p.history ticket = [] → IsDeserted p ∨ p.queue.senderOpen = false →
      Concluded p ticket s

theorem IsQuiet.concluded {s : Send (Job α)} (quiet : IsQuiet p) (orderly : Orderly p)
    (calm : Calm p) (found : p.queue.sends[ticket]? = some s) : Concluded p ticket s := by
  have at_ticket : p.queue.sendState? ticket = some s.state :=
    Handoff.sendState?_eq_some_iff.mpr ⟨s, found, rfl⟩
  have ended := isEnded_of_sending (quiet.ended orderly).1 at_ticket
  cases state : s.state with
  | ended how =>
    rw [state] at at_ticket
    have sendEnd := Handoff.sendEnd?_eq_some_iff.mpr at_ticket
    cases how with
    | accepted =>
      have starts : p.starts ticket = 1 := by
        rcases orderly.chronicle.started_or_ready sendEnd with starts | ⟨w, job, ready⟩
        · exact starts
        · cases (quiet.nobody w).symm.trans (stage?_of_phase? ready)
      have got := (calm.agrees.accepted_iff sendEnd).mp rfl
      cases orderly.fate found got with
      | resolved w path => exact .resolved w sendEnd starts path
      | down spot panicked same down => exact .down spot sendEnd starts panicked same down
      | underWay w stage pursues => cases (quiet.nobody w).symm.trans pursues.here.1
    | refused e =>
      have grounds := calm.grounded ticket _ at_ticket
      cases e with
      | cancelled => exact absurd calm.given grounds
      | closed =>
        have silent := orderly.chronicle.eventsOf_refused sendEnd
        exact .refused sendEnd silent (grounds.imp_left (receivers_eq_zero_iff orderly.manned).mp)
  | _ => rw [state] at ended; cases ended

end CommandPool.Pool
