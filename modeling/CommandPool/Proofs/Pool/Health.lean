import CommandPool.Proofs.Pool.Quiet
import CommandPool.Proofs.Pool.Schedules
import CommandPool.Proofs.Pool.Thorough

/-!
# Pools to which nothing bad happens

As long as a run is not cancelled and no attempt panics, no send to an open pool is refused, and
after the join each accepted job was resolved (`Hale`).  What a step adds to such a pool is a
job that was submitted or a line that was rejected, or neither (`Advances`).
-/

namespace CommandPool.Pool

variable {α : Type} {p p' : Pool α}

/-! ## Healthy pools -/

/-- The state of a run that is not cancelled and in which no attempt panics. -/
structure Hale (p : Pool α) : Prop where
  orderly : Orderly p
  steady : Steady p
  tallied : Tallied p
  staffed : 0 < p.workers.length
  unharmed : ∀ w, p.phase? w ≠ some .panicked

theorem hale_started {s : Settings} (staffed : 0 < s.workers) :
    Hale (started s false : Pool α) where
  orderly := orderly_started s false
  steady := steady_started s
  tallied := tallied_started s false
  staffed := by
    show 0 < (List.replicate s.workers (.idle : Phase α)).length
    rwa [List.length_replicate]
  unharmed := by
    intro w down
    cases (List.mem_replicate.mp (List.mem_of_getElem? down)).2

theorem hale_stepPiece {l : Piece α} (hale : Hale p) (step : p.stepPiece l = some p')
    (cancels : l.cancels = false) (crashes : l.crashes = false)
    (timely : l.job?.isSome = true → p.queue.senderOpen = true) : Hale p' := by
  obtain ⟨orderly, steady, tallied, staffed, unharmed⟩ := hale
  have agrees := steady.agrees
  obtain ⟨keeps, _⟩ := change_stepPiece agrees step
  obtain ⟨new, adds, _⟩ := adds_stepPiece step
  exact ⟨orderly_stepPiece orderly step, steady_stepPiece steady step cancels timely,
    tallied.adds adds, keeps.count ▸ staffed, unharmed_stepPiece agrees unharmed step crashes⟩

/-- While the pool is open no send is refused. -/
theorem Hale.sendEnd_eq {ticket : Nat} {how : SendEnd} (hale : Hale p)
    (open_ : p.queue.senderOpen = true) (ended : p.queue.sendEnd? ticket = some how) :
    how = .accepted := by
  obtain ⟨phase, at_zero⟩ : ∃ phase, p.phase? 0 = some phase :=
    ⟨_, List.getElem?_eq_getElem hale.staffed⟩
  refine hale.steady.accepted_of_present open_ at_zero ?_ ended
  cases phase with
  | stopped =>
    cases (Handoff.senderGone_iff.mp (hale.steady.stopped 0 at_zero)).1.symm.trans open_
  | panicked => exact absurd at_zero (hale.unharmed 0)
  | _ => rfl

theorem Hale.not_panicked {spot : Spot} (hale : Hale p) : Event.panicked spot ∉ p.history :=
  fun panicked => hale.unharmed _ (phase?_of_isDown (hale.orderly.reported.isDown panicked))

/-- After the join each accepted job was started once and resolved along a path of its
tree. -/
theorem Hale.resolves_of_isJoined {ticket : Nat} {s : Send (Job α)} (hale : Hale p)
    (joined : p.isJoined = true) (found : p.queue.sends[ticket]? = some s)
    (accepted : p.queue.sendEnd? ticket = some .accepted) : p.starts ticket = 1 ∧
      ∃ w, Resolves w ticket 0 s.job.toChain (resolutions (eventsOf p.history ticket)) := by
  have chronicle := hale.orderly.chronicle
  refine ⟨(chronicle.starts_iff_of_isJoined joined ticket).mpr accepted, ?_⟩
  exact chronicle.resolves_of_isJoined joined found accepted
    fun spot panicked => absurd panicked hale.not_panicked

/-! ## Refusals -/

/-- A line that is no command, with the reason. -/
def Event.refusal? : Event → Option (String × ParseError)
  | .rejected line error => some (line, error)
  | _ => none

/-- The line that a piece rejects, with the reason. -/
def Piece.refusal? : Piece α → Option (String × ParseError)
  | .whole (.reject line error) => some (line, error)
  | _ => none

/-- The lines that were rejected, the earliest first. -/
def refusals (p : Pool α) : List (String × ParseError) :=
  p.history.reverse.filterMap (·.refusal?)

/-- A line is noted as rejected by the piece that rejects it. -/
theorem refusals_stepPiece {l : Piece α} (step : p.stepPiece l = some p') :
    p'.refusals = p.refusals ++ l.refusal?.toList := by
  obtain ⟨new, adds, notes⟩ := adds_stepPiece step
  have noted : new.reverse.filterMap (·.refusal?) = l.refusal?.toList := by
    cases notes with
    | plain accepts plain =>
      have silent : l.refusal? = none := by
        rcases l with (_ | _) | _ <;> first | rfl | cases accepts
      rw [silent, List.filterMap_eq_nil_iff.mpr]
      · rfl
      · intro e member
        have unrejected := (plain e (List.mem_reverse.mp member)).2
        cases e <;> first | rfl | cases unrejected
    | waited w spot running => rfl
    | rejected line error => rfl
  rw [refusals, adds.history, List.reverse_append, List.filterMap_append, noted]
  rfl

/-- From `p` to `p'` this job was submitted and this line was rejected, if there are any.  What
was accepted stays so. -/
structure Advances (p p' : Pool α) (job : Option (Job α))
    (refusal : Option (String × ParseError)) : Prop where
  jobs : p'.queue.jobs = p.queue.jobs ++ job.toList
  refusals : p'.refusals = p.refusals ++ refusal.toList
  accepted : ∀ ticket, p.queue.sendEnd? ticket = some .accepted →
    p'.queue.sendEnd? ticket = some .accepted

theorem Advances.length_sends {job : Option (Job α)} {refusal : Option (String × ParseError)}
    (advances : Advances p p' job refusal) :
    p'.queue.sends.length = p.queue.sends.length + job.toList.length := by
  have sent := congrArg List.length advances.jobs
  simpa only [Handoff.jobs, List.length_append, List.length_map] using sent

theorem advances_stepPiece {l : Piece α} (agrees : p.queue.Agrees)
    (step : p.stepPiece l = some p') : Advances p p' l.job? l.refusal? where
  jobs := (asks_stepPiece step).jobs
  refusals := refusals_stepPiece step
  accepted _ := (change_stepPiece agrees step).1.sound.extends_.sendEnd?

/-- A step of the pool, or none, that leaves it open and healthy. -/
theorem advances_stepIf {l : Option (Label α)} (hale : Hale p) (open_ : p.queue.senderOpen = true)
    (step : p.stepIf l = some p') (mild : ∀ m, l = some m → (Piece.whole m).cancels = false ∧
      (Piece.whole m).crashes = false ∧ (Piece.whole m).closes = false) :
    Hale p' ∧ p'.queue.senderOpen = true ∧
      Advances p p' (l.bind fun m => (Piece.whole m).job?)
        (l.bind fun m => (Piece.whole m).refusal?) := by
  cases l with
  | none =>
    cases step
    exact ⟨hale, open_, (List.append_nil _).symm, (List.append_nil _).symm, fun _ => id⟩
  | some l =>
    obtain ⟨cancels, crashes, closes⟩ := mild l rfl
    have piece : p.stepPiece (.whole l) = some p' := step
    refine ⟨hale_stepPiece hale piece cancels crashes fun _ => open_, ?_,
      advances_stepPiece hale.steady.agrees piece⟩
    rw [(asks_stepPiece piece).senderOpen, open_, closes]
    rfl

/-- Each refusal is one count of a failure and one entry that names the line, and there are no
other rejections. -/
theorem rejections_eq (p : Pool α) : p.rejections = p.refusals.length := by
  rw [rejections, refusals, List.length_filterMap_eq_countP, List.countP_reverse]
  refine List.countP_congr fun e _ => ?_
  cases e <;> simp [Event.isRejection, Event.refusal?]

end CommandPool.Pool
