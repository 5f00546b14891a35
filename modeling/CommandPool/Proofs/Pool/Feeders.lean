import CommandPool.Pool.Fed
import CommandPool.Proofs.Pool.Acts

/-!
# What a feeder does to its pool

`Feeds` lists what one step of a feeder can be.  Each is at most one step of the pool that
any client could take, so what holds in all runs of a pool holds while it is fed.  `Moves`
lists what one step of the two can be.
-/

namespace CommandPool.Pool

variable {α : Type} {parse : Parse α} {p p' : Pool α} {feeder feeder' : Feeder}

/-! ## Steps of a feeder -/

/-- What a feeder that has read does with the reading: whether it goes on, and the step
of the pool that this is, if it is one. -/
inductive Takes (parse : Parse α) (p : Pool α) :
    Lines.Reading → Option (Label α) → Feeding → Prop where
  | skip (line : String) : commandOf? line = none → Takes parse p (.line line) none .reading
  | reject (line text : String) (error : ParseError) :
      commandOf? line = some text → parse text = .error error →
      Takes parse p (.line line) (some (.reject text error)) .reading
  | submit (line text : String) (job : Job α) :
      commandOf? line = some text → parse text = .ok job →
      Takes parse p (.line line) (some (.submit job)) (.offering p.queue.nextTicket text)
  | eof : Takes parse p .eof none .finished
  | cancelled : Takes parse p .cancelled none .finished
  | fault (fault : Files.Fault) :
      Takes parse p (.fault fault) (some (.unreadable fault)) .finished

/-- What a feeder does that looks at the job it offers. -/
inductive Looks (p : Pool α) (ticket : Nat) (line : String) :
    Option (Label α) → Feeding → Prop where
  | wait : p.queue.sendEnd? ticket = none →
      Looks p ticket line (some (.pollSubmit ticket)) (.offering ticket line)
  | accepted : p.queue.sendEnd? ticket = some .accepted → Looks p ticket line none .reading
  | cancelled : p.queue.sendEnd? ticket = some (.refused .cancelled) →
      Looks p ticket line none .finished
  | dropped : p.queue.sendEnd? ticket = some (.refused .closed) →
      Looks p ticket line (some (.drop line)) .finished

/-- A step of a feeder: it reads and takes the reading, or looks at the job it offers. -/
inductive Feeds (parse : Parse α) (p : Pool α) (feeder : Feeder) :
    Option (Label α) → Feeder → Prop where
  | read {reading : Lines.Reading} {intake : Intake} {l : Option (Label α)} {feeding : Feeding} :
      feeder.feeding = .reading → feeder.intake.poll p.cancelled = some (reading, intake) →
      Takes parse p reading l feeding → Feeds parse p feeder l ⟨intake, feeding⟩
  | look {ticket : Nat} {line : String} {l : Option (Label α)} {feeding : Feeding} :
      feeder.feeding = .offering ticket line → Looks p ticket line l feeding →
      Feeds parse p feeder l ⟨feeder.intake, feeding⟩

/-- The pool after a step, or without one. -/
def stepIf (p : Pool α) (l : Option (Label α)) : Option (Pool α) :=
  match l with
  | some l => p.step l
  | none => some p

theorem takes_of_take {reading : Lines.Reading} {feeding : Feeding}
    (step : Feeder.take parse p reading = some (p', feeding)) :
    ∃ l, Takes parse p reading l feeding ∧ p.stepIf l = some p' := by
  cases reading with
  | line line =>
    simp only [Feeder.take, Feeder.takeLine] at step
    split at step
    next blank => cases step; exact ⟨none, .skip line blank, rfl⟩
    next text command =>
      split at step
      next error parsed =>
        obtain ⟨q, rejected, same⟩ := Option.map_eq_some_iff.mp step
        cases same
        exact ⟨_, .reject line text error command parsed, rejected⟩
      next job parsed =>
        obtain ⟨q, submitted, same⟩ := Option.map_eq_some_iff.mp step
        cases same
        exact ⟨_, .submit line text job command parsed, submitted⟩
  | eof => cases step; exact ⟨none, .eof, rfl⟩
  | cancelled => cases step; exact ⟨none, .cancelled, rfl⟩
  | fault fault =>
    obtain ⟨q, noted, same⟩ := Option.map_eq_some_iff.mp step
    cases same
    exact ⟨_, .fault fault, noted⟩

theorem looks_of_lookAtOffer {ticket : Nat} {line : String} {feeding : Feeding}
    (step : Feeder.lookAtOffer p ticket line = some (p', feeding)) :
    ∃ l, Looks p ticket line l feeding ∧ p.stepIf l = some p' := by
  unfold Feeder.lookAtOffer at step
  split at step
  next running =>
    obtain ⟨q, polled, same⟩ := Option.map_eq_some_iff.mp step
    cases same
    exact ⟨_, .wait running, polled⟩
  next accepted => cases step; exact ⟨none, .accepted accepted, rfl⟩
  next refused => cases step; exact ⟨none, .cancelled refused, rfl⟩
  next refused =>
    obtain ⟨q, dropped, same⟩ := Option.map_eq_some_iff.mp step
    cases same
    exact ⟨_, .dropped refused, dropped⟩

theorem feeds_of_step (step : feeder.step parse p = some (p', feeder')) :
    ∃ l, Feeds parse p feeder l feeder' ∧ p.stepIf l = some p' := by
  unfold Feeder.step at step
  split at step
  next reads =>
    obtain ⟨⟨reading, intake⟩, polled, step⟩ := Option.bind_eq_some_iff.mp step
    obtain ⟨⟨q, feeding⟩, taken, same⟩ := Option.map_eq_some_iff.mp step
    cases same
    obtain ⟨l, takes, stepped⟩ := takes_of_take taken
    exact ⟨l, .read reads polled takes, stepped⟩
  next ticket line offers =>
    obtain ⟨⟨q, feeding⟩, looked, same⟩ := Option.map_eq_some_iff.mp step
    cases same
    obtain ⟨l, looks, stepped⟩ := looks_of_lookAtOffer looked
    exact ⟨l, .look offers looks, stepped⟩
  next => cases step

/-- A feeder neither cancels the run nor closes the pool. -/
theorem kept_of_feeds {l : Option (Label α)} (feeds : Feeds parse p feeder l feeder')
    (m : Label α) (here : l = some m) :
    (Piece.whole m).cancels = false ∧ (Piece.whole m).closes = false := by
  subst here
  cases feeds with
  | read _ _ takes => cases takes <;> exact ⟨rfl, rfl⟩
  | look _ looks => cases looks <;> exact ⟨rfl, rfl⟩

theorem not_finished_of_feeds {l : Option (Label α)} (feeds : Feeds parse p feeder l feeder') :
    feeder.feeding ≠ .finished := by
  cases feeds with
  | read reads => rw [reads]; simp
  | look offers => rw [offers]; simp

/-! ## Steps of a pool and its feeder -/

/-- A piece of the pool, a step of the feeder, or a change of what the feeder has to read. -/
inductive Moves (parse : Parse α) (f : Fed α) : Fed.Label α → Fed α → Prop where
  | pool {l : Piece α} {p : Pool α} :
      f.pool.stepPiece l = some p → Moves parse f (.pool l) ⟨p, f.feeder⟩
  | feed {l : Option (Label α)} {p : Pool α} {feeder : Feeder} :
      Feeds parse f.pool f.feeder l feeder → f.pool.stepIf l = some p →
      Moves parse f .feed ⟨p, feeder⟩
  | input {l : Fed.Label α} (change : Intake → Intake) : Moves parse f l (f.onIntake change)

theorem moves_of_step {f f' : Fed α} {l : Fed.Label α} (step : f.step parse l = some f') :
    Moves parse f l f' := by
  cases l with
  | pool l =>
    obtain ⟨p, piece, rfl⟩ := Option.map_eq_some_iff.mp step
    exact .pool piece
  | feed =>
    obtain ⟨⟨p, feeder⟩, fed, rfl⟩ := Option.map_eq_some_iff.mp step
    obtain ⟨l, feeds, stepped⟩ := feeds_of_step fed
    exact .feed feeds stepped
  | _ =>
    obtain ⟨_, step⟩ := Option.ite_none_right_eq_some.mp step
    cases step
    exact .input _

/-! ## Runs -/

theorem pieces_append (p : Pool α) (ls ms : List (Piece α)) :
    p.pieces (ls ++ ms) = (p.pieces ls).bind (·.pieces ms) := by
  induction ls generalizing p with
  | nil => rfl
  | cons l ls ih =>
    simp only [List.cons_append, pieces, Option.bind_assoc]
    exact congrArg _ (funext fun q => ih q)

theorem pieces_of_stepIf {l : Option (Label α)} (step : p.stepIf l = some p') :
    p.pieces (l.map .whole).toList = some p' := by
  cases l with
  | none => exact step
  | some l =>
    rw [Option.map_some, Option.toList_some, pieces]
    exact Option.bind_eq_some_iff.mpr ⟨p', step, rfl⟩

/-- While a pool is fed it makes a run of its own. -/
theorem pieces_of_steps {f f' : Fed α} {ls : List (Fed.Label α)}
    (run : f.steps parse ls = some f') : ∃ ms, f.pool.pieces ms = some f'.pool := by
  induction ls generalizing f with
  | nil => cases run; exact ⟨[], rfl⟩
  | cons l ls ih =>
    obtain ⟨next, step, rest⟩ := Option.bind_eq_some_iff.mp run
    obtain ⟨later, run⟩ := ih rest
    have first : ∃ now, f.pool.pieces now = some next.pool := by
      cases moves_of_step step with
      | @pool l _ piece => exact ⟨[l], Option.bind_eq_some_iff.mpr ⟨_, piece, rfl⟩⟩
      | feed _ stepped => exact ⟨_, pieces_of_stepIf stepped⟩
      | input => exact ⟨[], rfl⟩
    obtain ⟨now, first⟩ := first
    exact ⟨now ++ later, by rw [pieces_append, first]; exact run⟩

end CommandPool.Pool
