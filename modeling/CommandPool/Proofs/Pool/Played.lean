import CommandPool.Proofs.Pool.Supplies
import Mathlib.Data.Option.Basic

/-!
# Runs on the clock are runs of a supplied pool

A run that is played out on the virtual clock takes one of all the ways in which a feeder
and its workers can overlap.  What happens at a tick is a few steps of the supplied pool
(`Plays.tick`), so what holds however they overlap holds of what the program does
(`run_played`).  The run has to be calm: nothing comes from outside and no attempt cancels.

An attempt changes the world at once when it starts, although it may run for a while.
-/

namespace CommandPool.Pool.Timeline

variable {α ε : Type} {parse : Parse α} {behave : Behaviour α ε} {supply : Supply ε}
variable {changes : ε → ε → Prop} {s s' : State α ε} {g g' g'' : Supplied α ε}

/-! ## Played states -/

/-- It concerns an attempt or a wait of a worker. -/
def Happening.isInner : Happening → Bool
  | .finish _ _ => true
  | .crash _ _ => true
  | .wake _ => true
  | _ => false

/-- The state of a calm run has this fed pool and this world. -/
structure Plays (s : State α ε) (g : Supplied α ε) : Prop where
  pool : s.pool = g.fed.pool
  world : s.world = g.world
  /-- The client is the feeder, or waits after that has finished. -/
  client : s.client = .feeding g.fed.feeder ∨
    s.client = .joining ∧ g.fed.feeder.feeding = .finished
  agenda : ∀ e ∈ s.agenda, e.2.isInner = true

/-- The supplied pool goes on by steps of its own, or stays. -/
def Moves (parse : Parse α) (supply : Supply ε) (changes : ε → ε → Prop)
    (g g' : Supplied α ε) : Prop :=
  ∃ ls, g.steps parse supply ls = some g' ∧
    Throughout (Supplied.step parse supply) (Supplied.IsOwn changes) g ls

theorem Moves.refl (g : Supplied α ε) : Moves parse supply changes g g := ⟨[], rfl, trivial⟩

theorem Moves.head {l : Supplied.Label α ε} (own : Supplied.IsOwn changes g l)
    (step : g.step parse supply l = some g') (rest : Moves parse supply changes g' g'') :
    Moves parse supply changes g g'' := by
  obtain ⟨ls, steps, throughout⟩ := rest
  exact ⟨l :: ls, Option.bind_eq_some_iff.mpr ⟨g', step, steps⟩,
    throughout_cons own step throughout⟩

theorem Moves.single {l : Supplied.Label α ε} (own : Supplied.IsOwn changes g l)
    (step : g.step parse supply l = some g') : Moves parse supply changes g g' :=
  .head own step (.refl g')

theorem Moves.trans (first : Moves parse supply changes g g')
    (rest : Moves parse supply changes g' g'') : Moves parse supply changes g g'' := by
  obtain ⟨ls, steps, throughout⟩ := first
  induction ls generalizing g with
  | nil =>
    cases steps
    exact rest
  | cons l ls ih =>
    obtain ⟨next, step, steps⟩ := Option.bind_eq_some_iff.mp steps
    exact .head throughout.1 step (ih steps (throughout.2 next step))

/-- After a tick the run has a pool and a world to which these move. -/
def Follows (parse : Parse α) (supply : Supply ε) (changes : ε → ε → Prop)
    (g : Supplied α ε) (s : State α ε) : Prop :=
  ∃ g', Moves parse supply changes g g' ∧ Plays s g'

theorem Plays.follows (plays : Plays s g) : Follows parse supply changes g s :=
  ⟨g, .refl g, plays⟩

/-- No attempt cancels the run, and what attempts do to the world are such changes. -/
structure Calm (behave : Behaviour α ε) (changes : ε → ε → Prop) : Prop where
  uncancelled : ∀ a n world, (behave a n world).1.cancels = false
  changes : ∀ a n world, changes world (behave a n world).2

/-! ## The agenda -/

theorem mem_enter {e : Nat × Happening} {time : Nat} {h : Happening} {agenda : Agenda}
    (member : e ∈ Agenda.enter time h agenda) : e = (time, h) ∨ e ∈ agenda := by
  induction agenda with
  | nil => exact Or.inl (List.mem_singleton.mp member)
  | cons first agenda ih =>
    rw [Agenda.enter] at member
    split at member
    next =>
      rcases List.mem_cons.mp member with rfl | member
      · exact Or.inr List.mem_cons_self
      · exact (ih member).imp_right (List.mem_cons_of_mem first)
    next => exact List.mem_cons.mp member

theorem Plays.schedule (plays : Plays s g) (wait : Nat) {h : Happening}
    (inner : h.isInner = true) : Plays (s.schedule wait h) g where
  pool := plays.pool
  world := plays.world
  client := plays.client
  agenda := by
    intro e member
    rcases mem_enter member with rfl | member
    · exact inner
    · exact plays.agenda e member

theorem Plays.scheduleWake (plays : Plays s g) (w : Nat) : Plays (s.scheduleWake w) g := by
  unfold State.scheduleWake
  split
  next => exact plays.schedule _ rfl
  next => exact plays

theorem Plays.scheduleAttempt (plays : Plays s g) (w : Nat) {a : Attempt}
    (calm : a.cancels = false) : Plays (s.scheduleAttempt w a) g := by
  unfold State.scheduleAttempt
  rw [calm]
  refine plays.schedule _ ?_
  cases a.ending <;> rfl

/-! ## Steps of the pool -/

/-- The run takes a step of the pool, and its client may change. -/
theorem Plays.stepPool {l : Label α} {feeder : Feeder} (plays : Plays s g) (client : Client α)
    (step : { s with client := client }.stepPool l = some s')
    (now : client = .feeding feeder ∨ client = .joining ∧ feeder.feeding = .finished) :
    ∃ p', g.fed.pool.step l = some p' ∧ Plays s' ⟨⟨p', feeder⟩, g.world⟩ := by
  obtain ⟨p', stepped, rfl⟩ := Option.map_eq_some_iff.mp step
  have here : s.pool.step l = some p' := stepped
  rw [plays.pool] at here
  exact ⟨p', here, rfl, plays.world, now, plays.agenda⟩

/-- The pool takes a step that its workers, the clock or the client can take. -/
theorem moves_pool {l : Label α} {p' : Pool α} (own : Fed.IsOwn g.fed (.pool (.whole l)))
    (step : g.fed.pool.step l = some p') :
    Moves parse supply changes g ⟨⟨p', g.fed.feeder⟩, g.world⟩ := by
  have fed : g.fed.step parse (.pool (.whole l)) = some ⟨p', g.fed.feeder⟩ :=
    Option.map_eq_some_iff.mpr ⟨p', step, rfl⟩
  exact .single own (l := .fed (.pool (.whole l))) (Option.map_eq_some_iff.mpr ⟨_, fed, rfl⟩)

/-- A step that a worker, or the clock, can take. -/
theorem Plays.moves {l : Label α} (plays : Plays s g)
    (own : Fed.IsOwn g.fed (.pool (.whole l))) (step : s.stepPool l = some s') :
    Follows parse supply changes g s' := by
  obtain ⟨p', stepped, plays'⟩ := plays.stepPool s.client step plays.client
  exact ⟨_, moves_pool own stepped, plays'⟩

/-! ## Ticks -/

theorem Plays.occur {h : Happening} (plays : Plays s g) (inner : h.isInner = true) :
    Follows parse supply changes g (s.occur h) := by
  have after : ∀ (l : Label α) (later : State α ε → State α ε),
      (∀ s' g', Plays s' g' → Plays (later s') g') → Fed.IsOwn g.fed (.pool (.whole l)) →
      Follows parse supply changes g (((s.stepPool l).map later).getD s) := by
    intro l later kept own
    cases step : s.stepPool l with
    | none => exact plays.follows
    | some s' =>
      obtain ⟨g', moves, plays'⟩ := plays.moves own step
      exact ⟨g', moves, kept s' g' plays'⟩
  have alone : ∀ l : Label α, Fed.IsOwn g.fed (.pool (.whole l)) →
      Follows parse supply changes g ((s.stepPool l).getD s) := by
    intro l own
    have follows := after l id (fun _ _ => id) own
    rwa [Option.map_id_fun, id] at follows
  cases h with
  | finish w r =>
    exact after (.finish w r) (·.scheduleWake w) (fun _ _ plays' => plays'.scheduleWake w)
      ⟨rfl, rfl, rfl, nofun⟩
  | crash w t => exact alone (.crash w t) ⟨rfl, rfl, rfl, nofun⟩
  | wake w => exact alone (.wake w) ⟨rfl, rfl, rfl, nofun⟩
  | _ => cases inner

theorem Plays.occurDue (plays : Plays s g) (tick : s.occurDue = some s') :
    Follows parse supply changes g s' := by
  unfold State.occurDue at tick
  split at tick
  next time h agenda due =>
    obtain ⟨_, tick⟩ := Option.ite_none_right_eq_some.mp tick
    cases tick
    have all := plays.agenda
    rw [due] at all
    obtain ⟨inner, later⟩ := List.forall_mem_cons.mp all
    have before : Plays { s with agenda := agenda } g :=
      ⟨plays.pool, plays.world, plays.client, later⟩
    exact before.occur inner
  next => cases tick

/-- An attempt starts, and changes the world. -/
theorem Plays.startNext (plays : Plays s g) (calm : Calm behave changes)
    (tick : s.startNext behave = some s') : Follows parse supply changes g s' := by
  obtain ⟨⟨phase, w⟩, _, starts⟩ := List.exists_of_findSome?_eq_some tick
  cases phase with
  | ready t =>
    obtain ⟨next, step, rfl⟩ := Option.map_eq_some_iff.mp starts
    obtain ⟨g', moves, plays'⟩ := plays.moves (l := .start w) ⟨rfl, rfl, rfl, nofun⟩ step
    have changed := calm.changes t.job.action (t.retries + 1) next.world
    rw [plays'.world] at changed
    have change : Moves parse supply changes g' _ :=
      .single (l := .change _) changed rfl
    have onward : ∀ world : ε, Plays { next with world := world } ⟨g'.fed, world⟩ :=
      fun _ => ⟨plays'.pool, rfl, plays'.client, plays'.agenda⟩
    refine ⟨_, moves.trans change, ?_⟩
    simp only [plays'.world]
    exact (onward _).scheduleAttempt w (calm.uncancelled _ _ _)
  | _ => cases starts

theorem Plays.lookNext (plays : Plays s g) (tick : s.lookNext = some s') :
    Follows parse supply changes g s' := by
  obtain ⟨p', looks, rfl⟩ := Option.map_eq_some_iff.mp tick
  obtain ⟨⟨phase, w⟩, member, looks⟩ := List.exists_of_findSome?_eq_some looks
  have at_w : s.pool.phase? w = some phase := List.mk_mem_zipIdx_iff_getElem?.mp member
  have step : s.stepPool (.look w) = some (s.withPool p') :=
    congrArg (Option.map s.withPool) (Option.bind_eq_some_iff.mpr ⟨phase, at_w, looks⟩)
  exact plays.moves (l := .look w) ⟨rfl, rfl, rfl, nofun⟩ step

/-- The client feeds, and begins to wait once it has finished. -/
theorem stepClient_feeding {feeder : Feeder} (feeding : s.client = .feeding feeder) :
    s.stepClient parse =
      if feeder.feeding = .finished then s.beginJoin
      else (feeder.step parse s.pool).map fun (p, feeder) =>
        { s with client := .feeding feeder }.withPool p := by
  obtain ⟨intake, doing⟩ := feeder
  rw [State.stepClient, feeding]
  cases doing <;> rfl

theorem Plays.stepClient (plays : Plays s g) (tick : s.stepClient parse = some s') :
    Follows parse supply changes g s' := by
  rcases plays.client with feeding | ⟨joining, _⟩
  · rw [stepClient_feeding feeding] at tick
    split at tick
    next finished =>
      obtain ⟨p', stepped, plays'⟩ := plays.stepPool .joining tick (Or.inr ⟨rfl, finished⟩)
      exact ⟨_, moves_pool ⟨rfl, rfl, rfl, fun _ => finished⟩ stepped, plays'⟩
    next =>
      obtain ⟨⟨p', feeder'⟩, stepped, rfl⟩ := Option.map_eq_some_iff.mp tick
      rw [plays.pool] at stepped
      have fed : g.fed.step parse .feed = some ⟨p', feeder'⟩ :=
        Option.map_eq_some_iff.mpr ⟨_, stepped, rfl⟩
      refine ⟨⟨⟨p', feeder'⟩, g.world⟩, .single (l := .fed .feed) trivial ?_, rfl, plays.world,
        Or.inl rfl, plays.agenda⟩
      exact Option.map_eq_some_iff.mpr ⟨_, fed, rfl⟩
  · rw [State.stepClient, joining] at tick
    exact plays.moves (l := .join) ⟨rfl, rfl, rfl, nofun⟩ tick

/-- Before the client waits, whatever is read can be taken. -/
theorem take_ne_none {p : Pool α} (unjoined : p.joined = none) (reading : Lines.Reading) :
    Feeder.take parse p reading ≠ none := by
  cases reading with
  | line line =>
    rw [Feeder.take, Feeder.takeLine]
    split
    next => exact Option.some_ne_none _
    next text _ =>
      cases parse text <;> simp [step, submit, unjoined]
  | fault fault => simp [Feeder.take, step, unjoined]
  | _ => exact Option.some_ne_none _

/-- A feeder that reads and cannot go on is held up by its input. -/
theorem hungers_of_step_eq_none {f : Fed α} (tidy : Fed.Tidy f) (chronicle : Chronicle f.pool)
    (reads : f.feeder.feeding = .reading) (stuck : f.feeder.step parse f.pool = none) :
    f.hungers = true := by
  have unjoined : f.pool.joined = none := by
    cases joined : f.pool.joined with
    | none => rfl
    | some k =>
      have gone := (Handoff.senderGone_iff.mp (chronicle.joined k joined).1).1
      cases reads.symm.trans (tidy.closed gone)
  rw [Fed.hungers, reads]
  cases polled : f.feeder.intake.poll f.pool.cancelled with
  | none => rfl
  | some read =>
    rw [Feeder.step, reads] at stuck
    simp only [polled, Option.bind_some, Option.map_eq_none_iff] at stuck
    exact absurd stuck (take_ne_none unjoined read.1)

/-- The client draws when its feeder cannot go on. -/
theorem Plays.drawBytes (plays : Plays s g) (tidy : Fed.Tidy g.fed)
    (chronicle : Chronicle g.fed.pool) (stuck : s.stepClient parse = none)
    (tick : s.drawBytes supply = some s') : Follows parse supply changes g s' := by
  unfold State.drawBytes at tick
  split at tick
  next reader count feeding =>
    cases tick
    obtain ⟨⟨p, feeder⟩, world⟩ := g
    have here : feeder = ⟨.drawn reader count, .reading⟩ := by
      rcases plays.client with feeds | ⟨joining, _⟩
      · exact (Client.feeding.inj (feeding.symm.trans feeds)).symm
      · cases feeding.symm.trans joining
    subst here
    rw [stepClient_feeding feeding, if_neg nofun, Option.map_eq_none_iff, plays.pool] at stuck
    have hungers := hungers_of_step_eq_none tidy chronicle rfl stuck
    have found : s.world = world := plays.world
    subst found
    have fed : Fed.step parse ⟨p, ⟨.drawn reader count, .reading⟩⟩
        (.draw (supply.draw s.world count)) = some _ := if_pos hungers
    refine ⟨_, .single (l := .draw) trivial (Option.map_eq_some_iff.mpr ⟨_, fed, rfl⟩),
      plays.pool, rfl, Or.inl rfl, plays.agenda⟩
  next => cases tick

theorem Plays.stepDrawing (plays : Plays s g) (tidy : Fed.Tidy g.fed)
    (chronicle : Chronicle g.fed.pool) (tick : s.stepDrawing supply parse = some s') :
    Follows parse supply changes g s' := by
  unfold State.stepDrawing at tick
  split at tick
  next =>
    rcases (Option.orElse_eq_some _ _ _).mp tick with goes | ⟨stuck, draws⟩
    · exact plays.stepClient goes
    · exact plays.drawBytes tidy chronicle stuck draws
  next => cases tick

theorem Plays.advance (plays : Plays s g) (tick : s.advance = some s') :
    Follows parse supply changes g s' := by
  obtain ⟨time, _, tick⟩ := Option.bind_eq_some_iff.mp tick
  obtain ⟨_, tick⟩ := Option.ite_none_right_eq_some.mp tick
  cases tick
  exact ⟨g, .refl g, plays.pool, plays.world, plays.client, plays.agenda⟩

/-- In a tick of a calm run the supplied pool moves on by steps of its own. -/
theorem Plays.tick (plays : Plays s g) (tidy : Fed.Tidy g.fed) (chronicle : Chronicle g.fed.pool)
    (calm : Calm behave changes) (tick : s.tick behave supply parse = some s') :
    Follows parse supply changes g s' := by
  unfold State.tick at tick
  split at tick
  next => cases tick
  next =>
    simp only [Option.orElse_eq_some] at tick
    rcases tick with due | ⟨_, drawing | ⟨_, starts | ⟨_, looks | ⟨_, client | ⟨_, advance⟩⟩⟩⟩⟩
    · exact plays.occurDue due
    · exact plays.stepDrawing tidy chronicle drawing
    · exact plays.startNext calm starts
    · exact plays.lookNext looks
    · exact plays.stepClient client
    · exact plays.advance advance

/-! ## Runs -/

theorem Plays.ticks {budget : Nat} (plays : Plays s g) (tidy : Fed.Tidy g.fed)
    (chronicle : Chronicle g.fed.pool) (calm : Calm behave changes) :
    Follows parse supply changes g (s.ticks behave supply parse budget) := by
  induction budget generalizing s g with
  | zero => exact plays.follows
  | succ budget ih =>
    rw [State.ticks]
    cases ticked : s.tick behave supply parse with
    | none => exact plays.follows
    | some s' =>
      obtain ⟨g', moves, plays'⟩ := plays.tick tidy chronicle calm ticked
      obtain ⟨ls, steps, own⟩ := id moves
      obtain ⟨ms, fed, owns, _⟩ := Supplied.fed_steps steps own
      obtain ⟨_, pieces⟩ := pieces_of_steps fed
      obtain ⟨last, rest, ends⟩ :=
        ih plays' (Fed.tidy_steps tidy fed owns) (chronicle_pieces chronicle pieces).1
      exact ⟨last, moves.trans rest, ends⟩

/-- A run that is played out is one of the runs of the supplied pool. -/
theorem run_played (settings : Settings) {intake : Intake} (supply : Supply ε) (world : ε)
    (settled : intake.Settled) (calm : Calm behave changes) :
    Follows parse supply changes ⟨⟨started settings false, .new intake⟩, world⟩
      (run behave supply parse (started settings false) world (.feeding (.new intake)) []) := by
  have plays : ∀ p : Pool α, Plays (State.mk 0 p world [] (.feeding (.new intake))
      (p.history.map (0, ·)) []) ⟨⟨p, .new intake⟩, world⟩ :=
    fun _ => ⟨rfl, rfl, Or.inl rfl, nofun⟩
  exact (plays (started settings false)).ticks (Fed.tidy_started settings settled)
    (chronicle_started settings false) calm

end CommandPool.Pool.Timeline
