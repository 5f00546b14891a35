import CommandPool.Pool.Sourced
import CommandPool.Proofs.Pool.Health

/-!
# Feeding from any source

A feeder takes the lines of its source one by one.  For each that holds a command it asks the
parser once, and for nothing else.  What the parser refuses is rejected, and what it makes a
job of is submitted, and the next line is read only when that job is accepted.  So the
questions, the jobs and the rejections of a run are those of the commands in front of the
first reading that is no line, in their order.

The fed pools of `CommandPool.Pool.Fed`, whose input is bytes and whose parser is a function,
make runs of this kind.
-/

namespace CommandPool.Pool

open Lines (Reading linesOf)

variable {α σ : Type} {p p' : Pool α}

namespace Sourced

variable {ask : Parser α σ} {f f' f'' : Sourced α σ} {reading : Reading}

/-! ## One reading -/

/-- The parser as it answers now. -/
def parseNow (ask : Parser α σ) (memory : σ) : Parse α := fun text => ((ask text).run memory).1

/-- What the parser remembers after a reading: it is asked if the reading is a line that holds
a command. -/
def remember (ask : Parser α σ) (memory : σ) : Reading → σ
  | .line line =>
    match commandOf? line with
    | some text => ((ask text).run memory).2
    | none => memory
  | _ => memory

/-- A feeder takes a reading as if its parser were the function of its present answers. -/
theorem run_take (ask : Parser α σ) (p : Pool α) (reading : Reading) (memory : σ) :
    (take ask p reading).run memory =
      (Feeder.take (parseNow ask memory) p reading, remember ask memory reading) := by
  cases reading with
  | line line =>
    simp only [take, takeLine, Feeder.take, Feeder.takeLine, remember]
    cases commandOf? line with
    | none => rfl
    | some text =>
      cases answer : (ask text).run memory with
      | mk result memory' =>
        have now : parseNow ask memory text = result := congrArg Prod.fst answer
        simp only [now, StateT.run_bind, answer]
        cases result <;> rfl
  | _ => rfl

/-- The piece of the pool that a label stands for, unless it is the feeder's. -/
def Label.piece? : Label α → Option (Piece α)
  | .piece l => some l
  | .join => some (.whole .beginJoin)
  | _ => none

/-- The piece submits no job and rejects no line, and closes the pool only for a feeder that is
finished. -/
structure Leaves (feeding : Feeding) (l : Piece α) : Prop where
  job : l.job? = none
  refusal : l.refusal? = none
  closes : l.closes = true → feeding = .finished

theorem leaves_of_begins {feeding : Feeding} {l : Piece α} (begins : l.begins = false) :
    Leaves feeding l := by
  have all : l.job? = none ∧ l.refusal? = none ∧ l.closes = false := by
    rcases l with (_ | _) | _ <;> first | exact ⟨rfl, rfl, rfl⟩ | cases begins
  obtain ⟨job, refusal, open_⟩ := all
  exact ⟨job, refusal, fun closes => absurd (open_.symm.trans closes) Bool.false_ne_true⟩

/-- What a step is. -/
inductive Does (ask : Parser α σ) (f f' : Sourced α σ) : Label α → Prop where
  | piece {l : Label α} {m : Piece α} : l.piece? = some m → Leaves f.feeding m →
      f.pool.stepPiece m = some f'.pool → f'.feeding = f.feeding → f'.memory = f.memory →
      Does ask f f' l
  | read {reading : Reading} {l : Option (Pool.Label α)} : f.feeding = .reading →
      Takes (parseNow ask f.memory) f.pool reading l f'.feeding →
      f.pool.stepIf l = some f'.pool → f'.memory = remember ask f.memory reading →
      Does ask f f' (.read reading)
  | look {ticket : Nat} {line : String} {l : Option (Pool.Label α)} :
      f.feeding = .offering ticket line → Looks f.pool ticket line l f'.feeding →
      f.pool.stepIf l = some f'.pool → f'.memory = f.memory → Does ask f f' .look

theorem does_of_step {l : Label α} (step : f.step ask l = some f') : Does ask f f' l := by
  cases l with
  | piece l =>
    simp only [Sourced.step] at step
    split at step
    next => cases step
    next begins =>
      obtain ⟨p, piece, rfl⟩ := Option.map_eq_some_iff.mp step
      exact .piece rfl (leaves_of_begins (Bool.eq_false_iff.mpr begins)) piece rfl rfl
  | join =>
    simp only [Sourced.step] at step
    split at step
    next done =>
      obtain ⟨p, piece, rfl⟩ := Option.map_eq_some_iff.mp step
      exact .piece rfl ⟨rfl, rfl, fun _ => done⟩ piece rfl rfl
    next => cases step
  | read reading =>
    simp only [Sourced.step, run_take] at step
    split at step
    next reads =>
      obtain ⟨⟨p, feeding⟩, taken, rfl⟩ := Option.map_eq_some_iff.mp step
      obtain ⟨l, takes, stepped⟩ := takes_of_take taken
      exact .read reads takes stepped rfl
    next => cases step
  | look =>
    simp only [Sourced.step] at step
    split at step
    next ticket line offers =>
      obtain ⟨⟨p, feeding⟩, looked, rfl⟩ := Option.map_eq_some_iff.mp step
      obtain ⟨l, looks, stepped⟩ := looks_of_lookAtOffer looked
      exact .look offers looks stepped rfl
    next => cases step

/-! ## The state of a run -/

/-- The run is cancelled or an attempt panics. -/
def Label.harms : Label α → Bool
  | .piece l => l.cancels || l.crashes
  | _ => false

theorem Label.harmless {l : Label α} {m : Piece α} (calm : l.harms = false)
    (here : l.piece? = some m) : m.cancels = false ∧ m.crashes = false := by
  cases l <;> cases here
  · exact Bool.or_eq_false_iff.mp calm
  · exact ⟨rfl, rfl⟩

/-- The state of such a run.  Every job is accepted, but for one that is on offer. -/
structure Fit (f : Sourced α σ) : Prop where
  hale : Hale f.pool
  closed : f.pool.queue.senderOpen = false → f.feeding = .finished
  accepted : ∀ ticket < f.pool.queue.sends.length,
    f.pool.queue.sendEnd? ticket = some .accepted ∨ ∃ line, f.feeding = .offering ticket line

theorem Fit.open_ (fit : Fit f) (busy : f.feeding ≠ .finished) :
    f.pool.queue.senderOpen = true :=
  Bool.of_not_eq_false fun closed => busy (fit.closed closed)

theorem Fit.all_accepted (fit : Fit f)
    (unoffered : ∀ ticket line, f.feeding ≠ .offering ticket line)
    (ticket : Nat) (inside : ticket < f.pool.queue.sends.length) :
    f.pool.queue.sendEnd? ticket = some .accepted :=
  (fit.accepted ticket inside).resolve_right fun ⟨line, offers⟩ => unoffered ticket line offers

/-- A feeder that takes a reading does at most one mild step of the pool. -/
theorem mild_of_takes {parse : Parse α} {l : Option (Pool.Label α)} {feeding : Feeding}
    (takes : Takes parse p reading l feeding) (m : Pool.Label α) (here : l = some m) :
    (Piece.whole m).cancels = false ∧ (Piece.whole m).crashes = false ∧
      (Piece.whole m).closes = false := by
  subst here
  cases takes <;> exact ⟨rfl, rfl, rfl⟩

theorem mild_of_looks {ticket : Nat} {line : String} {l : Option (Pool.Label α)}
    {feeding : Feeding} (looks : Looks p ticket line l feeding) (m : Pool.Label α)
    (here : l = some m) : (Piece.whole m).cancels = false ∧ (Piece.whole m).crashes = false ∧
      (Piece.whole m).closes = false := by
  subst here
  cases looks <;> exact ⟨rfl, rfl, rfl⟩

theorem fit_step {l : Label α} (fit : Fit f) (calm : l.harms = false)
    (step : f.step ask l = some f') : Fit f' := by
  have agrees := fit.hale.steady.agrees
  cases does_of_step step with
  | piece here leaves piece feeding _ =>
    obtain ⟨cancels, crashes⟩ := Label.harmless calm here
    have advances := advances_stepPiece agrees piece
    refine ⟨hale_stepPiece fit.hale piece cancels crashes (by simp [leaves.job]), ?_, ?_⟩
    · rw [(asks_stepPiece piece).senderOpen, Bool.and_eq_false_iff, Bool.not_eq_false', feeding]
      exact (·.elim fit.closed leaves.closes)
    · intro ticket inside
      rw [advances.length_sends, leaves.job] at inside
      rw [feeding]
      exact (fit.accepted ticket inside).imp_left (advances.accepted ticket)
  | read reads takes stepped =>
    have open_ := fit.open_ (by simp [reads])
    obtain ⟨hale, open', advances⟩ := advances_stepIf fit.hale open_ stepped (mild_of_takes takes)
    refine ⟨hale, (absurd open' <| Bool.eq_false_iff.mp ·), fun ticket inside => ?_⟩
    by_cases before : ticket < f.pool.queue.sends.length
    · exact Or.inl (advances.accepted ticket (fit.all_accepted (by simp [reads]) ticket before))
    · rw [advances.length_sends] at inside
      generalize f'.feeding = feeding at takes ⊢
      cases takes with
      | submit line text job =>
        have last : ticket = f.pool.queue.sends.length :=
          Nat.le_antisymm (Nat.le_of_lt_succ inside) (Nat.le_of_not_lt before)
        exact Or.inr ⟨text, by rw [last]; rfl⟩
      | _ => exact absurd inside before
  | look offers looks stepped =>
    have open_ := fit.open_ (by simp [offers])
    obtain ⟨hale, open', advances⟩ := advances_stepIf fit.hale open_ stepped (mild_of_looks looks)
    refine ⟨hale, (absurd open' <| Bool.eq_false_iff.mp ·), fun ticket inside => ?_⟩
    rw [advances.length_sends] at inside
    generalize f'.feeding = feeding at looks ⊢
    have before := offers ▸ fit.accepted ticket
    cases looks with
    | wait => exact (before inside).imp_left (advances.accepted ticket)
    | accepted accepted =>
      rcases before inside with already | ⟨line, same⟩
      · exact Or.inl (advances.accepted ticket already)
      · cases same
        exact Or.inl (advances.accepted _ accepted)
    | cancelled refused => cases fit.hale.sendEnd_eq open_ refused
    | dropped refused => cases fit.hale.sendEnd_eq open_ refused

/-! ## What a run comes to -/

/-- The reading that a step takes. -/
def Label.read? : Label α → Option Reading
  | .read reading => some reading
  | _ => none

theorem Label.read?_of_piece {l : Label α} {m : Piece α} (here : l.piece? = some m) :
    l.read? = none := by
  cases l <;> first | rfl | cases here

/-- The readings of a run. -/
def readings (ls : List (Label α)) : List Reading := ls.filterMap (·.read?)

theorem readings_cons_piece {l : Label α} {m : Piece α} (here : l.piece? = some m)
    (ls : List (Label α)) : readings (l :: ls) = readings ls := by
  rw [readings, List.filterMap_cons, Label.read?_of_piece here]
  rfl

/-- The jobs that answers of a parser are. -/
def made (answers : List (Except ParseError (Job α))) : List (Job α) :=
  answers.filterMap (·.toOption)

/-- The texts that a parser has refused, with its reasons. -/
def turnedDown (texts : List String) (answers : List (Except ParseError (Job α))) :
    List (String × ParseError) :=
  (texts.zip answers).filterMap fun
    | (text, .error e) => some (text, e)
    | (_, .ok _) => none

/-- From `f` to `f'` the parser was asked these texts, in order, and gave these answers.  The
jobs among them were submitted, and the other texts were rejected. -/
structure Deals (ask : Parser α σ) (f f' : Sourced α σ) (texts : List String)
    (answers : List (Except ParseError (Job α))) : Prop where
  count : answers.length = texts.length
  asked : (texts.mapM ask).run f.memory = (answers, f'.memory)
  jobs : f'.pool.queue.jobs = f.pool.queue.jobs ++ made answers
  refusals : f'.pool.refusals = f.pool.refusals ++ turnedDown texts answers

theorem deals_nothing (advances : Advances f.pool f'.pool none none)
    (memory : f'.memory = f.memory) : Deals ask f f' [] [] where
  count := rfl
  asked := by rw [memory]; rfl
  jobs := advances.jobs
  refusals := advances.refusals

/-- The parser is asked one text. -/
theorem deals_one {text : String} {answer : Except ParseError (Job α)}
    {job : Option (Job α)} {refusal : Option (String × ParseError)}
    (advances : Advances f.pool f'.pool job refusal)
    (said : (ask text).run f.memory = (answer, f'.memory)) (sent : made [answer] = job.toList)
    (refused : turnedDown [text] [answer] = refusal.toList) :
    Deals ask f f' [text] [answer] where
  count := rfl
  asked := by
    simp only [List.mapM_cons, List.mapM_nil, StateT.run_bind, said]
    rfl
  jobs := by rw [advances.jobs, sent]
  refusals := by rw [advances.refusals, refused]

theorem Deals.trans {texts more : List String} {answers others : List (Except ParseError (Job α))}
    (first : Deals ask f f' texts answers) (second : Deals ask f' f'' more others) :
    Deals ask f f'' (texts ++ more) (answers ++ others) where
  count := by rw [List.length_append, List.length_append, first.count, second.count]
  asked := by
    simp only [List.mapM_append, StateT.run_bind, first.asked]
    exact congrArg (fun both => ((answers ++ both.1, both.2) : _ × σ)) second.asked
  jobs := by rw [second.jobs, first.jobs, made, made, made, List.filterMap_append,
    List.append_assoc]
  refusals := by
    rw [second.refusals, first.refusals, turnedDown, turnedDown, turnedDown,
      List.zip_append first.count.symm, List.filterMap_append, List.append_assoc]

/-- A feeder that takes a reading asks for the command of its line, if it has one. -/
theorem deals_of_takes {l : Option (Pool.Label α)} {feeding : Feeding}
    (takes : Takes (parseNow ask f.memory) f.pool reading l feeding)
    (memory : f'.memory = remember ask f.memory reading)
    (advances : Advances f.pool f'.pool (l.bind fun m => (Piece.whole m).job?)
      (l.bind fun m => (Piece.whole m).refusal?)) :
    ∃ answers, Deals ask f f' (commandsOf (linesOf [reading])) answers := by
  have one : ∀ line text, commandOf? line = some text →
      commandsOf (linesOf [.line line]) = [text] := by
    intro line text command
    show commandsOf [line] = [text]
    rw [Fed.commandsOf_cons, command]
    rfl
  cases takes with
  | skip line blank =>
    have nothing : commandsOf (linesOf [.line line]) = [] := by
      show commandsOf [line] = []
      rw [Fed.commandsOf_cons, blank]
      rfl
    rw [remember, blank] at memory
    exact ⟨[], nothing ▸ deals_nothing advances memory⟩
  | reject line text error command parsed =>
    rw [remember, command] at memory
    rw [one line text command]
    exact ⟨_, deals_one advances (Prod.ext parsed memory.symm) rfl rfl⟩
  | submit line text job command parsed =>
    rw [remember, command] at memory
    rw [one line text command]
    exact ⟨_, deals_one advances (Prod.ext parsed memory.symm) rfl rfl⟩
  | _ => exact ⟨[], deals_nothing advances memory⟩

/-- A feeder that looks at the job it offers goes on with the same lines. -/
theorem deals_of_looks {ticket : Nat} {line : String} {l : Option (Pool.Label α)}
    {feeding : Feeding} (looks : Looks f.pool ticket line l feeding)
    (memory : f'.memory = f.memory)
    (advances : Advances f.pool f'.pool (l.bind fun m => (Piece.whole m).job?)
      (l.bind fun m => (Piece.whole m).refusal?)) : Deals ask f f' [] [] := by
  cases looks <;> exact deals_nothing advances memory

theorem deals_step {l : Label α} (fit : Fit f) (step : f.step ask l = some f') :
    ∃ answers, Deals ask f f' (commandsOf (linesOf l.read?.toList)) answers := by
  cases does_of_step step with
  | piece here leaves piece feeding memory =>
    have advances := advances_stepPiece fit.hale.steady.agrees piece
    rw [leaves.job, leaves.refusal] at advances
    rw [Label.read?_of_piece here]
    exact ⟨[], deals_nothing advances memory⟩
  | read reads takes stepped memory =>
    have open_ := fit.open_ (by simp [reads])
    obtain ⟨_, _, advances⟩ := advances_stepIf fit.hale open_ stepped (mild_of_takes takes)
    exact deals_of_takes takes memory advances
  | look offers looks stepped memory =>
    have open_ := fit.open_ (by simp [offers])
    obtain ⟨_, _, advances⟩ := advances_stepIf fit.hale open_ stepped (mild_of_looks looks)
    exact ⟨[], deals_of_looks looks memory advances⟩

/-! ## Where a feeder stops -/

/-- A feeder that is finished reads no more. -/
theorem readings_of_finished {ls : List (Label α)} (done : f.feeding = .finished)
    (run : f.steps ask ls = some f') : readings ls = [] ∧ f'.feeding = .finished := by
  induction ls generalizing f with
  | nil => cases run; exact ⟨rfl, done⟩
  | cons l ls ih =>
    obtain ⟨next, step, rest⟩ := Option.bind_eq_some_iff.mp run
    cases does_of_step step with
    | piece here _ _ feeding =>
      rw [readings_cons_piece here]
      exact ih (feeding.trans done) rest
    | read reads => cases done.symm.trans reads
    | look offers => cases done.symm.trans offers

/-- The readings are lines, and then perhaps one that is none, with which the feeder is
finished. -/
structure Ends (readings : List Reading) (stop : Option Reading) (feeding : Feeding) :
    Prop where
  lines : readings = (linesOf readings).map .line ++ stop.toList
  stops : ∀ reading, stop = some reading → ∀ line, reading ≠ .line line
  finished : feeding = .finished ↔ stop.isSome = true

theorem ends_of_stop {feeding : Feeding} (stops : ∀ line, reading ≠ .line line)
    (done : feeding = .finished) : Ends [reading] (some reading) feeding where
  lines := by
    cases reading with
    | line s => exact absurd rfl (stops s)
    | _ => rfl
  stops := by
    rintro _ ⟨⟩
    exact stops
  finished := iff_of_true done rfl

/-- A feeder goes on while it is given lines, and no longer. -/
theorem ends_of_steps {ls : List (Label α)} (fit : Fit f) (run : f.steps ask ls = some f')
    (calm : ∀ l ∈ ls, l.harms = false) (busy : f.feeding ≠ .finished) :
    ∃ stop, Ends (readings ls) stop f'.feeding := by
  induction ls generalizing f with
  | nil =>
    cases run
    exact ⟨none, rfl, nofun, iff_of_false busy nofun⟩
  | cons l ls ih =>
    obtain ⟨next, step, rest⟩ := Option.bind_eq_some_iff.mp run
    obtain ⟨now, calm⟩ := List.forall_mem_cons.mp calm
    have later := ih (fit_step fit now step) rest calm
    cases does_of_step step with
    | piece here _ _ feeding =>
      rw [readings_cons_piece here]
      exact later (feeding ▸ busy)
    | look offers looks =>
      refine later ?_
      have open_ := fit.open_ busy
      generalize next.feeding = feeding at looks
      cases looks with
      | cancelled refused => cases fit.hale.sendEnd_eq open_ refused
      | dropped refused => cases fit.hale.sendEnd_eq open_ refused
      | _ => simp
    | @read reading _ reads takes =>
      have split : readings (.read reading :: ls) = reading :: readings ls := rfl
      rw [split]
      by_cases goes : next.feeding = .finished
      · obtain ⟨none_left, done⟩ := readings_of_finished goes rest
        rw [none_left]
        refine ⟨_, ends_of_stop ?_ done⟩
        rintro line rfl
        rw [goes] at takes
        cases takes
      · obtain ⟨stop, lines, stops, finished⟩ := later goes
        refine ⟨stop, ?_, stops, finished⟩
        generalize next.feeding = feeding at takes goes
        cases takes with
        | skip => exact congrArg (_ :: ·) lines
        | reject => exact congrArg (_ :: ·) lines
        | submit => exact congrArg (_ :: ·) lines
        | _ => exact absurd rfl goes

/-- The commands of a run are those of its first step and then those of the others. -/
theorem commandsOf_readings_cons {l : Label α} {ls : List (Label α)}
    (step : f.step ask l = some f') (rest : f'.steps ask ls = some f'') :
    commandsOf (linesOf (readings (l :: ls))) =
      commandsOf (linesOf l.read?.toList) ++ commandsOf (linesOf (readings ls)) := by
  cases does_of_step step with
  | piece here =>
    rw [readings_cons_piece here, Label.read?_of_piece here]
    rfl
  | look => rfl
  | @read reading _ reads takes =>
    have split : readings (.read reading :: ls) = reading :: readings ls := rfl
    rw [split]
    have stopped : f'.feeding = .finished → readings ls = [] :=
      fun done => (readings_of_finished done rest).1
    generalize f'.feeding = feeding at takes stopped
    cases reading with
    | line line =>
      show commandsOf (line :: linesOf (readings ls)) = commandsOf [line] ++ _
      rw [Fed.commandsOf_cons, Fed.commandsOf_cons, List.append_assoc]
      rfl
    | eof => cases takes; rw [stopped rfl]; rfl
    | cancelled => cases takes; rw [stopped rfl]; rfl
    | fault fault => cases takes; rw [stopped rfl]; rfl

theorem deals_steps {ls : List (Label α)} (fit : Fit f) (run : f.steps ask ls = some f')
    (calm : ∀ l ∈ ls, l.harms = false) :
    Fit f' ∧ ∃ answers, Deals ask f f' (commandsOf (linesOf (readings ls))) answers := by
  induction ls generalizing f with
  | nil =>
    cases run
    exact ⟨fit, [], rfl, rfl, (List.append_nil _).symm, (List.append_nil _).symm⟩
  | cons l ls ih =>
    obtain ⟨next, step, rest⟩ := Option.bind_eq_some_iff.mp run
    obtain ⟨now, calm⟩ := List.forall_mem_cons.mp calm
    obtain ⟨answers, deals⟩ := deals_step fit step
    obtain ⟨fit', answers', deals'⟩ := ih (fit_step fit now step) rest calm
    refine ⟨fit', answers ++ answers', ?_⟩
    rw [commandsOf_readings_cons step rest]
    exact deals.trans deals'

/-! ## Whole runs -/

/-- A pool that was only used so far, and has no submission under way, is fit to be fed. -/
theorem fit_of_pieces {before : List (Piece α)} {memory : σ} (hale : Hale p)
    (open_ : p.queue.senderOpen = true) (used : p.pieces before = some p')
    (calm : ∀ l ∈ before, l.disturbs = false ∧ l.closes = false)
    (idle : p'.queue.sending = false) : Fit (⟨p', .reading, memory⟩ : Sourced α σ) := by
  have sound : Hale p' ∧ p'.queue.senderOpen = true := by
    clear idle
    induction before generalizing p with
    | nil => cases used; exact ⟨hale, open_⟩
    | cons l before ih =>
      obtain ⟨next, step, rest⟩ := Option.bind_eq_some_iff.mp used
      obtain ⟨⟨undisturbed, closes⟩, calm⟩ := List.forall_mem_cons.mp calm
      simp only [Piece.disturbs, Bool.or_eq_false_iff] at undisturbed
      obtain ⟨⟨cancels, crashes⟩, _⟩ := undisturbed
      refine ih (hale_stepPiece hale step cancels crashes fun _ => open_) ?_ rest calm
      rw [(asks_stepPiece step).senderOpen, open_, closes]
      rfl
  obtain ⟨hale, open_⟩ := sound
  refine ⟨hale, (absurd open_ <| Bool.eq_false_iff.mp ·), fun ticket inside => Or.inl ?_⟩
  obtain ⟨sent, found⟩ : ∃ sent, p'.queue.sends[ticket]? = some sent :=
    ⟨_, List.getElem?_eq_getElem inside⟩
  have at_ticket := Handoff.sendState?_eq_some_iff.mpr ⟨sent, found, rfl⟩
  have ended := isEnded_of_sending idle at_ticket
  cases state : sent.state with
  | ended how =>
    rw [state] at at_ticket
    have sendEnd := Handoff.sendEnd?_eq_some_iff.mpr at_ticket
    rwa [hale.sendEnd_eq open_ sendEnd] at sendEnd
  | _ => rw [state] at ended; cases ended

/-- A feeder that reads can take whatever its source gives. -/
theorem Fit.exists_read (fit : Fit f) (reads : f.feeding = .reading) (reading : Reading) :
    ∃ f', f.step ask (.read reading) = some f' := by
  have unjoined : f.pool.joined.isNone = true := by
    refine Option.isNone_iff_eq_none.mpr (Option.eq_none_iff_forall_ne_some.mpr fun k waits => ?_)
    have gone := (fit.hale.orderly.chronicle.joined k waits).1
    rw [fit.closed (Handoff.senderGone_iff.mp gone).1] at reads
    cases reads
  have taken : ∃ both, Feeder.take (parseNow ask f.memory) f.pool reading = some both := by
    cases reading with
    | line line =>
      simp only [Feeder.take, Feeder.takeLine]
      cases commandOf? line with
      | none => exact ⟨_, rfl⟩
      | some text =>
        cases answer : parseNow ask f.memory text <;>
          simp [answer, Pool.step, Pool.submit, Option.isNone_iff_eq_none.mp unjoined]
    | fault fault => simp [Feeder.take, Pool.step, Option.isNone_iff_eq_none.mp unjoined]
    | _ => exact ⟨_, rfl⟩
  obtain ⟨⟨p, feeding⟩, taken⟩ := taken
  refine ⟨⟨p, feeding, remember ask f.memory reading⟩, ?_⟩
  rw [Sourced.step, if_pos reads, run_take, taken]
  rfl

/-- Each rejection of a line is one entry that names it. -/
theorem entries_of_rejections (history : List Event) :
    (history.filter (·.isRejection)).map Event.entry? =
      (history.filterMap (·.refusal?)).map fun refusal =>
        some ⟨.error, .feeder, Event.enquote refusal.1 ++ ": " ++ refusal.2.message, [], []⟩ := by
  induction history with
  | nil => rfl
  | cons e history ih =>
    cases e with
    | rejected line error => exact congrArg (_ :: ·) ih
    | _ => exact ih

/-- What a line holds is its text without the blanks around it, unless that is empty or begins
with the mark of a comment. -/
theorem commandsOf_eq (lines : List String) : commandsOf lines =
    (lines.map Text.trim).filter fun text =>
      text != "" && !Text.startsWith commentMark text := by
  induction lines with
  | nil => rfl
  | cons line lines ih =>
    rw [Fed.commandsOf_cons, ih, List.map_cons, List.filter_cons, commandOf?]
    by_cases blank : Text.trim line = ""
    · simp [blank]
    · cases comment : Text.startsWith commentMark (Text.trim line) <;> simp [blank]

/-- A pool that was opened and used, but not closed, is fed from any source with any parser, and
then joined.  The run is not cancelled and no attempt panics.  Then:

* the source gives lines, and at most one other reading, with which the feeding ends; as long
  as it has not ended and no job is on offer, the feeder can take whatever comes,
* the parser is asked for the texts of the lines that hold commands, in order, and for nothing
  else; if it remembers what it is asked, it remembers these questions,
* the jobs among its answers are submitted in order, and the texts that it refuses are
  rejected in order; each rejection is one count of a failure and one entry at the level of an
  error that names the text,
* whenever no job is on offer, so before every further reading and when the feeding has ended,
  every job is accepted, and none is started more than once,
* the client has waited for all workers only after the feeding has ended, whatever ended it,
  and then every job was started once and resolved along a path of its tree. -/
theorem lines_are_fed_in_order {ρ : Type} {s : Settings} {build : Nat → Except (List String) ρ}
    {p₁ p₀ : Pool α} {before : List (Piece α)} {memory : σ} {ls : List (Label α)}
    (opened : openWith s build false = .ok p₁) (used : p₁.pieces before = some p₀)
    (mild : ∀ l ∈ before, l.disturbs = false ∧ l.closes = false)
    (idle : p₀.queue.sending = false)
    (run : steps ask ⟨p₀, .reading, memory⟩ ls = some f)
    (calm : ∀ l ∈ ls, l.harms = false) :
    ∃ (lines : List String) (stop : Option Reading) (texts : List String)
      (answers : List (Except ParseError (Job α))),
      readings ls = lines.map .line ++ stop.toList ∧
      (∀ reading, stop = some reading → ∀ line, reading ≠ .line line) ∧
      (f.feeding = .finished ↔ stop.isSome = true) ∧
      (f.feeding = .reading → ∀ reading, ∃ f', f.step ask (.read reading) = some f') ∧
      texts = (lines.map Text.trim).filter (fun text =>
        text != "" && !Text.startsWith commentMark text) ∧
      (texts.mapM ask).run memory = (answers, f.memory) ∧
      f.pool.queue.jobs = p₀.queue.jobs ++ made answers ∧
      f.pool.refusals = p₀.refusals ++ turnedDown texts answers ∧
      f.pool.counters.fail = f.pool.history.countP (·.isFailure) + f.pool.refusals.length ∧
      (f.pool.history.reverse.filter (·.isRejection)).map Event.entry? =
        f.pool.refusals.map (fun refusal =>
          some ⟨.error, .feeder, Event.enquote refusal.1 ++ ": " ++ refusal.2.message, [], []⟩) ∧
      ((∀ ticket line, f.feeding ≠ .offering ticket line) →
        ∀ ticket < f.pool.queue.sends.length, f.pool.queue.sendEnd? ticket = some .accepted) ∧
      (∀ ticket, f.pool.starts ticket ≤ 1) ∧
      (f.pool.isJoined = true → f.feeding = .finished ∧
        ∀ ticket sent, f.pool.queue.sends[ticket]? = some sent → f.pool.starts ticket = 1 ∧
          ∃ w, Resolves w ticket 0 sent.job.toChain
            (resolutions (eventsOf f.pool.history ticket))) := by
  have staffed := workers_pos_of_openWith opened
  rw [openWith_eq_ok opened] at used staffed
  have manned : 0 < s.workers := by
    rwa [show (started s false : Pool α).workers.length = s.workers from List.length_replicate]
      at staffed
  have begins : Fit (⟨p₀, .reading, memory⟩ : Sourced α σ) :=
    fit_of_pieces (hale_started manned) rfl used mild idle
  obtain ⟨stop, lines, stops, finished⟩ := ends_of_steps begins run calm (by simp)
  obtain ⟨fit, answers, _, asked, jobs, refused⟩ := deals_steps begins run calm
  have chronicle := fit.hale.orderly.chronicle
  refine ⟨_, stop, _, answers, lines, stops, finished, fit.exists_read, commandsOf_eq _, asked,
    jobs, refused, ?_, entries_of_rejections _, fit.all_accepted, chronicle.starts_le_one,
    fun joined => ?_⟩
  · rw [← rejections_eq]
    exact fit.hale.tallied.counters.2.1
  · have gone := (chronicle.joined _ (beq_iff_eq.mp joined)).1
    have done := fit.closed (Handoff.senderGone_iff.mp gone).1
    refine ⟨done, fun ticket sent found => fit.hale.resolves_of_isJoined joined found ?_⟩
    exact fit.all_accepted (by simp [done]) ticket (List.getElem?_eq_some_iff.mp found).1

/-- A parser that remembers the texts.  It knows one command. -/
def attentive : Parser Unit (List String) := fun text => do
  modify (· ++ [text])
  if text = "try" then return .ok tryFirst else return .error (.unknownCommand text)

/-- A fault of a source. -/
def lost : Files.Fault := .plain .brokenPipe

/-- A blank line, a comment, a line that is no command and one that is one, and then a fault.
The job of the command is still under way when the fault occurs. -/
def served : List (Label Unit) :=
  [.read (.line " "), .read (.line "# try"), .read (.line "tyr"), .read (.line " try "),
    .piece (.whole (.look 0)), .look, .look, .read (.fault lost), .join,
    .piece (.whole (.start 0)), .piece (.whole (.finish 0 (.plain (.ok ())))),
    .piece (.whole (.look 0)), .piece (.whole (.look 1)), .piece (.whole .join),
    .piece (.whole .join)]

theorem lines_are_fed_in_order_served :
    openWith pair (fun _ => .ok ()) false = .ok (started pair false : Pool Unit) ∧
      ∃ f, steps attentive ⟨started pair false, .reading, []⟩ served = some f ∧
        (∀ l ∈ served, l.harms = false) ∧
        f.pool.isJoined = true ∧ f.feeding = .finished ∧
        (∃ texts answers, (texts.mapM attentive).run [] = (answers, ["tyr", "try"]) ∧
          made answers = [tryFirst] ∧
          turnedDown texts answers = [("tyr", .unknownCommand "tyr")]) ∧
        f.pool.starts 0 = 1 ∧ ∃ w, Resolves w 0 0 tryFirst.toChain
          (resolutions (eventsOf f.pool.history 0)) := by
  have opened : openWith pair (fun _ => (.ok () : Except (List String) Unit)) false =
      .ok (started pair false : Pool Unit) := by
    rfl
  have run : steps attentive ⟨started pair false, .reading, []⟩ served = some _ := rfl
  have calm : ∀ l ∈ served, l.harms = false := by
    simp [served, Label.harms, Piece.cancels, Piece.crashes]
  have unused : (started pair false : Pool Unit).pieces [] = some (started pair false) := rfl
  obtain ⟨_, _, texts, answers, _, _, _, _, _, asked, jobs, refused, _, _, _, _, joined⟩ :=
    lines_are_fed_in_order opened unused (by simp) rfl run calm
  obtain ⟨finished, resolved⟩ := joined rfl
  obtain ⟨once, resolves⟩ := resolved 0 _ rfl
  exact ⟨opened, _, run, calm, rfl, finished,
    ⟨texts, answers, asked, jobs.symm, refused.symm⟩, once, resolves⟩

end Sourced

/-! ## Pools whose input is bytes -/

namespace Fed

variable {parse : Parse α} {f f' : Fed α}

/-- A pool that is fed from bytes, without its input. -/
def sourced (f : Fed α) : Sourced α Unit := ⟨f.pool, f.feeder.feeding, ()⟩

/-- A feeder takes a reading as if its parser remembered nothing. -/
theorem run_take (p : Pool α) (reading : Reading) :
    (Sourced.take (fun text => pure (parse text)) p reading).run () =
      (Feeder.take parse p reading, ()) :=
  Sourced.run_take _ p reading ()

/-- The feeder is the only client of the pool: when it is finished the pool is joined, and
nothing else is begun. -/
def IsAlone (f : Fed α) : Label α → Prop
  | .pool l => l.begins = false ∨ f.feeder.feeding = .finished ∧ l = .whole .beginJoin
  | _ => True

/-- A step of a pool that is fed from bytes is a step of one that is fed from some source, or
only its input changes. -/
theorem sourced_step {l : Label α} (alone : IsAlone f l) (step : f.step parse l = some f') :
    f'.sourced = f.sourced ∨
      ∃ l', f.sourced.step (fun text => pure (parse text)) l' = some f'.sourced := by
  cases l with
  | pool l =>
    obtain ⟨p, piece, rfl⟩ := Option.map_eq_some_iff.mp step
    rcases alone with begins | ⟨done, rfl⟩
    · refine Or.inr ⟨.piece l, ?_⟩
      simp only [Sourced.step, sourced, begins, Bool.false_eq_true, if_false, piece]
      rfl
    · refine Or.inr ⟨.join, ?_⟩
      have joins : f.pool.beginJoin = some p := piece
      simp only [Sourced.step, sourced, done, if_true, joins]
      rfl
  | feed =>
    obtain ⟨⟨p, feeder⟩, fed, rfl⟩ := Option.map_eq_some_iff.mp step
    unfold Feeder.step at fed
    split at fed
    next reads =>
      obtain ⟨⟨reading, intake⟩, _, fed⟩ := Option.bind_eq_some_iff.mp fed
      obtain ⟨⟨q, feeding⟩, taken, same⟩ := Option.map_eq_some_iff.mp fed
      cases same
      refine Or.inr ⟨.read reading, ?_⟩
      simp only [Sourced.step, sourced, reads, if_true, run_take, taken]
      rfl
    next offers =>
      obtain ⟨⟨q, feeding⟩, looked, same⟩ := Option.map_eq_some_iff.mp fed
      cases same
      refine Or.inr ⟨.look, ?_⟩
      simp only [Sourced.step, sourced, offers, looked]
      rfl
    next => cases fed
  | arrive bytes =>
    simp only [Fed.step] at step
    split at step <;> cases step
    exact Or.inl rfl
  | inputEnds =>
    simp only [Fed.step] at step
    split at step <;> cases step
    exact Or.inl rfl
  | draw got =>
    simp only [Fed.step] at step
    split at step <;> cases step
    exact Or.inl rfl

/-- A run of a pool that is fed from bytes, and has no other client, is a run of one that is fed
from some source. -/
theorem sourced_steps {ls : List (Label α)} (run : f.steps parse ls = some f')
    (alone : Throughout (step parse) IsAlone f ls) :
    ∃ ls', f.sourced.steps (fun text => pure (parse text)) ls' = some f'.sourced := by
  induction ls generalizing f with
  | nil => cases run; exact ⟨[], rfl⟩
  | cons l ls ih =>
    obtain ⟨next, step, rest⟩ := Option.bind_eq_some_iff.mp run
    obtain ⟨now, alone⟩ := alone
    obtain ⟨ls', run'⟩ := ih rest (alone next step)
    rcases sourced_step now step with same | ⟨l', step'⟩
    · exact ⟨ls', same ▸ run'⟩
    · exact ⟨l' :: ls', Option.bind_eq_some_iff.mpr ⟨_, step', run'⟩⟩

end Fed

end CommandPool.Pool
