import CommandPool.Pool.Feeding

/-!
# A pool on a virtual clock

Here a run of a pool is played out.  A *behaviour* says how an attempt goes: how
long it takes, whether it cancels the run, how it ends, and what it does to the
world.  A *client* either follows a plan, step by step, or feeds lines, and then
joins the pool.

Only attempts, waits and what the plan says take time.  At one time all that is
due happens, every worker and the client go as far as they can, and then the
clock jumps to the next time at which something is due.  Of the steps that are
possible at once the first kind below is taken, and a worker with a lower number
before one with a higher.

1. Something is due.
2. The client goes on, if it draws its lines from the world.  So what it draws is
   older than what an attempt does for which it has just handed over the job.
3. A worker starts an attempt.
4. A worker looks at what it waits for.
5. The client goes on.
6. The clock is set forward.
-/

namespace CommandPool.Pool.Timeline

variable {α ε : Type}

/-! ## Attempts -/

/-- How an attempt ends. -/
inductive Ending where
  /-- It gives a report. -/
  | report (r : Report)
  /-- It panics, and leaves these traces. -/
  | panic (traces : Traces)
  deriving Repr

/-- How an attempt goes.  Times are in milliseconds. -/
structure Attempt where
  /-- How long it runs before it may cancel. -/
  before : Nat
  /-- It cancels the run. -/
  cancels : Bool
  /-- How long it runs after that. -/
  after : Nat
  /-- How it ends. -/
  ending : Ending
  deriving Repr

/-- How an attempt at an action goes, by its number at its node and the world it
finds, and the world it leaves. -/
abbrev Behaviour (α ε : Type) := α → Nat → ε → Attempt × ε

/-- The behaviour of actions that are lists of attempts: the attempts at a node go
as its list says, one after another, and the last one repeats.  With no list they
succeed at once. -/
def scripted : Behaviour (List Attempt) Unit := fun attempts number _ =>
  let last := attempts.getLast?.getD ⟨0, false, 0, .report (.plain (.ok ()))⟩
  (attempts[number - 1]?.getD last, ())

/-! ## Supplies -/

/-- Where a client draws lines from. -/
structure Supply (ε : Type) where
  /-- The bytes that the world has behind so many others.  None is the end. -/
  draw : ε → Nat → Except Files.Fault (List UInt8)
  /-- More bytes than can be drawn, whatever attempts do to the world. -/
  limit : ε → Nat

/-- The supply without any bytes. -/
def Supply.nothing : Supply ε := ⟨fun _ _ => .ok [], fun _ => 0⟩

/-! ## Clients -/

/-- What a plan asks for. -/
inductive Request (α : Type) where
  /-- Submit a job and wait until a worker has it. -/
  | submit (job : Job α)
  /-- Say that no more jobs come. -/
  | close
  /-- Cancel the run. -/
  | cancel
  /-- Wait a millisecond and look at the counters. -/
  | counters
  deriving Repr

/-- A step of a plan. -/
structure Step (α : Type) where
  /-- The step is not taken before this time. -/
  earliest : Nat
  /-- What is done. -/
  request : Request α
  deriving Repr

/-- What came of a step of a plan. -/
inductive Answer where
  | submitted (how : SendEnd)
  | counters (c : Counters)
  | done
  deriving Repr

/-- A client of a pool. -/
inductive Client (α : Type) where
  /-- It takes the steps of a plan. -/
  | planned (steps : List (Step α))
  /-- It waits until a worker has the job of the last step. -/
  | submitting (ticket : Nat) (rest : List (Step α))
  /-- It looks at the counters at the given time. -/
  | pausing (time : Nat) (rest : List (Step α))
  /-- It feeds lines. -/
  | feeding (feeder : Feeder)
  /-- It waits for the workers to stop. -/
  | joining
  deriving Repr

namespace Client

/-- When the client goes on, if it waits for a time. -/
def due? : Client α → Option Nat
  | .planned (step :: _) => some step.earliest
  | .pausing time _ => some time
  | _ => none

/-- The input of a client that feeds lines changes. -/
def onIntake (f : Intake → Intake) : Client α → Client α
  | .feeding feeder => .feeding { feeder with intake := f feeder.intake }
  | c => c

end Client

/-! ## States -/

/-- What happens at a certain time. -/
inductive Happening where
  /-- The attempt of a worker ends with a report. -/
  | finish (w : Nat) (r : Report)
  /-- The attempt of a worker panics. -/
  | crash (w : Nat) (traces : Traces)
  /-- The wait of a worker is over. -/
  | wake (w : Nat)
  /-- The run is cancelled. -/
  | cancel
  /-- Bytes arrive at the feeder. -/
  | arrive (bytes : List UInt8)
  /-- No more bytes arrive at the feeder. -/
  | inputEnds
  deriving Repr

/-- What is due, the earliest first.  Of two things that are due at one time the
one that was entered first comes first. -/
abbrev Agenda := List (Nat × Happening)

/-- Enters something into an agenda. -/
def Agenda.enter (time : Nat) (h : Happening) : Agenda → Agenda
  | [] => [(time, h)]
  | e :: es => if e.1 ≤ time then e :: Agenda.enter time h es else (time, h) :: e :: es

/-- A run at one moment. -/
structure State (α ε : Type) where
  /-- The time, in milliseconds. -/
  now : Nat
  /-- The pool. -/
  pool : Pool α
  /-- What attempts act on. -/
  world : ε
  /-- What is due. -/
  agenda : Agenda
  /-- The client. -/
  client : Client α
  /-- The history of the pool with the time of each event, the latest first. -/
  stamps : List (Nat × Event)
  /-- What came of the steps of the plan, and when, the latest first. -/
  answers : List (Nat × Answer)

namespace State

/-- The state with the pool after a step.  What is new in its history has
happened now. -/
def withPool (s : State α ε) (p : Pool α) : State α ε :=
  let fresh := p.history.take (p.history.length - s.stamps.length)
  { s with pool := p, stamps := fresh.map (s.now, ·) ++ s.stamps }

/-- A step of the pool. -/
def stepPool (s : State α ε) (l : Label α) : Option (State α ε) := (s.pool.step l).map s.withPool

/-- Something will happen after so many milliseconds. -/
def schedule (s : State α ε) (wait : Nat) (h : Happening) : State α ε :=
  { s with agenda := s.agenda.enter (s.now + wait) h }

/-- A worker that has begun to wait will be woken. -/
def scheduleWake (s : State α ε) (w : Nat) : State α ε :=
  match s.pool.phase? w with
  | some (.sleeping _ _ delay) => s.schedule delay.millis (.wake w)
  | _ => s

/-- Notes what came of a step of the plan. -/
def answer (s : State α ε) (a : Answer) : State α ε :=
  { s with answers := (s.now, a) :: s.answers }

/-! ## The kinds of steps -/

/-- Something happens.  A worker whose wait was cut short is not woken. -/
def occur (s : State α ε) : Happening → State α ε
  | .finish w r => ((s.stepPool (.finish w r)).map (·.scheduleWake w)).getD s
  | .crash w t => (s.stepPool (.crash w t)).getD s
  | .wake w => (s.stepPool (.wake w)).getD s
  | .cancel => (s.stepPool .cancel).getD s
  | .arrive bytes => { s with client := s.client.onIntake (·.deliver bytes) }
  | .inputEnds => { s with client := s.client.onIntake (·.finish) }

/-- The first thing that is due happens. -/
def occurDue (s : State α ε) : Option (State α ε) :=
  match s.agenda with
  | (time, h) :: agenda => if time ≤ s.now then some ({ s with agenda := agenda }.occur h) else none
  | [] => none

/-- The agenda with what an attempt that starts now will do. -/
def scheduleAttempt (s : State α ε) (w : Nat) (a : Attempt) : State α ε :=
  let s := if a.cancels then s.schedule a.before .cancel else s
  s.schedule (a.before + a.after) <|
    match a.ending with
    | .report r => .finish w r
    | .panic t => .crash w t

/-- A worker starts the attempt it is about to start. -/
def startAttempt (behave : Behaviour α ε) (s : State α ε) (w : Nat) (t : Task α) :
    Option (State α ε) :=
  (s.stepPool (.start w)).map fun s =>
    let (attempt, world) := behave t.job.action (t.retries + 1) s.world
    { s with world := world }.scheduleAttempt w attempt

/-- The first worker that is about to start an attempt starts it. -/
def startNext (behave : Behaviour α ε) (s : State α ε) : Option (State α ε) :=
  s.pool.workers.zipIdx.findSome? fun
    | (.ready t, w) => startAttempt behave s w t
    | _ => none

/-- The first worker that sees something looks. -/
def lookNext (s : State α ε) : Option (State α ε) :=
  (s.pool.workers.zipIdx.findSome? fun (phase, w) => s.pool.lookFrom w phase).map s.withPool

/-- The client goes on with its plan. -/
def takeStep (s : State α ε) (step : Step α) (rest : List (Step α)) : Option (State α ε) :=
  let next := { s with client := .planned rest }
  match step.request with
  | .submit job =>
    { s with client := .submitting s.pool.queue.nextTicket rest }.stepPool (.submit job)
  | .close => (next.stepPool .close).map (·.answer .done)
  | .cancel => (next.stepPool .cancel).map (·.answer .done)
  | .counters => some { s with client := .pausing (s.now + 1) rest }

/-- The client begins to wait for the workers. -/
def beginJoin (s : State α ε) : Option (State α ε) :=
  { s with client := .joining }.stepPool .beginJoin

/-- The client goes on. -/
def stepClient (parse : Parse α) (s : State α ε) : Option (State α ε) :=
  match s.client with
  | .planned [] => s.beginJoin
  | .planned (step :: rest) => if step.earliest ≤ s.now then s.takeStep step rest else none
  | .submitting ticket rest =>
    match s.pool.queue.sendEnd? ticket with
    | some how => some ({ s with client := .planned rest }.answer (.submitted how))
    | none => s.stepPool (.pollSubmit ticket)
  | .pausing time rest =>
    if time ≤ s.now then
      some ({ s with client := .planned rest }.answer (.counters s.pool.counters))
    else none
  | .feeding ⟨_, .finished⟩ => s.beginJoin
  | .feeding feeder =>
    (feeder.step parse s.pool).map fun (p, feeder) =>
      { s with client := .feeding feeder }.withPool p
  | .joining => s.stepPool .join

/-- The client draws more bytes. -/
def drawBytes (supply : Supply ε) (s : State α ε) : Option (State α ε) :=
  match s.client with
  | .feeding ⟨.drawn reader count, .reading⟩ =>
    let intake := (Intake.drawn reader count).receive (supply.draw s.world count)
    some { s with client := .feeding ⟨intake, .reading⟩ }
  | _ => none

/-- A client that draws its lines goes on. -/
def stepDrawing (supply : Supply ε) (parse : Parse α) (s : State α ε) : Option (State α ε) :=
  match s.client with
  | .feeding ⟨.drawn _ _, _⟩ => s.stepClient parse <|> s.drawBytes supply
  | _ => none

/-- When something is due next. -/
def nextTime? (s : State α ε) : Option Nat :=
  ((s.agenda.head?.map (·.1)).toList ++ s.client.due?.toList).min?

/-- The clock is set forward. -/
def advance (s : State α ε) : Option (State α ε) :=
  s.nextTime?.bind fun time => if s.now < time then some { s with now := time } else none

/-- One step, until the pool is joined. -/
def tick (behave : Behaviour α ε) (supply : Supply ε) (parse : Parse α) (s : State α ε) :
    Option (State α ε) :=
  if s.pool.isJoined then none
  else s.occurDue <|> s.stepDrawing supply parse <|> s.startNext behave <|> s.lookNext
    <|> s.stepClient parse <|> s.advance

/-- Steps until none is left, at most `budget` of them. -/
def ticks (behave : Behaviour α ε) (supply : Supply ε) (parse : Parse α) :
    (budget : Nat) → State α ε → State α ε
  | 0, s => s
  | budget + 1, s =>
    match s.tick behave supply parse with
    | some s => ticks behave supply parse budget s
    | none => s

end State

/-! ## The length of a run -/

/-- The lines that a feeder may read. -/
def linesOf (intake : Intake) (bytes : List UInt8) : List String :=
  match intake with
  | .stream r =>
    (Lines.pieces (r.front ++ r.unread ++ bytes)).filterMap fun piece =>
      match piece.reading with
      | .line s => some s
      | _ => none
  | .single line => [line]
  | _ => []

/-- The jobs that a client may submit.  The bytes are those that arrive. -/
def jobsOf (parse : Parse α) (client : Client α) (bytes : List UInt8) : List (Job α) :=
  match client with
  | .planned steps => steps.filterMap fun step =>
    match step.request with
    | .submit job => some job
    | _ => none
  | .feeding feeder => (linesOf feeder.intake bytes).filterMap fun line =>
    (commandOf? line).bind fun text => (parse text).toOption
  | _ => []

/-- How often a client may go on without submitting anything. -/
def pausesOf (client : Client α) (bytes : List UInt8) : Nat :=
  match client with
  | .planned steps => steps.length
  | .feeding feeder => (linesOf feeder.intake bytes).length
  | _ => 0

/-- More steps than a run has.  Every node is attempted once and then once per
retry, and an attempt is started, cancels, ends and is waited after; a job passes
through a bounded number of steps between its client and its worker; so do a
worker, and each thing that comes from outside.  The clock is set forward at most
once for each of them.  Of the `drawn` bytes each may be a line and a node. -/
def budget (parse : Parse α) (p : Pool α) (client : Client α) (agenda : Agenda) (drawn : Nat) :
    Nat :=
  let bytes := agenda.flatMap fun
    | (_, .arrive bytes) => bytes
    | _ => []
  let jobs := jobsOf parse client bytes
  let attempts := jobs.foldl (fun n j => n + j.size) drawn * (p.settings.maxRetries + 1)
  16 * (attempts + jobs.length + pausesOf client bytes + drawn + p.workers.length
    + agenda.length + 1)

/-! ## Runs -/

/-- The run of a pool with a client, from time zero on, with what comes from
outside at its times. -/
def run (behave : Behaviour α ε) (supply : Supply ε) (parse : Parse α) (p : Pool α) (world : ε)
    (client : Client α) (outside : List (Nat × Happening)) : State α ε :=
  let agenda := outside.foldl (fun agenda e => Agenda.enter e.1 e.2 agenda) []
  let start : State α ε := ⟨0, p, world, agenda, client, p.history.map (0, ·), []⟩
  start.ticks behave supply parse (budget parse p client agenda (supply.limit world))

namespace State

/-- When the pool was joined, if it was. -/
def joinedTime? (s : State α ε) : Option Nat := if s.pool.isJoined then some s.now else none

/-- The log of the run with its times. -/
def log (s : State α ε) : List (Nat × Log.Entry) :=
  s.stamps.reverse.filterMap fun (time, e) => e.entry?.map (time, ·)

/-- What came of the steps of the plan, and when. -/
def results (s : State α ε) : List (Nat × Answer) := s.answers.reverse

end State

/-! ## Attempts that were made -/

/-- An attempt that was made. -/
structure Trial where
  /-- Of which node. -/
  spot : Spot
  /-- Its number at that node. -/
  number : Nat
  /-- When it started. -/
  time : Nat
  deriving Repr

namespace State

/-- All attempts, in the order in which they started. -/
def trials (s : State α ε) : List Trial :=
  s.stamps.reverse.filterMap fun
    | (time, .attempted spot number) => some ⟨spot, number, time⟩
    | _ => none

/-- The attempts of each job, up to the last job that had any. -/
def trialsByJob (s : State α ε) : List (List Trial) :=
  let all := s.trials
  let count := (all.map (·.spot.ticket + 1)).max?.getD 0
  (List.range count).map fun ticket => all.filter (·.spot.ticket == ticket)

end State

/-- All attempts were made by one worker. -/
def sameWorker (trials : List Trial) : Bool :=
  match trials with
  | [] => true
  | t :: ts => ts.all (·.spot.worker == t.spot.worker)

end CommandPool.Pool.Timeline
