import CommandPool.Handoff.Basic
import CommandPool.Job.Basic
import CommandPool.Pool.Event
import CommandPool.Settings

/-!
# Worker pools

A pool is a number of workers behind a handoff.  A worker that is idle asks for
a job and follows its chain: it makes attempts at a node until one succeeds or
the node has failed, and goes on with what follows that outcome.  A throttled
attempt is made again after a delay, as long as the node has retries left.

Once the run is cancelled, a worker that looks takes no further job, and a node
that waits for a retry, or is about to, fails instead.  The chains in progress
are followed to their ends.  A worker whose wait was cut short stops after its
chain.

`step` says what one step of a worker, of a client or of the clock does.  Which
step comes next, what an attempt reports and how long it takes are left open, so
a run of `step` is one of all interleavings.
-/

namespace CommandPool

namespace Pool

/-! ## Workers -/

/-- A node that a worker is at. -/
structure Task (α : Type) where
  /-- The ticket under which the job was submitted. -/
  ticket : Nat
  /-- How many nodes of the job came before. -/
  node : Nat
  /-- The node, with what follows it. -/
  job : Job α
  /-- The retries of the node so far. -/
  retries : Nat
  /-- The cancellation has cut a wait of this job short. -/
  interrupted : Bool
  deriving Repr

/-- What a worker is doing. -/
inductive Phase (α : Type) where
  /-- Nothing. -/
  | idle
  /-- It waits for a job, in the receive of this turn. -/
  | asking (turn : Nat)
  /-- It is about to start an attempt. -/
  | ready (task : Task α)
  /-- It is in an attempt. -/
  | attempting (task : Task α)
  /-- It waits before a retry, after the attempt that failed with this error. -/
  | sleeping (task : Task α) (error : JobError) (delay : Duration)
  /-- It has stopped. -/
  | stopped
  /-- An action has taken it down. -/
  | panicked
  deriving Repr

/-- What an attempt leaves in the log and the counters of the run. -/
structure Traces where
  /-- What it has logged. -/
  log : List Log.Entry
  /-- How often it asked the store for something. -/
  storageOps : Nat
  /-- How often it read, wrote or removed a local file. -/
  fileOps : Nat
  deriving Repr

/-- No traces. -/
def Traces.none : Traces := ⟨[], 0, 0⟩

/-- What an attempt gives. -/
structure Report where
  /-- Whether it succeeded. -/
  result : Except JobError Unit
  /-- What it leaves. -/
  traces : Traces
  deriving Repr

/-- A report that says no more than the result. -/
def Report.plain (result : Except JobError Unit) : Report := ⟨result, .none⟩

end Pool

/-- A pool of workers. -/
structure Pool (α : Type) where
  /-- Its settings. -/
  settings : Settings
  /-- Where jobs are handed to workers. -/
  queue : Handoff (Job α)
  /-- What each worker is doing. -/
  workers : List (Pool.Phase α)
  /-- The counters of the run. -/
  counters : Counters
  /-- What has happened, the latest first. -/
  history : List Pool.Event
  /-- How many workers the client has waited for, once it does. -/
  joined : Option Nat
  deriving Repr

namespace Pool

variable {α : Type}

/-- The cancel signal of a run.  The clients and the workers of a pool watch it. -/
def signal : Nat := 0

/-- The run is cancelled. -/
def cancelled (p : Pool α) : Bool := p.queue.isGiven signal

/-- What a worker is doing. -/
def phase? (p : Pool α) (w : Nat) : Option (Phase α) := p.workers[w]?

/-- Notes an event and counts it. -/
def emit (p : Pool α) (e : Event) : Pool α :=
  { p with
    history := e :: p.history
    counters := match e.counter? with
      | some c => p.counters.bump c
      | none => p.counters }

/-- Sets what a worker is doing. -/
def setPhase (p : Pool α) (w : Nat) (phase : Phase α) : Pool α :=
  { p with workers := p.workers.set w phase }

/-- The spot of a task at a worker. -/
def Task.spot (t : Task α) (w : Nat) : Spot := ⟨w, t.ticket, t.node, t.job.label⟩

/-! ## Steps of a worker -/

/-- A worker stops. -/
def stop (p : Pool α) (w : Nat) : Pool α :=
  { p.setPhase w .stopped with queue := p.queue.dropReceiver }

/-- A worker goes on after a node: with the node that follows, or it is done with
the job.  Then it is idle, unless a wait was cut short. -/
def proceed (p : Pool α) (w : Nat) (t : Task α) (outcome : Outcome) : Pool α :=
  match (t.job.after outcome).job? with
  | some next => p.setPhase w (.ready ⟨t.ticket, t.node + 1, next, 0, t.interrupted⟩)
  | none => if t.interrupted then p.stop w else p.setPhase w .idle

/-- A node fails for good. -/
def failNode (p : Pool α) (w : Nat) (t : Task α) (error : JobError) : Pool α :=
  (p.emit (.failed (t.spot w) t.retries error)).proceed w t .failed

/-- A node fails because the cancellation cut its wait short. -/
def interruptNode (p : Pool α) (w : Nat) (t : Task α) (error : JobError) : Pool α :=
  p.failNode w { t with interrupted := true } error

/-- What the receive of a worker has come to. -/
def settleAsk (p : Pool α) (w turn : Nat) : Pool α :=
  match p.queue.recvs[turn]? with
  | some (.got ticket) =>
    match p.queue.sends[ticket]? with
    | some s => p.setPhase w (.ready ⟨ticket, 0, s.job, 0, false⟩)
    | none => p
  | some .closed => p.stop w
  | _ => p.setPhase w (.asking turn)

/-- What a worker in the given phase sees when it looks, the cancellation first.
Whoever has taken a delivery goes on with it. -/
def lookFrom (p : Pool α) (w : Nat) : Phase α → Option (Pool α)
  | .idle =>
    if p.cancelled then some (p.stop w)
    else
      let turn := p.queue.nextTurn
      some ({ p with queue := p.queue.startRecv }.settleAsk w turn)
  | .asking turn =>
    if p.cancelled && !p.queue.holds turn then
      some ({ p with queue := (p.queue.abandon turn).getD p.queue }.stop w)
    else (p.queue.pollRecv turn).map fun q => { p with queue := q }.settleAsk w turn
  | .sleeping t error _ => if p.cancelled then some (p.interruptNode w t error) else none
  | _ => none

/-- A worker looks at what it waits for. -/
def look (p : Pool α) (w : Nat) : Option (Pool α) := (p.phase? w).bind (p.lookFrom w)

/-- A worker starts the attempt it is about to start. -/
def start (p : Pool α) (w : Nat) : Option (Pool α) :=
  match p.phase? w with
  | some (.ready t) =>
    some ((p.emit (.attempted (t.spot w) (t.retries + 1))).setPhase w (.attempting t))
  | _ => none

/-- Notes what an attempt has logged and counted. -/
def record (p : Pool α) (t : Traces) : Pool α :=
  let p := t.log.foldl (fun p e => p.emit (.noted e)) p
  { p with counters := (p.counters.add .storageOp t.storageOps).add .fileOp t.fileOps }

/-- After an attempt that failed: a wait for the next one, or the failure of the
node. -/
def afterError (p : Pool α) (w : Nat) (t : Task α) (error : JobError) : Pool α :=
  if error.mayRetry t.retries p.settings.maxRetries then
    let t := { t with retries := t.retries + 1 }
    let delay := p.settings.backoff.delay t.retries
    let p := p.emit (.throttled (t.spot w) t.retries delay)
    if p.cancelled then p.interruptNode w t error else p.setPhase w (.sleeping t error delay)
  else p.failNode w t error

/-- The attempt of a worker ends with a report. -/
def finish (p : Pool α) (w : Nat) (r : Report) : Option (Pool α) :=
  match p.phase? w with
  | some (.attempting t) =>
    let p := p.record r.traces
    match r.result with
    | .ok _ => some ((p.emit (.succeeded (t.spot w))).proceed w t .succeeded)
    | .error e => some (p.afterError w t e)
  | _ => none

/-- The attempt of a worker panics. -/
def crash (p : Pool α) (w : Nat) (traces : Traces) : Option (Pool α) :=
  match p.phase? w with
  | some (.attempting t) =>
    let p := ((p.record traces).emit (.panicked (t.spot w))).setPhase w .panicked
    some { p with queue := p.queue.dropReceiver }
  | _ => none

/-- The wait of a worker is over.  If it sees the cancellation then, that wins. -/
def wake (p : Pool α) (w : Nat) : Option (Pool α) :=
  match p.phase? w with
  | some (.sleeping t error _) =>
    if p.cancelled then some (p.interruptNode w t error)
    else some ((p.emit (.waited (t.spot w))).setPhase w (.ready t))
  | _ => none

/-! ## Steps of a client -/

/-- A client starts to submit a job. -/
def submit (p : Pool α) (job : Job α) : Option (Pool α) :=
  if p.joined.isNone then some { p with queue := p.queue.startSend job signal } else none

/-- A client looks at a job that it submits. -/
def pollSubmit (p : Pool α) (ticket : Nat) : Option (Pool α) :=
  (p.queue.pollSend ticket).map fun q => { p with queue := q }

/-- The client says that no more jobs come.  It does so only between submissions. -/
def close (p : Pool α) : Option (Pool α) :=
  if p.queue.sending then none else some { p with queue := p.queue.dropSender }

/-- The run is cancelled. -/
def cancel (p : Pool α) : Pool α := { p with queue := p.queue.cancel signal }

/-- The client closes the pool and begins to wait for the workers. -/
def beginJoin (p : Pool α) : Option (Pool α) :=
  if p.joined.isSome then none else p.close.map fun p => { p with joined := some 0 }

/-- The client goes on to the next worker, once the one it waits for is gone. -/
def join (p : Pool α) : Option (Pool α) :=
  match p.joined with
  | none => none
  | some w =>
    match p.phase? w with
    | some .stopped => some { p with joined := some (w + 1) }
    | some .panicked => some { p.emit (.mourned w) with joined := some (w + 1) }
    | _ => none

/-- The client has waited for all workers. -/
def isJoined (p : Pool α) : Bool := p.joined == some p.workers.length

/-! ## All steps -/

/-- What can happen in a pool. -/
inductive Label (α : Type) where
  | look (w : Nat)
  | start (w : Nat)
  | finish (w : Nat) (report : Report)
  | crash (w : Nat) (traces : Traces)
  | wake (w : Nat)
  | submit (job : Job α)
  | pollSubmit (ticket : Nat)
  | reject (line : String) (error : ParseError)
  | drop (line : String)
  | unreadable (fault : Files.Fault)
  | close
  | cancel
  | beginJoin
  | join
  deriving Repr

/-- One step, if it is possible. -/
def step (p : Pool α) : Label α → Option (Pool α)
  | .look w => p.look w
  | .start w => p.start w
  | .finish w r => p.finish w r
  | .crash w t => p.crash w t
  | .wake w => p.wake w
  | .submit job => p.submit job
  | .pollSubmit ticket => p.pollSubmit ticket
  | .reject line error => if p.joined.isNone then some (p.emit (.rejected line error)) else none
  | .drop line => if p.joined.isNone then some (p.emit (.dropped line)) else none
  | .unreadable fault => if p.joined.isNone then some (p.emit (.unreadable fault)) else none
  | .close => p.close
  | .cancel => some p.cancel
  | .beginJoin => p.beginJoin
  | .join => p.join

/-- The pool after several steps, if each is possible. -/
def steps (p : Pool α) : List (Label α) → Option (Pool α)
  | [] => some p
  | l :: ls => (p.step l).bind fun p => p.steps ls

/-! ## Opening a pool -/

/-- A pool whose workers have just started. -/
def started (s : Settings) (cancelled : Bool) : Pool α :=
  let p : Pool α :=
    ⟨s, { Handoff.new s.workers with given := if cancelled then [signal] else [] },
      List.replicate s.workers .idle, .zero, [], none⟩
  p.emit (.opened s.workers s.maxRetries s.chunkSize)

end Pool

/-- Why a pool could not be opened. -/
inductive PoolError where
  /-- Its settings are rejected. -/
  | config (fault : Settings.Fault)
  /-- The resources of a worker could not be built, for these causes. -/
  | resources (worker : Nat) (causes : List String)
  deriving Repr

/-- The wording of the error. -/
def PoolError.message : PoolError → String
  | .config fault => "invalid pool configuration: " ++ fault.message
  | .resources worker causes =>
    "failed to build resources for worker " ++ toString worker ++ ": " ++ ": ".intercalate causes

/-- The wordings of the error and of its causes, from the outermost one on. -/
def PoolError.chain : PoolError → List String
  | .config fault => [message (.config fault), fault.message]
  | e => [e.message]

namespace Pool

/-- The first worker of `count` ones from `w` on whose resources cannot be built,
with the causes. -/
def firstFailure {ρ : Type} (build : Nat → Except (List String) ρ) (w : Nat) :
    (count : Nat) → Option (Nat × List String)
  | 0 => none
  | count + 1 =>
    match build w with
    | .error causes => some (w, causes)
    | .ok _ => firstFailure build (w + 1) count

/-- Opens a pool: its settings are checked, then the resources of each worker are
built, and only then the workers start. -/
def openWith {α ρ : Type} (s : Settings) (build : Nat → Except (List String) ρ)
    (cancelled : Bool) : Except PoolError (Pool α) :=
  match s.validate with
  | .error fault => .error (.config fault)
  | .ok _ =>
    match firstFailure build 0 s.workers with
    | some (w, causes) => .error (.resources w causes)
    | none => .ok (started s cancelled)

end Pool

end CommandPool
