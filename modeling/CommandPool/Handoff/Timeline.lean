import CommandPool.Handoff.Basic

/-!
# A handoff on a virtual clock

Happenings at given times start sends and receives, cancel, or drop a side.
Nothing else takes time: at each time that something is due, all sends and
receives are polled until none of them moves.  A receive that has a time limit
is given up when it is reached.
-/

namespace CommandPool.Handoff.Timeline

/-- What is to happen. -/
inductive Action (α : Type) where
  /-- A send. -/
  | send (job : α)
  /-- A receive that is given up after so many milliseconds. -/
  | recv (limit : Nat)
  | cancel
  | dropSender
  | dropReceiver
  deriving Repr

/-- How a happening ended. -/
inductive Result (α : Type) where
  | sent (how : SendEnd)
  /-- There was no sender to start with. -/
  | noSender
  | received (job : α)
  /-- The sender is gone. -/
  | closed
  /-- The limit was reached. -/
  | timeout
  /-- There was no receiver to start with. -/
  | noReceiver
  /-- Nothing to wait for. -/
  | done
  deriving Repr

/-- What a happening waits for. -/
inductive Waiting where
  | send (ticket : Nat)
  /-- A receive, given up at time `limit`. -/
  | recv (turn limit : Nat)
  deriving Repr

/-- Where a happening stands. -/
inductive Status (α : Type) where
  | unstarted
  | waiting (w : Waiting)
  | finished (time : Nat) (result : Result α)
  deriving Repr

/-- A happening. -/
structure Happening (α : Type) where
  /-- When it starts. -/
  time : Nat
  /-- What happens. -/
  action : Action α
  /-- Where it stands. -/
  status : Status α
  deriving Repr

/-- A handoff and what happens to it. -/
structure State (α : Type) where
  /-- The handoff. -/
  handoff : Handoff α
  /-- All that happens, in order. -/
  happenings : List (Happening α)

variable {α : Type}

/-! ## Starting -/

/-- The cancel signal that all sends watch. -/
def signal : Nat := 0

/-- Starts a happening at its time. -/
def start (h : Handoff α) (now : Nat) : Action α → Handoff α × Status α
  | .send job =>
    if h.senderOpen then (h.startSend job signal, .waiting (.send h.nextTicket))
    else (h, .finished now .noSender)
  | .recv limit =>
    if h.receivers = 0 then (h, .finished now .noReceiver)
    else (h.startRecv, .waiting (.recv h.nextTurn (now + limit)))
  | .cancel => (h.cancel signal, .finished now .done)
  | .dropSender => (h.dropSender, .finished now .done)
  | .dropReceiver =>
    (if h.receivers = 0 then h else h.dropReceiver, .finished now .done)

/-- Starts the happenings that are due, in order. -/
def startDue (now : Nat) : Handoff α → List (Happening α) → Handoff α × List (Happening α)
  | h, [] => (h, [])
  | h, e :: es =>
    match e.status with
    | .unstarted =>
      if e.time ≤ now then
        let (h, status) := start h now e.action
        let (h, es) := startDue now h es
        (h, { e with status := status } :: es)
      else
        let (h, es) := startDue now h es
        (h, e :: es)
    | _ =>
      let (h, es) := startDue now h es
      (h, e :: es)

/-! ## Polling -/

/-- One poll that changes something, if there is one. -/
def pollOnce (h : Handoff α) : Option (Handoff α) :=
  ((List.range h.sends.length).findSome? h.pollSend).or
    ((List.range h.recvs.length).findSome? h.pollRecv)

/-- Polls until nothing moves. -/
def settle : (budget : Nat) → Handoff α → Handoff α
  | 0, h => h
  | budget + 1, h =>
    match pollOnce h with
    | some h => settle budget h
    | none => h

/-- More polls than can change something: a send moves three times at most, and
a receive ends or drops a delivery. -/
def pollBudget (h : Handoff α) : Nat := 4 * h.sends.length + h.recvs.length + 1

/-- How a send or receive that is waited for has ended, if it has. -/
def result? (h : Handoff α) : Waiting → Option (Result α)
  | .send ticket => (h.sendEnd? ticket).map .sent
  | .recv turn _ =>
    match h.recvs[turn]? with
    | some (.got ticket) => h.sends[ticket]?.map fun s => .received s.job
    | some .closed => some .closed
    | some .abandoned => some .timeout
    | _ => none

/-- Notes the end of a happening that waited for it. -/
def note (h : Handoff α) (now : Nat) (e : Happening α) : Happening α :=
  match e.status with
  | .waiting w =>
    match result? h w with
    | some r => { e with status := .finished now r }
    | none => e
  | _ => e

/-- Polls until nothing moves, and notes what has ended. -/
def quiesce (now : Nat) (s : State α) : State α :=
  let h := settle (pollBudget s.handoff) s.handoff
  ⟨h, s.happenings.map (note h now)⟩

/-- Gives up the receive that a happening waits for, if its limit is reached. -/
def expire (now : Nat) (h : Handoff α) (e : Happening α) : Handoff α :=
  match e.status with
  | .waiting (.recv turn limit) => if limit ≤ now then (h.abandon turn).getD h else h
  | _ => h

/-! ## The clock -/

/-- When a happening is due next. -/
def Happening.due? (e : Happening α) : Option Nat :=
  match e.status with
  | .unstarted => some e.time
  | .waiting (.recv _ limit) => some limit
  | _ => none

/-- When something is due next. -/
def nextTime? (s : State α) : Option Nat := (s.happenings.filterMap (·.due?)).min?

/-- All that happens at one time. -/
def instant (now : Nat) (s : State α) : State α :=
  let (h, es) := startDue now s.handoff s.happenings
  let s := quiesce now ⟨h, es⟩
  quiesce now { s with handoff := s.happenings.foldl (expire now) s.handoff }

/-- Lets the clock run up to `stop`, over at most `budget` times. -/
def advance (stop : Nat) : (budget : Nat) → State α → State α
  | 0, s => s
  | budget + 1, s =>
    match nextTime? s with
    | some t => if t ≤ stop then advance stop budget (instant t s) else s
    | none => s

/-- How long after the last happening the clock stops, in milliseconds. -/
def patience : Nat := 500000

/-- When a happening ended and how, if it has. -/
def Happening.outcome? (e : Happening α) : Option (Nat × Result α) :=
  match e.status with
  | .finished time result => some (time, result)
  | _ => none

/-- When each happening ended and how, if it has ended before the clock stops. -/
def run (happenings : List (Nat × Action α)) : List (Option (Nat × Result α)) :=
  let last := (happenings.map (·.1)).max?.getD 0
  let s : State α := ⟨Handoff.new 1, happenings.map fun (t, a) => ⟨t, a, .unstarted⟩⟩
  (advance (last + patience) (2 * happenings.length + 1) s).happenings.map (·.outcome?)

end CommandPool.Handoff.Timeline
