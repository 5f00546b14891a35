/-!
# Handing jobs over

A handoff gives each job to at most one receiver, and only to one that asks for
it.  Between the two sides is a slot for one delivery.  A send waits in line for
the slot, posts its delivery there, and waits until a receiver takes it.  A
receive waits in line for its turn; who has the turn takes what is in the slot.

* Every send watches one cancel signal.  A send that sees the signal first gives
  up.  Its delivery may lie in the slot already; then it is *withdrawn*, and the
  receiver that takes it drops it and goes to the end of the line.
* A send whose delivery is accepted has succeeded, even if it looks after the
  signal was given.
* When the last receiver is gone, the delivery in the slot is lost and every send
  ends as closed.
* When the sender is gone and no send is under way, a receive that finds the slot
  empty ends without a job.

Sends and receives move only when they are polled, and a poll is one step.  Both
are numbered in the order in which they start: a send by its *ticket*, a receive
by its *turn*.  A poll is composed of parts, such as taking a delivery out of the
slot and accepting it; `CommandPool.Handoff.Piece` lets others move in between.
-/

namespace CommandPool

/-! ## States -/

/-- Why a job was not handed over. -/
inductive SubmitError where
  /-- The cancellation came before a receiver took the job. -/
  | cancelled
  /-- The sender or all receivers are gone. -/
  | closed
  deriving DecidableEq, Repr

/-- The wording of the error. -/
def SubmitError.message : SubmitError → String
  | .cancelled => "submission cancelled"
  | .closed => "job queue closed"

/-- How a send ended. -/
inductive SendEnd where
  /-- A receiver has the job. -/
  | accepted
  /-- No receiver has it or ever will. -/
  | refused (e : SubmitError)
  deriving DecidableEq, Repr

/-- Where a send stands. -/
inductive SendState where
  /-- It waits in line for the slot. -/
  | waiting
  /-- Its delivery is in the slot, or in the hands of a receiver that has not
  accepted it yet. -/
  | posted
  /-- As `posted`, but it has seen its cancel signal and is about to withdraw the
  delivery. -/
  | leaving
  /-- A receiver has accepted its delivery, and it has not looked yet. -/
  | taken
  /-- Its delivery was lost with the last receiver, and it has not looked yet. -/
  | lost
  /-- It has ended. -/
  | ended (how : SendEnd)
  deriving DecidableEq, Repr

/-- The send has ended. -/
def SendState.isEnded : SendState → Bool
  | .ended _ => true
  | _ => false

/-- Where a receive stands. -/
inductive RecvState where
  /-- It waits for its turn, or has the turn and waits for a delivery. -/
  | waiting
  /-- It has taken the delivery of this ticket and is about to accept it. -/
  | holding (ticket : Nat)
  /-- It has ended with the job of this ticket. -/
  | got (ticket : Nat)
  /-- It has ended without a job. -/
  | closed
  /-- It was given up. -/
  | abandoned
  deriving DecidableEq, Repr

/-- The receive is about to accept a delivery. -/
def RecvState.isHolding : RecvState → Bool
  | .holding _ => true
  | _ => false

/-- A job that is being handed over. -/
structure Send (α : Type) where
  /-- The job. -/
  job : α
  /-- The cancel signal that the send watches. -/
  signal : Nat
  /-- Where the send stands. -/
  state : SendState
  deriving Repr

/-- A handoff: two sides with a slot between them. -/
structure Handoff (α : Type) where
  /-- Every send that was started, by ticket. -/
  sends : List (Send α)
  /-- Every receive that was started, by turn. -/
  recvs : List RecvState
  /-- The tickets in line for the slot.  The first one may post when the slot is
  empty. -/
  line : List Nat
  /-- The ticket of the delivery in the slot. -/
  slot : Option Nat
  /-- The receives in line, by turn.  The first one may take. -/
  turns : List Nat
  /-- New sends are possible. -/
  senderOpen : Bool
  /-- How many may start receives. -/
  receivers : Nat
  /-- The cancel signals that were given. -/
  given : List Nat
  deriving Repr

namespace Handoff

variable {α : Type}

/-- A handoff with so many receivers. -/
def new (receivers : Nat) : Handoff α := ⟨[], [], [], none, [], true, receivers, []⟩

/-- The state of a send. -/
def sendState? (h : Handoff α) (ticket : Nat) : Option SendState :=
  h.sends[ticket]?.map (·.state)

/-- How a send ended, once it has. -/
def sendEnd? (h : Handoff α) (ticket : Nat) : Option SendEnd :=
  match h.sendState? ticket with
  | some (.ended how) => some how
  | _ => none

/-- A cancel signal was given. -/
def isGiven (h : Handoff α) (signal : Nat) : Bool := h.given.contains signal

/-- The signal that a send watches was given. -/
def isCancelled (h : Handoff α) (ticket : Nat) : Bool :=
  h.sends[ticket]?.any fun s => h.isGiven s.signal

/-- The receive of this turn is about to accept a delivery. -/
def holds (h : Handoff α) (turn : Nat) : Bool := h.recvs[turn]?.any (·.isHolding)

/-- Some receive is about to accept a delivery. -/
def holding (h : Handoff α) : Bool := h.recvs.any (·.isHolding)

/-- No receiver is left and no receive is under way. -/
def receiversGone (h : Handoff α) : Bool := h.receivers == 0 && h.turns.isEmpty && !h.holding

/-- Some send has not ended. -/
def sending (h : Handoff α) : Bool := h.sends.any fun s => !s.state.isEnded

/-- The sender is gone and no send is under way. -/
def senderGone (h : Handoff α) : Bool := !h.senderOpen && !h.sending

/-! ## Parts of steps -/

/-- Sets the state of a send. -/
def setSend (h : Handoff α) (ticket : Nat) (state : SendState) : Handoff α :=
  { h with sends := h.sends.modify ticket fun s => { s with state := state } }

/-- Sets the state of a receive. -/
def setRecv (h : Handoff α) (turn : Nat) (state : RecvState) : Handoff α :=
  { h with recvs := h.recvs.set turn state }

/-- Takes a ticket out of the line. -/
def leaveLine (h : Handoff α) (ticket : Nat) : Handoff α :=
  { h with line := h.line.filter (· ≠ ticket) }

/-- Takes a receive out of the line. -/
def leaveTurns (h : Handoff α) (turn : Nat) : Handoff α :=
  { h with turns := h.turns.filter (· ≠ turn) }

/-- When the last receiver is gone, the delivery in the slot is lost. -/
def dropIfGone (h : Handoff α) : Handoff α :=
  if h.receiversGone then
    match h.slot with
    | none => h
    | some ticket =>
      let h := { h with slot := none }
      if h.sendState? ticket = some .posted then h.setSend ticket .lost else h
  else h

/-! ## Steps of a send -/

/-- The ticket of the next send. -/
def nextTicket (h : Handoff α) : Nat := h.sends.length

/-- A send enters the line.  Without a sender it ends at once. -/
def offer (h : Handoff α) (job : α) (signal : Nat) : Handoff α :=
  if h.senderOpen then
    { h with sends := h.sends ++ [⟨job, signal, .waiting⟩], line := h.line ++ [h.nextTicket] }
  else { h with sends := h.sends ++ [⟨job, signal, .ended (.refused .closed)⟩] }

/-- A send that waits ends without having posted its delivery. -/
def refuse (h : Handoff α) (ticket : Nat) (e : SubmitError) : Handoff α :=
  (h.leaveLine ticket).setSend ticket (.ended (.refused e))

/-- A send that waits finds no receiver left. -/
def shutOut (h : Handoff α) (ticket : Nat) : Option (Handoff α) :=
  if h.sendState? ticket = some .waiting && h.receiversGone then some (h.refuse ticket .closed)
  else none

/-- A send that is the first in line posts its delivery in the empty slot. -/
def post (h : Handoff α) (ticket : Nat) : Option (Handoff α) :=
  if h.sendState? ticket = some .waiting && !h.receiversGone && h.slot.isNone
      && h.line.head? == some ticket then
    some { (h.leaveLine ticket).setSend ticket .posted with slot := some ticket }
  else none

/-- A send sees its cancel signal, and its delivery is not accepted yet. -/
def sight (h : Handoff α) (ticket : Nat) : Option (Handoff α) :=
  if h.sendState? ticket = some .posted && h.isCancelled ticket then
    some (h.setSend ticket .leaving)
  else none

/-- A send that has seen its cancel signal withdraws its delivery. -/
def withdraw (h : Handoff α) (ticket : Nat) : Option (Handoff α) :=
  if h.sendState? ticket = some .leaving then
    some (h.setSend ticket (.ended (.refused .cancelled)))
  else none

/-- A poll of a send, if it changes anything. -/
def pollSend (h : Handoff α) (ticket : Nat) : Option (Handoff α) :=
  match h.sendState? ticket with
  | some .waiting =>
    if h.isCancelled ticket then some (h.refuse ticket .cancelled)
    else (h.shutOut ticket).or (h.post ticket)
  | some .posted => (h.sight ticket).bind (·.withdraw ticket)
  | some .leaving => h.withdraw ticket
  | some .taken => some (h.setSend ticket (.ended .accepted))
  | some .lost => some (h.setSend ticket (.ended (.refused .closed)))
  | some (.ended _) => none
  | none => none

/-- Starts a send and polls it. -/
def startSend (h : Handoff α) (job : α) (signal : Nat) : Handoff α :=
  let offered := h.offer job signal
  (offered.pollSend h.nextTicket).getD offered

/-! ## Steps of a receive -/

/-- The turn of the next receive. -/
def nextTurn (h : Handoff α) : Nat := h.recvs.length

/-- A receive enters the line. -/
def ask (h : Handoff α) : Handoff α :=
  { h with recvs := h.recvs ++ [.waiting], turns := h.turns ++ [h.nextTurn] }

/-- A receive that has the turn takes what is in the slot, and leaves the line. -/
def take (h : Handoff α) (turn : Nat) : Option (Handoff α) :=
  if h.turns.head? = some turn then
    h.slot.map fun ticket =>
      { (h.leaveTurns turn).setRecv turn (.holding ticket) with slot := none }
  else none

/-- The send of a delivery waits for its acceptance. -/
def awaits (h : Handoff α) (ticket : Nat) : Bool :=
  h.sendState? ticket == some .posted || h.sendState? ticket == some .leaving

/-- A receive accepts the delivery that it holds.  If that was withdrawn, it goes
to the end of the line. -/
def accept (h : Handoff α) (turn : Nat) : Option (Handoff α) :=
  match h.recvs[turn]? with
  | some (.holding ticket) =>
    if h.awaits ticket then
      some ((h.setSend ticket .taken).setRecv turn (.got ticket)).dropIfGone
    else
      some { h.setRecv turn .waiting with turns := h.turns ++ [turn] }
  | _ => none

/-- A receive that has the turn finds the slot empty and the sender gone. -/
def conclude (h : Handoff α) (turn : Nat) : Option (Handoff α) :=
  if h.turns.head? = some turn && h.slot.isNone && h.senderGone then
    some ((h.setRecv turn .closed).leaveTurns turn).dropIfGone
  else none

/-- A poll of a receive, if it changes anything. -/
def pollRecv (h : Handoff α) (turn : Nat) : Option (Handoff α) :=
  match h.recvs[turn]? with
  | some .waiting => ((h.take turn).bind (·.accept turn)).or (h.conclude turn)
  | some (.holding _) => h.accept turn
  | _ => none

/-- Starts a receive and polls it. -/
def startRecv (h : Handoff α) : Handoff α := (h.ask.pollRecv h.nextTurn).getD h.ask

/-- Gives up a receive that waits. -/
def abandon (h : Handoff α) (turn : Nat) : Option (Handoff α) :=
  if h.recvs[turn]? = some .waiting then
    some ((h.setRecv turn .abandoned).leaveTurns turn).dropIfGone
  else none

/-! ## Steps of the two sides -/

/-- A cancel signal is given. -/
def cancel (h : Handoff α) (signal : Nat) : Handoff α := { h with given := signal :: h.given }

/-- No further send can start. -/
def dropSender (h : Handoff α) : Handoff α := { h with senderOpen := false }

/-- One receiver less. -/
def dropReceiver (h : Handoff α) : Handoff α :=
  { h with receivers := h.receivers - 1 }.dropIfGone

/-! ## All steps -/

/-- What can happen to a handoff. -/
inductive Label (α : Type) where
  | send (job : α) (signal : Nat)
  | pollSend (ticket : Nat)
  | recv
  | pollRecv (turn : Nat)
  | abandon (turn : Nat)
  | cancel (signal : Nat)
  | dropSender
  | dropReceiver
  deriving Repr

/-- One step, if it is possible. -/
def step (h : Handoff α) : Label α → Option (Handoff α)
  | .send job signal => if h.senderOpen then some (h.startSend job signal) else none
  | .pollSend ticket => h.pollSend ticket
  | .recv => if h.receivers = 0 then none else some h.startRecv
  | .pollRecv turn => h.pollRecv turn
  | .abandon turn => h.abandon turn
  | .cancel signal => some (h.cancel signal)
  | .dropSender => some h.dropSender
  | .dropReceiver => some h.dropReceiver

end Handoff

end CommandPool
