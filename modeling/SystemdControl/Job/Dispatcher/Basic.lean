import SystemdControl.Agenda
import SystemdControl.Job.Feed
import SystemdControl.Job.Request
import SystemdControl.Job.Room
import SystemdControl.Job.Table
import SystemdControl.Text.Labelled

/-!
# The dispatcher of jobs

Everything between the callers and the manager on the side of jobs: requests that wait for the
gate, the one that is under way, the feed of signals and its listener, and the waits of the callers.

The gate is held from before a request is issued until its reply is taken up, and nothing is
handled meanwhile; so no signal is handled between the reply to a request and its registration.
Those who wait for the gate sit in a waiting room.

Pump, listener, calls and waits go on one at a time. Whatever one of them does may let others go
on; these are roused then, and have their turns in that order.

* `Dispatcher.rouse` and its kin put those on the agenda who can go on now;
* `Dispatcher.openGate` calls the next one to the gate;
* `Dispatcher.requestStop` and `Dispatcher.stopIfAbandoned` make pump and listener stop.
-/

namespace SystemdControl

/-- What the manager answers to a request. -/
inductive Reply where
  | fail (error : Error)
  | path (path : JobPath)
  /-- The path of the next job number. -/
  | nextJob
  deriving DecidableEq

/-- A request of a caller and how the manager treats it. -/
structure Call where
  /-- How many calls were begun before. -/
  number : Nat
  label : String
  request : JobRequest
  /-- Signals that the manager emits before it answers. -/
  before : List Signal
  /-- Whether the manager keeps the caller waiting. -/
  held : Bool
  reply : Reply
  deriving DecidableEq

/-- The call that holds the gate. -/
structure CallUnderWay where
  call : Call
  answered : Bool
  deriving DecidableEq

/-- Someone in the waiting room. -/
inductive Party where
  | call (call : Call)
  | listener
  deriving DecidableEq

/-- What the listener is doing. -/
inductive Listener where
  /-- It waits for a signal. -/
  | ready
  /-- It sits in the waiting room with a signal. -/
  | seated (event : JobRemoved)
  | stopped
  deriving DecidableEq

/-- A job of which a caller may learn the result. -/
structure JobHandle where
  unit : String
  ticket : Ticket
  deriving DecidableEq, Repr

/-- A handle as text. -/
def JobHandle.text (h : JobHandle) : String :=
  h.unit ++ " @ " ++ h.ticket.path.text

/-- A moment at which a wait gives up. -/
structure Deadline where
  limit : Duration
  moment : Nat
  deriving DecidableEq

/-- A caller that waits for the result of a job. -/
structure Wait where
  label : String
  ticket : Ticket
  deadline : Option Deadline
  deriving DecidableEq

/-- Whether the time of a wait is over. -/
def Wait.isOver (w : Wait) (now : Nat) : Bool :=
  w.deadline.any (·.moment ≤ now)

/-- What a value that keeps the listener alive can be used for. -/
inductive Access where
  | bus | units | manager
  deriving DecidableEq, Repr

/-- How something that a caller began has ended. -/
inductive JobEvent where
  | started (handle : JobHandle)
  | killed
  | finished (outcome : Except Error JobResult)
  | failed (error : Error)

/-- Who goes on by itself. -/
inductive Actor where
  | pump
  | listener
  | call (number : Nat)
  | wait (ticket : Ticket)
  deriving DecidableEq

/-- Who goes on when someone in the waiting room does. -/
def Party.actor : Party → Actor
  | call c => .call c.number
  | listener => .listener

/-- The state of everything that has to do with jobs. -/
structure Dispatcher where
  table : JobTable := {}
  feed : Feed
  listener : Listener := .ready
  underWay : Option CallUnderWay := none
  room : Room Party := {}
  /-- Who can go on. -/
  agenda : Agenda Actor := .empty
  /-- Whether pump and listener shall stop when they find nothing to do. -/
  stopping : Bool := false
  /-- The values through which calls can be made. -/
  holders : Labelled Access := [("main", .bus)]
  /-- How many calls of other kinds are under way, each through one of those values. -/
  guests : Nat := 0
  /-- Requests to signal a unit that the manager keeps waiting, with the error they will get. -/
  kills : Labelled (Option Error) := []
  handles : Labelled JobHandle := []
  waits : List Wait := []
  /-- How many calls have been begun. -/
  begun : Nat := 0
  /-- How many jobs the manager has numbered. -/
  numbered : Nat := 0
  /-- The requests that have reached the manager, in order. -/
  sent : List ManagerCall := []
  /-- What has ended, in order. -/
  events : Labelled JobEvent := []

namespace Dispatcher

variable (s : Dispatcher)

def note (label : String) (event : JobEvent) : Dispatcher :=
  { s with events := s.events ++ [(label, event)] }

/-- Whether nobody can make a call any more and no call is under way. -/
def abandoned : Bool :=
  s.holders.isEmpty && s.guests == 0 && s.kills.isEmpty && s.underWay.isNone &&
    s.room.guests.all (· = .listener)

/-- Whether nobody holds the gate. -/
def gateFree : Bool :=
  s.underWay.isNone

/-- What a wait ends with at a given time; `none` while it goes on. What is known of the job comes
before the time. -/
def verdict? (now : Nat) (w : Wait) : Option (Except Error JobResult) :=
  match s.table.outcome? w.ticket, w.deadline with
  | some outcome, _ => some outcome
  | none, some d =>
    if d.moment ≤ now then some (.error (.jobTimeout w.ticket.path.text d.limit)) else none
  | none, none => none

/-! ## Rousing -/

/-- Someone can go on. -/
def rouse (actor : Actor) : Dispatcher :=
  { s with agenda := s.agenda.rouse actor }

/-- Waits can go on. -/
def rouseWaits (waits : List Wait) : Dispatcher :=
  { s with agenda := s.agenda.rouseAll (waits.map fun w => .wait w.ticket) }

/-- The listener can go on if it waits for signals. -/
def rouseListener : Dispatcher :=
  match s.listener with
  | .ready => s.rouse .listener
  | _ => s

/-- The waits can go on that have an outcome. -/
def rouseDecided : Dispatcher :=
  s.rouseWaits (s.waits.filter fun w => (s.table.outcome? w.ticket).isSome)

/-- Whoever got the result of a signal can go on. One that is no news to anybody rouses nobody. -/
def rouseAnswered : Resolution → Dispatcher
  | .delivered => s.rouseDecided
  | .alreadyResolved | .unknown | .closed => s

/-- The waits can go on whose time is over. -/
def alarm (now : Nat) : Dispatcher :=
  s.rouseWaits (s.waits.filter (·.isOver now))

/-- The next one is called to the gate. -/
def openGate : Dispatcher :=
  match s.room.callFirst with
  | (some party, room) => { s with room }.rouse party.actor
  | (none, _) => s

/-- Someone gives up to wait for the gate; if it was called to it the next one is. -/
def giveUpSeat (party : Party) : Dispatcher :=
  let s' := { s with room := s.room.leave party }
  if (s.room.seat? party).any (·.called) then s'.openGate else s'

/-- The manager emits signals. -/
def emitSignals (signals : List Signal) : Dispatcher :=
  let s' := { s with feed := s.feed.emit signals }
  if signals.isEmpty then s' else s'.rouse .pump

/-! ## Stopping -/

/-- Pump and listener are asked to stop. -/
def requestStop : Dispatcher :=
  if s.stopping then s else ({ s with stopping := true }.rouse .pump).rouseListener

/-- Pump and listener stop once nobody needs them. -/
def stopIfAbandoned : Dispatcher :=
  if s.abandoned then s.requestStop else s

end Dispatcher

end SystemdControl
