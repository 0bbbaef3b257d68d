import SystemdControl.Job.Dispatcher.Basic

/-!
# How the dispatcher goes on

Each move of the dispatcher is one function to `Option`, `none` where the move is not possible:

* `movePump?`: the pump moves a signal, or ends;
* `moveListener?`: the listener takes a signal, handles it or sits down with it; or it ends and
  closes the table;
* `moveCall?`: a call gets the gate and is issued, or its reply is registered or handed on as an
  error;
* `moveWait?`: a wait ends because its outcome is known or its time is over.

Whose turn it is goes on for as long as it can. `step?` is one move or the end of a turn, and
`settle` goes on until nobody can.
-/

namespace SystemdControl.Dispatcher

variable (s : Dispatcher)

/-- The path of a numbered job. -/
def numberedPath (n : Nat) : JobPath :=
  ⟨"/org/freedesktop/systemd1/job/" ++ toString n⟩

/-- What the manager says to a request, and the count of the jobs it has numbered. -/
def answer : Reply → Except Error JobPath × Nat
  | .fail e => (.error e, s.numbered)
  | .path p => (.ok p, s.numbered)
  | .nextJob => (.ok (numberedPath (s.numbered + 1)), s.numbered + 1)

/-- Puts a handle under a label; one that was there goes away. -/
def keepHandle (label : String) (handle : JobHandle) : Dispatcher :=
  match s.handles.get? label with
  | none => { s with handles := s.handles.set label handle }
  | some old => { s with handles := s.handles.set label handle, table := s.table.drop old.ticket }

/-! ## Moves -/

/-- The pump moves a signal, or ends. -/
def movePump? : Option Dispatcher :=
  (s.feed.pump? s.stopping (s.listener ≠ .stopped)).map fun feed =>
    { s with feed }.rouseListener

/-- The listener, at the gate, handles a signal. -/
def handle (event : JobRemoved) : Dispatcher :=
  let resolved := s.table.resolve event.jobPath event.result
  ({ s with table := resolved.2, listener := .ready }.rouseAnswered resolved.1).openGate

/-- The listener ends, and the table is closed. -/
def stopListener : Dispatcher :=
  { s with listener := .stopped, table := s.table.close }.rouseDecided

/-- The listener takes the next signal, and skips it if it cannot be decoded. With none left it
ends, if it shall stop or if no more will come. It needs no seat where the gate is free. -/
def moveListener? : Option Dispatcher :=
  match s.listener with
  | .ready =>
    match s.feed.take? with
    | some (.undecodable _, feed) => some { s with feed }
    | some (.removed event, feed) =>
      if s.gateFree then some ({ s with feed }.handle event)
      else some { s with feed, listener := .seated event, room := s.room.enter .listener false }
    | none => if s.stopping || !s.feed.pumping then some s.stopListener else none
  | .seated event =>
    if s.gateFree then some ({ s with room := s.room.leave .listener }.handle event) else none
  | .stopped => none

/-- A request is issued by a caller that got the gate, unless the table is closed. -/
def issue (call : Call) : Dispatcher :=
  if s.table.closed then
    ((s.note call.label (.failed .listenerUnavailable)).openGate).stopIfAbandoned
  else
    { s with
      sent := s.sent ++ [ManagerCall.job call.request]
      underWay := some ⟨call, !call.held⟩ }.emitSignals call.before

/-- The reply of the call under way is taken up, and the gate is free again. -/
def takeUp (call : Call) : Dispatcher :=
  let (reply, numbered) := s.answer call.reply
  let s := { s with underWay := none, numbered }
  match s.table.takeUp reply with
  | (.error e, table) =>
    (({ s with table }.note call.label (.failed e)).openGate).stopIfAbandoned
  | (.ok ticket, table) =>
    let handle : JobHandle := ⟨call.request.unit, ticket⟩
    ((({ s with table }.rouseDecided.openGate).keepHandle call.label handle).note call.label
      (.started handle)).stopIfAbandoned

/-- The call of a number, if it is in the waiting room. -/
def seatedCall? (number : Nat) : Option Call :=
  s.room.guests.findSome? fun party => match party with
    | .call call => if call.number = number then some call else none
    | .listener => none

/-- A call gets the gate, or its reply is taken up. -/
def moveCall? (number : Nat) : Option Dispatcher :=
  match s.underWay with
  | some ⟨call, answered⟩ =>
    if call.number = number && answered then some (s.takeUp call) else none
  | none =>
    (s.seatedCall? number).map fun call =>
      { s with room := s.room.leave (.call call) }.issue call

/-- A wait that can end does so, and its waiter is gone. -/
def moveWait? (now : Nat) (ticket : Ticket) : Option Dispatcher :=
  (s.waits.find? (·.ticket = ticket)).bind fun w =>
    (s.verdict? now w).map fun outcome =>
      { s with waits := s.waits.erase w, table := s.table.drop w.ticket }.note w.label
        (.finished outcome)

/-- A move of someone. -/
def move? (now : Nat) : Actor → Option Dispatcher
  | .pump => s.movePump?
  | .listener => s.moveListener?
  | .call number => s.moveCall? number
  | .wait ticket => s.moveWait? now ticket

/-- The turn of someone is over. If it was called to the gate it came too late, and goes on waiting
at its place. -/
def pause (actor : Actor) : Dispatcher :=
  { s with
    agenda := s.agenda.dismiss
    room :=
      match s.room.guests.find? (·.actor = actor) with
      | some party => s.room.uncall party
      | none => s.room }

/-- The one whose turn it is makes a move, or its turn is over. -/
def step? (now : Nat) : Option Dispatcher :=
  s.agenda.next?.map fun actor => (s.move? now actor).getD (s.pause actor)

/-! ## Settling -/

/-- Signals that are on their way or will be emitted by calls that wait for the gate. -/
def pendingSignals : Nat :=
  s.feed.stream.length + s.feed.queue.length +
    (s.room.guests.map fun p => match p with
      | .call call => call.before.length
      | .listener => 0).foldl (· + ·) 0

/-- A bound on the number of steps that are possible before time goes on. -/
def work : Nat :=
  6 * s.pendingSignals + 8 * s.room.seats.length + 2 * s.waits.length + s.agenda.size + 16

/-- Makes at most `n` steps. -/
def steps (now : Nat) : Nat → Dispatcher → Dispatcher
  | 0, s => s
  | n + 1, s =>
    match s.step? now with
    | none => s
    | some s' => steps now n s'

/-- Goes on until nobody can. -/
def settle (now : Nat) : Dispatcher :=
  steps now s.work s

end SystemdControl.Dispatcher
