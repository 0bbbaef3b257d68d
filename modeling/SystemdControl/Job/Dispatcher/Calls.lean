import SystemdControl.Job.Dispatcher.Moves

/-!
# What callers ask of the dispatcher

The calls of the interface, as changes of the dispatcher's state before anything moves.

* `Dispatcher.start` and `Dispatcher.kill` take a checked request, or the error of its check, which
  is answered at once and without the gate;
* `Dispatcher.wait` uses a handle up, `Dispatcher.drop` abandons a handle or a call at any point;
* `Dispatcher.release` lets the manager answer a call that it keeps waiting.
-/

namespace SystemdControl

/-- What an abandoned label stood for. -/
inductive Dropped where
  | handle | task | missing
  deriving DecidableEq, Repr

namespace Dispatcher

variable (s : Dispatcher)

/-- A caller asks for a job. -/
def start (label : String) (request : Except Error JobRequest) (before : List Signal) (held : Bool)
    (reply : Reply) : Dispatcher :=
  match request with
  | .error e => s.note label (.failed e)
  | .ok request =>
    let call : Call := ⟨s.begun, label, request, before, held, reply⟩
    { s with begun := s.begun + 1, room := s.room.enter (.call call) true }.rouse
      (.call call.number)

/-- The answer to a request to signal a unit. -/
def killEvent : Option Error → JobEvent
  | some e => .failed e
  | none => .killed

/-- A caller asks to signal a unit. -/
def kill (label : String) (request : Except Error KillRequest) (held : Bool) (fail : Option Error) :
    Dispatcher :=
  match request with
  | .error e => s.note label (.failed e)
  | .ok request =>
    let s := { s with sent := s.sent ++ [ManagerCall.kill request] }
    if held then { s with kills := s.kills ++ [(label, fail)] }
    else s.note label (killEvent fail)

/-- The manager answers a request to signal a unit that it kept waiting. -/
def releaseKill (label : String) : Bool × Dispatcher :=
  match s.kills.get? label with
  | some fail =>
    (true, ({ s with kills := s.kills.remove label }.note label (killEvent fail)).stopIfAbandoned)
  | none => (false, s)

/-- The manager answers a call that it kept waiting; `false` if there is none of that label. -/
def release (label : String) : Bool × Dispatcher :=
  match s.underWay with
  | some ⟨call, false⟩ =>
    if call.label = label then
      (true, { s with underWay := some ⟨call, true⟩ }.rouse (.call call.number))
    else s.releaseKill label
  | _ => s.releaseKill label

/-- A caller waits for the job of a handle, which is used up; `false` if there is no handle. -/
def wait (now : Nat) (label : String) (limit : Option Duration) : Bool × Dispatcher :=
  match s.handles.get? label with
  | none => (false, s)
  | some ⟨_, ticket⟩ =>
    let s := { s with handles := s.handles.remove label }
    match limit with
    | none =>
      let w : Wait := ⟨label, ticket, none⟩
      (true, { s with waits := s.waits ++ [w] }.rouse (.wait ticket))
    | some d =>
      if d.isZero then
        (true, { s with table := s.table.drop ticket }.note label
          (.finished (.error (.invalidInput .timeoutZero))))
      else
        let w : Wait := ⟨label, ticket, some ⟨d, now + d.toNanos⟩⟩
        (true, { s with waits := s.waits ++ [w] }.rouse (.wait ticket))

/-- Whether someone in the waiting room is the call of a label. -/
def isCallOf (label : String) : Party → Bool
  | .call call => call.label = label
  | .listener => false

/-- Abandons a call that has not ended; `none` if there is none of that label. -/
def dropTask? (label : String) : Option Dispatcher :=
  if (s.underWay.map (·.call.label)) = some label then
    some ({ s with underWay := none }.openGate).stopIfAbandoned
  else
    match s.room.guests.find? (isCallOf label) with
    | some party => some (s.giveUpSeat party).stopIfAbandoned
    | none =>
      if s.kills.has label then
        some { s with kills := s.kills.remove label }.stopIfAbandoned
      else
        (s.waits.find? (·.label = label)).map fun w =>
          { s with waits := s.waits.erase w, table := s.table.drop w.ticket }

/-- Abandons a handle, or else a call that has not ended. -/
def drop (label : String) : Dropped × Dispatcher :=
  match s.handles.get? label with
  | some handle =>
    (.handle, { s with handles := s.handles.remove label, table := s.table.drop handle.ticket })
  | none =>
    match s.dropTask? label with
    | some s' => (.task, s')
    | none => (.missing, s)

/-- The manager emits signals; the number is of those that found the stream open. -/
def emit (signals : List Signal) : Nat × Dispatcher :=
  (if s.feed.accepts then signals.length else 0, s.emitSignals signals)

/-- The stream of signals ends. -/
def disconnect : Dispatcher :=
  { s with feed := s.feed.finish }.rouse .pump

/-- A further value through which calls can be made. -/
def addHolder (label : String) (access : Access) : Dispatcher :=
  { s with holders := s.holders.set label access }

/-- A value through which calls could be made goes away; `false` if there is none of that label. -/
def dropHolder (label : String) : Bool × Dispatcher :=
  (s.holders.has label, { s with holders := s.holders.remove label }.stopIfAbandoned)

/-- The number of calls of other kinds that are under way. -/
def withGuests (guests : Nat) : Dispatcher :=
  { s with guests }.stopIfAbandoned

/-- Whether the listener is running, as far as someone is left who can ask. -/
def listening? : Option Bool :=
  if s.holders.any (·.2 = .bus) then some (!s.table.closed) else none

end Dispatcher

end SystemdControl
