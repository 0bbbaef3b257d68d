import SystemdControl.Dbus.Message
import SystemdControl.Job.Batch
import SystemdControl.Job.Dispatcher.Basic
import SystemdControl.Options

/-!
# Connections to the system bus

A caller that talks to the manager over the bus, one call at a time; the answers of the bus are
part of the steps.

* `Connection.connect` opens a connection and asks for signals;
* `Connection.step` is one step, with the call that it sent, if it sent one.
-/

namespace SystemdControl

/-- What the bus answers to a call. -/
inductive BusReply where
  | body (body : Body)
  | error (name : String) (detail : Option String)
  /-- No answer at all. -/
  | silent

/-- The reply to a call, unless it is a fault. A body whose texts the wire cannot carry is one, and
a detail of that kind counts as none. -/
def BusReply.body? : BusReply → Except Fault Body
  | body b => if b.fits then .ok b else .error .nulInText
  | error name detail => .error (.refused name (detail.filter Wire.fitsText))
  | silent => .error (.io true "timed out")

/-- A signal as it is on the bus. -/
structure RawSignal where
  path : String
  interface : String
  member : String
  body : List WireValue

/-- Whether a signal is one of those that were asked for. -/
def RawSignal.isJobRemoved (s : RawSignal) : Bool :=
  s.path == Manager.objectPath && s.interface == Manager.interface && s.member == "JobRemoved"

/-- One step over a connection. -/
inductive ConnectionStep where
  | start (label : String) (request : Except Error JobRequest) (reply : BusReply)
  | kill (request : Except Error KillRequest) (reply : BusReply)
  | list (reply : BusReply)
  | wait (label : String) (limit : Option Duration)
  | signal (signal : RawSignal)
  | disconnect

/-- The answer to a step. -/
inductive ConnectionAnswer where
  | ok
  | started (handle : JobHandle)
  | killed
  | listed (units : List UnitStatus)
  | finished (outcome : Except Error JobResult)
  | failed (error : Error)
  | missing
  /-- The call would never return. -/
  | stuck

/-- A connection and the jobs that were queued over it. -/
structure Connection where
  options : BusOptions
  table : JobTable := {}
  handles : Labelled JobHandle := []
  /-- Whether the bus is still there. -/
  alive : Bool := true

namespace Connection

/-- Reads the reply to a call; `unit` is the unit that the call is about. -/
def read {α : Type} (options : BusOptions) (action : String) (unit : Option String)
    (reader : Body → Except Fault α) (reply : Except Fault Body) : Except Error α :=
  match reply >>= reader with
  | .ok a => .ok a
  | .error fault => .error (fault.toCallError action options.callTimeout unit)

/-- Opens a connection. `answers` are the replies to the calls that this takes, by member; the list
is of the calls that the manager got. -/
def connect (options : BusOptions) (refused : Bool) (answers : String → BusReply) :
    List MethodCall × Except Error Connection :=
  if refused then ([], .error (.backendUnavailable "system_bus" "connection refused"))
  else
    match (answers "Hello").body?, (answers "AddMatch").body? with
    | .error fault, _ => ([], .error (.backendUnavailable "system_bus" fault.text))
    | _, .error fault => ([], .error fault.toSubscribeError)
    | .ok _, .ok _ =>
      let reply := (answers "Subscribe").body?
      ([.subscribe], (read options "subscribe" none Body.empty? reply).map fun _ => { options })

variable (c : Connection)

/-- The reply to a call, and the call if the manager gets it: the bus must be there to carry it, and
a call whose texts the wire cannot carry is never answered. -/
def send (call : MethodCall) (reply : BusReply) : List MethodCall × Except Fault Body :=
  if !c.alive then ([], .error (.io false "broken pipe"))
  else if call.fits then ([call], reply.body?)
  else ([], BusReply.silent.body?)

/-- A caller asks for a job. -/
def start (label : String) (request : JobRequest) (reply : BusReply) :
    List MethodCall × ConnectionAnswer × Connection :=
  if c.table.closed then ([], .failed .listenerUnavailable, c)
  else
    let (calls, reply) := c.send (.ofJob request) reply
    let path := read c.options request.action (some request.unit) Body.jobPath? reply
    match c.table.takeUp path with
    | (.error e, table) => (calls, .failed e, { c with table })
    | (.ok ticket, table) =>
      let handle : JobHandle := ⟨request.unit, ticket⟩
      (calls, .started handle, { c with table, handles := c.handles.set label handle })

/-- One step, with the calls that the manager got. -/
def step : ConnectionStep → List MethodCall × ConnectionAnswer × Connection
  | .start _ (.error e) _ => ([], .failed e, c)
  | .start label (.ok request) reply => c.start label request reply
  | .kill (.error e) _ => ([], .failed e, c)
  | .kill (.ok request) reply =>
    let (calls, reply) := c.send (.ofKill request) reply
    match read c.options "kill_unit" (some request.unit) Body.empty? reply with
    | .ok () => (calls, .killed, c)
    | .error e => (calls, .failed e, c)
  | .list reply =>
    let (calls, reply) := c.send .listUnits reply
    match read c.options "list_units" none Body.units? reply with
    | .ok units => (calls, .listed units, c)
    | .error e => (calls, .failed e, c)
  | .wait label limit =>
    match c.handles.get? label with
    | none => ([], .missing, c)
    | some handle =>
      let (outcome, table) := Batch.waitOne c.table handle.ticket limit
      let answer := match outcome with
        | some outcome => .finished outcome
        | none => .stuck
      ([], answer, { c with table, handles := c.handles.remove label })
  | .signal signal =>
    if signal.isJobRemoved && c.alive then
      match JobRemoved.ofBody? signal.body with
      | .ok event => ([], .ok, { c with table := (c.table.resolve event.jobPath event.result).2 })
      | .error _ => ([], .ok, c)
    else ([], .ok, c)
  | .disconnect => ([], .ok, { c with alive := false, table := c.table.close })

/-- The steps in order, each with its calls and its answer. -/
def run : List ConnectionStep → Connection → List (List MethodCall × ConnectionAnswer)
  | [], _ => []
  | x :: rest, c =>
    let (calls, answer, c) := c.step x
    (calls, answer) :: run rest c

end Connection

end SystemdControl
