import SystemdControl.Dbus.Connection
import SystemdControl.Session.Blocking

/-!
# Calls about units

The members by which a caller asks for a job or signals a unit, one for each method of the manager.
A member says what is to be done with the unit that is named; the request is built and checked when
the call is made.

* `Units` are the members, `BlockingUnits` the same for callers that wait for the answer;
* `JobCall.step` and `KillCall.step` are the calls in a session, `JobCall.send` and `KillCall.send`
  over a connection.
-/

namespace SystemdControl

/-- What becomes of a call for a job: the signals that the manager sends before its reply, whether
the reply is held back, and the reply. -/
structure Treatment where
  before : List Signal := []
  held : Bool := false
  reply : Reply := .nextJob

/-- A call for a job. -/
structure JobCall where
  unit : String
  mode : StartMode
  ask : Ask

namespace JobCall

/-- The call as a step of a session. -/
def step (call : JobCall) (label : String) (t : Treatment) : Step :=
  .start label call.unit call.mode call.ask t.before t.held t.reply

/-- The call over a connection, where the bus answers with `reply`. -/
def send (call : JobCall) (label : String) (reply : BusReply) : ConnectionStep :=
  .start label (call.ask.request? call.unit call.mode) reply

end JobCall

/-- A call to signal a unit. -/
structure KillCall where
  unit : String
  who : KillWho
  signal : Int32

namespace KillCall

/-- The call as a step of a session. The reply may be held back, and may be an error. -/
def step (call : KillCall) (label : String) (held : Bool) (fail : Option Error) : Step :=
  .kill label call.unit call.who call.signal held fail

/-- The call over a connection, where the bus answers with `reply`. -/
def send (call : KillCall) (reply : BusReply) : ConnectionStep :=
  .kill (KillRequest.make? call.unit call.who call.signal) reply

end KillCall

namespace Units

/-- Asks for a job by a method for units that exist. -/
def enqueue (method : UnitMethod) (unit : String) (mode : StartMode) : JobCall :=
  ⟨unit, mode, .method method⟩

def start (unit : String) (mode : StartMode) : JobCall :=
  enqueue .start unit mode

def stop (unit : String) (mode : StartMode) : JobCall :=
  enqueue .stop unit mode

/-- The job fails if the unit is not running. -/
def reload (unit : String) (mode : StartMode) : JobCall :=
  enqueue .reload unit mode

/-- Starts the unit if it is not running. -/
def restart (unit : String) (mode : StartMode) : JobCall :=
  enqueue .restart unit mode

/-- Restarts the unit only if it is running. -/
def tryRestart (unit : String) (mode : StartMode) : JobCall :=
  enqueue .tryRestart unit mode

/-- Restarts a unit that cannot be reloaded. -/
def reloadOrRestart (unit : String) (mode : StartMode) : JobCall :=
  enqueue .reloadOrRestart unit mode

/-- Restarts a unit that cannot be reloaded, only if it is running. -/
def reloadOrTryRestart (unit : String) (mode : StartMode) : JobCall :=
  enqueue .reloadOrTryRestart unit mode

/-- Makes a new unit with these properties, and starts it. -/
def startTransient (unit : String) (mode : StartMode) (properties : List UnitProperty) : JobCall :=
  ⟨unit, mode, .transient properties⟩

/-- Signals the processes of a unit that `who` selects. -/
def kill (unit : String) (who : KillWho) (signal : Int32) : KillCall :=
  ⟨unit, who, signal⟩

end Units

namespace BlockingUnits

variable (executor : Executor) (s : Session)

/-- Waits for the answer to a call for a job. -/
def await (call : JobCall) (label : String) (t : Treatment) : Blocking.Report × Session :=
  Blocking.step executor s (call.step label t)

def start (unit : String) (mode : StartMode) : String → Treatment → Blocking.Report × Session :=
  await executor s (Units.start unit mode)

def stop (unit : String) (mode : StartMode) : String → Treatment → Blocking.Report × Session :=
  await executor s (Units.stop unit mode)

def reload (unit : String) (mode : StartMode) : String → Treatment → Blocking.Report × Session :=
  await executor s (Units.reload unit mode)

def restart (unit : String) (mode : StartMode) : String → Treatment → Blocking.Report × Session :=
  await executor s (Units.restart unit mode)

def tryRestart (unit : String) (mode : StartMode) :
    String → Treatment → Blocking.Report × Session :=
  await executor s (Units.tryRestart unit mode)

def reloadOrRestart (unit : String) (mode : StartMode) :
    String → Treatment → Blocking.Report × Session :=
  await executor s (Units.reloadOrRestart unit mode)

def reloadOrTryRestart (unit : String) (mode : StartMode) :
    String → Treatment → Blocking.Report × Session :=
  await executor s (Units.reloadOrTryRestart unit mode)

def startTransient (unit : String) (mode : StartMode) (properties : List UnitProperty) :
    String → Treatment → Blocking.Report × Session :=
  await executor s (Units.startTransient unit mode properties)

def kill (unit : String) (who : KillWho) (signal : Int32) (label : String) (held : Bool)
    (fail : Option Error) : Blocking.Report × Session :=
  Blocking.step executor s ((Units.kill unit who signal).step label held fail)

end BlockingUnits

end SystemdControl
