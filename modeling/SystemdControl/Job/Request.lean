import SystemdControl.Unit.Name
import SystemdControl.Unit.Property

/-!
# Requests to the manager

What can be asked of the manager, and the checks that every request passes before it is sent.

* `JobRequest.method?`, `JobRequest.transient?` and `KillRequest.make?` build a request from a
  caller's arguments, or say what is wrong with them;
* the spellings on the wire are `member`, `StartMode.spelling` and `KillWho.spelling`; `action` is
  what an error calls the request.
-/

namespace SystemdControl

/-- How a new job relates to those already queued. -/
inductive StartMode where
  | replace | fail | isolate | ignoreDependencies | ignoreRequirements
  deriving DecidableEq, Repr

instance : Inhabited StartMode := ⟨.replace⟩

def StartMode.spelling : StartMode → String
  | replace => "replace"
  | fail => "fail"
  | isolate => "isolate"
  | ignoreDependencies => "ignore-dependencies"
  | ignoreRequirements => "ignore-requirements"

/-- Which processes of a unit get a signal. -/
inductive KillWho where
  | main | control | all
  deriving DecidableEq, Repr

instance : Inhabited KillWho := ⟨.all⟩

def KillWho.spelling : KillWho → String
  | main => "main"
  | control => "control"
  | all => "all"

/-- The methods that queue a job for a unit that exists. -/
inductive UnitMethod where
  | start | stop | reload | restart | tryRestart | reloadOrRestart | reloadOrTryRestart
  deriving DecidableEq, Repr

namespace UnitMethod

/-- The name of the method on the manager's interface. -/
def member : UnitMethod → String
  | start => "StartUnit"
  | stop => "StopUnit"
  | reload => "ReloadUnit"
  | restart => "RestartUnit"
  | tryRestart => "TryRestartUnit"
  | reloadOrRestart => "ReloadOrRestartUnit"
  | reloadOrTryRestart => "ReloadOrTryRestartUnit"

/-- What errors call the method. -/
def action : UnitMethod → String
  | start => "start_unit"
  | stop => "stop_unit"
  | reload => "reload_unit"
  | restart => "restart_unit"
  | tryRestart => "try_restart_unit"
  | reloadOrRestart => "reload_or_restart_unit"
  | reloadOrTryRestart => "reload_or_try_restart_unit"

end UnitMethod

/-- A request that makes the manager queue a job. -/
inductive JobRequest where
  | method (method : UnitMethod) (unit : String) (mode : StartMode)
  | transient (unit : String) (mode : StartMode) (properties : List UnitProperty)
  deriving DecidableEq

namespace JobRequest

/-- The unit that the job is for. -/
def unit : JobRequest → String
  | method _ unit _ | transient unit _ _ => unit

def mode : JobRequest → StartMode
  | method _ _ mode | transient _ mode _ => mode

/-- The name of the method on the manager's interface. -/
def member : JobRequest → String
  | method m _ _ => m.member
  | transient _ _ _ => "StartTransientUnit"

/-- What errors call the request. -/
def action : JobRequest → String
  | method m _ _ => m.action
  | transient _ _ _ => "start_transient_unit"

/-- A request for a unit that a caller named. -/
def method? (method : UnitMethod) (unit : String) (mode : StartMode) : Except Error JobRequest := do
  return .method method (← UnitName.canonicalize unit) mode

/-- A request for a new unit with these properties. -/
def transient? (unit : String) (mode : StartMode) (properties : List UnitProperty) :
    Except Error JobRequest := do
  let name ← UnitName.canonicalize unit
  properties.forM fun p => PropertyName.validate p.name
  return .transient name mode properties

end JobRequest

/-- A request to send a signal to the processes of a unit; it queues no job. -/
structure KillRequest where
  unit : String
  who : KillWho
  signal : Int32
  deriving DecidableEq

/-- A request to signal a unit that a caller named. -/
def KillRequest.make? (unit : String) (who : KillWho) (signal : Int32) :
    Except Error KillRequest := do
  let name ← UnitName.canonicalize unit
  if signal ≤ 0 then throw (.invalidInput .signalNotPositive)
  return ⟨name, who, signal⟩

/-- A request as the manager sees it. -/
inductive ManagerCall where
  | job (request : JobRequest)
  | kill (request : KillRequest)
  deriving DecidableEq

end SystemdControl
