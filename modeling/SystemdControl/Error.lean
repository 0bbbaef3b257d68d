import SystemdControl.Text.Control
import SystemdControl.Text.Quoted
import SystemdControl.Time.Duration

/-!
# Errors

Every way in which a request can fail, by its cause, with the wording of each cause in one place.

* `InputFault` are the reasons for which an argument is refused before anything is sent;
* `Error` are the answers of a failed request, `Error.message` their texts.
-/

namespace SystemdControl

/-- What is wrong with an argument. -/
inductive InputFault where
  /-- The named argument holds a control character, the first one of this class. -/
  | control (what : String) (found : Control)
  | unitEmpty
  | unitPathSeparator
  | unitParentReference
  | propertyNameEmpty
  | propertyNameAlphabet (name : String)
  | envKeyEmpty
  | envKeyEquals
  | signalNotPositive
  | timeoutZero
  | intervalZero
  /-- A blocking call was made on the only thread of the executor that would have to serve it. -/
  | blocksOnlyThread
  | other (context : String)
  deriving DecidableEq, Repr

/-- What a complaint says about the argument. -/
def InputFault.context : InputFault → String
  | control what found => what ++ " must not contain " ++ found.noun
  | unitEmpty => "unit must not be empty"
  | unitPathSeparator => "unit must not contain path separators"
  | unitParentReference => "unit must not contain '..'"
  | propertyNameEmpty => "property name must not be empty"
  | propertyNameAlphabet name =>
    "property name " ++ Quoted.render name ++ " must be ASCII alphanumeric"
  | envKeyEmpty => "env key must not be empty"
  | envKeyEquals => "env key must not contain '='"
  | signalNotPositive => "signal must be > 0"
  | timeoutZero => "timeout must be > 0"
  | intervalZero => "interval must be > 0"
  | blocksOnlyThread =>
    "blocking API cannot run inside a tokio current-thread runtime; " ++
      "use async API or a multi-thread tokio runtime"
  | other context => context

/-- Why a request failed. -/
inductive Error where
  | invalidInput (fault : InputFault)
  | permissionDenied (action detail : String)
  | unitNotFound (unit : String)
  /-- The result of a job did not arrive in time. -/
  | jobTimeout (jobPath : String) (limit : Duration)
  /-- The manager did not answer a call in time. -/
  | timeout (action : String) (limit : Duration)
  | backendUnavailable (backend detail : String)
  /-- The manager refused the call for any other reason. -/
  | dbus (name message : String)
  | io (context : String)
  /-- The listener stopped, so the job can no longer be observed. -/
  | listenerStopped (jobPath : String)
  /-- The same job path was registered again. -/
  | jobSuperseded (jobPath : String)
  deriving DecidableEq

namespace Error

/-- The text of an error. -/
def message : Error → String
  | invalidInput fault => "invalid input: " ++ fault.context
  | permissionDenied action detail => "permission denied for " ++ action ++ ": " ++ detail
  | unitNotFound unit => "unit not found: " ++ unit
  | jobTimeout jobPath limit => "job timeout for " ++ jobPath ++ ": " ++ limit.text
  | timeout action limit => "timeout for " ++ action ++ ": " ++ limit.text
  | backendUnavailable backend detail => "backend unavailable (" ++ backend ++ "): " ++ detail
  | dbus name message => "dbus error " ++ name ++ ": " ++ message
  | io context => "io error: " ++ context
  | listenerStopped jobPath => "job listener stopped before " ++ jobPath ++ " completed"
  | jobSuperseded jobPath => "job " ++ jobPath ++ " was superseded by a newer registration"

/-- The answer to a registration after the listener has stopped. -/
def listenerUnavailable : Error :=
  backendUnavailable "job_listener" "JobRemoved listener has stopped"

end Error

/-- Refuses a text that holds a control character; `what` names the argument. -/
def ensurePrintable (what text : String) : Except Error Unit :=
  match Control.first? text with
  | none => .ok ()
  | some found => .error (.invalidInput (.control what found))

end SystemdControl
