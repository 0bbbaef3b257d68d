import SystemdControl.Error
import SystemdControl.Text.Part

/-!
# Faults of calls

What can go wrong with a call over the bus, and the errors that callers see.

* `Fault.text` is what the bus says;
* `Fault.toError` keeps a refusal as it is and wraps all else;
* `Fault.toCallError` first looks for a missing unit, then for a missing permission, then for a
  call that took too long. It looks at the name of a refusal and never at its message. What is left
  of the refusals it builds itself, and all else it leaves to `Fault.toError`.
-/

namespace SystemdControl

/-- What went wrong with a call. -/
inductive Fault where
  /-- The manager refused the call. -/
  | refused (name : String) (detail : Option String)
  | io (timedOut : Bool) (text : String)
  | address (text : String)
  | handshake (text : String)
  | failure (text : String)
  | interfaceNotFound
  | invalidReply
  | signatureMismatch (found expected : String)
  /-- A text holds a NUL, which the wire cannot carry. -/
  | nulInText
  deriving DecidableEq, Repr

namespace Fault

/-- What the bus says. -/
def text : Fault → String
  | refused name detail => name ++ ": " ++ detail.getD "no details"
  | io _ t => "I/O error: " ++ t
  | address t => "address error: " ++ t
  | handshake t => "D-Bus handshake failed: " ++ t
  | failure t => t
  | interfaceNotFound => "Interface not found"
  | invalidReply => "Invalid D-Bus method reply"
  | signatureMismatch found expected =>
    "Signature mismatch: got " ++ found ++ ", expected " ++ expected
  | nulInText => "a text on the wire must not contain interior null bytes"

/-- The error of a fault, whatever the call. -/
def toError : Fault → Error
  | refused name detail => .dbus name (detail.getD "")
  | io _ t => .io ("dbus io error: " ++ t)
  | fault => .io ("dbus error: " ++ fault.text)

/-- Whether the name of a refusal says that there is no such unit. -/
def namesMissingUnit (name : String) : Bool :=
  Part.inText "NoSuchUnit" name || Part.inText "UnknownUnit" name

/-- Whether the name of a refusal says that the caller may not do this. -/
def namesMissingPermission (name : String) : Bool :=
  Part.inText "AccessDenied" name || Part.inText "PermissionDenied" name ||
    Part.inText "PolicyKit" name

/-- The error of a call, which may be about a unit. -/
def toCallError (action : String) (timeout : Duration) (unit : Option String) (fault : Fault) :
    Error :=
  match fault with
  | refused name detail =>
    match namesMissingUnit name, unit with
    | true, some unit => .unitNotFound unit
    | _, _ =>
      if namesMissingPermission name then
        .permissionDenied action (name ++ ": " ++ detail.getD "")
      else .dbus name (detail.getD "")
  | io true _ => .timeout action timeout
  | _ => fault.toError

/-- The error of a fault in the rule that selects the signals. -/
def toMatchRuleError (fault : Fault) : Error :=
  .io ("job signal match rule error: " ++ fault.text)

/-- The error of a fault in the subscription to the signals. -/
def toSubscribeError (fault : Fault) : Error :=
  .io ("job signal subscribe failed: " ++ fault.text)

end Fault

end SystemdControl
