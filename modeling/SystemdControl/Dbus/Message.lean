import SystemdControl.Dbus.Fault
import SystemdControl.Dbus.Value
import SystemdControl.Job.Request
import SystemdControl.Job.Result
import SystemdControl.Unit.Status

/-!
# Messages

The calls that are sent to the manager and the bodies that come back.

* `MethodCall.ofJob`, `ofKill`, `listUnits` and `subscribe` are the calls;
* `Body.jobPath?`, `Body.empty?` and `Body.units?` read a reply, which must have the one signature
  that the call expects;
* `JobRemoved.ofBody?` reads the signal of a job that is gone;
* `MethodCall.fits` and `Body.fits` say that the wire can carry all texts of a message.
-/

namespace SystemdControl

namespace Manager

def destination : String := "org.freedesktop.systemd1"

def objectPath : String := "/org/freedesktop/systemd1"

/-- The interface of the manager. -/
def interface : String := "org.freedesktop.systemd1.Manager"

end Manager

/-- One argument of a call. -/
inductive Argument where
  | value (v : WireValue)
  /-- Properties, each with its value as a variant. -/
  | properties (ps : List (String × WireValue))
  /-- Further units to be made with this one, of which there are none. -/
  | auxiliary
  deriving DecidableEq

def Argument.signature : Argument → String
  | value v => v.signature
  | properties _ => "a(sv)"
  | auxiliary => "a(sa(sv))"

/-- Whether all texts of an argument can be sent. -/
def Argument.fits : Argument → Bool
  | value v => v.fits
  | properties ps => ps.all fun p => Wire.fitsText p.1 && p.2.fits
  | auxiliary => true

/-- A call of a method of the manager. -/
structure MethodCall where
  member : String
  body : List Argument
  deriving DecidableEq

namespace MethodCall

/-- The signature of the arguments, as one structure; empty if there are none. -/
def signature (c : MethodCall) : String :=
  if c.body.isEmpty then "" else "(" ++ String.join (c.body.map Argument.signature) ++ ")"

/-- Whether the call can be sent. -/
def fits (c : MethodCall) : Bool :=
  c.body.all Argument.fits

/-- The call that queues a job. -/
def ofJob (request : JobRequest) : MethodCall :=
  let target : List Argument := [.value (.text request.unit), .value (.text request.mode.spelling)]
  match request with
  | .method .. => ⟨request.member, target⟩
  | .transient _ _ properties =>
    ⟨request.member, target ++ [.properties (properties.map Wire.ofProperty), .auxiliary]⟩

/-- The call that signals a unit. -/
def ofKill (request : KillRequest) : MethodCall :=
  ⟨"KillUnit",
    [.value (.text request.unit), .value (.text request.who.spelling),
      .value (.i32 request.signal)]⟩

/-- The call that lists all units. -/
def listUnits : MethodCall := ⟨"ListUnits", []⟩

/-- The call that asks the manager to send signals. -/
def subscribe : MethodCall := ⟨"Subscribe", []⟩

end MethodCall

/-- The body of a message that comes back. -/
inductive Body where
  | values (vs : List WireValue)
  | rows (rs : List UnitRow)
  deriving DecidableEq

namespace Body

/-- The signature of a body. -/
def signature : Body → String
  | values vs => String.join (vs.map WireValue.signature)
  | rows _ => "a(ssssssouso)"

/-- Whether all texts of a body are ones that the wire can carry. -/
def fits : Body → Bool
  | values vs => vs.all WireValue.fits
  | rows rs => rs.all fun r =>
    [r.name, r.description, r.loadState, r.activeState, r.subState, r.followed, r.unitPath,
      r.jobType, r.jobPath].all Wire.fitsText

/-- The path of a job, as replied to the calls that queue one. -/
def jobPath? : Body → Except Fault JobPath
  | values [.objectPath p] => .ok ⟨p⟩
  | body => .error (.signatureMismatch body.signature "o")

/-- The reply to a call that returns nothing. -/
def empty? : Body → Except Fault Unit
  | values [] => .ok ()
  | body => .error (.signatureMismatch body.signature "")

/-- The reply to a listing. -/
def units? : Body → Except Fault (List UnitStatus)
  | rows rs => .ok (rs.map .ofRow)
  | body => .error (.signatureMismatch body.signature "a(ssssssouso)")

end Body

/-- The event of a signal body: a number, a path and two texts, all of which the wire can carry. -/
def JobRemoved.ofBody? (vs : List WireValue) : Except Error JobRemoved :=
  if !(Body.values vs).fits then .error (.dbus "SignalDecode" Fault.nulInText.text)
  else
    match vs with
    | [.u32 id, .objectPath path, .text unit, .text result] =>
      .ok ⟨id, ⟨path⟩, unit, .parse result⟩
    | vs =>
      .error (.dbus "SignalDecode"
        (Fault.signatureMismatch (Body.values vs).signature "uoss").text)

end SystemdControl
