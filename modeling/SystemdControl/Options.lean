import SystemdControl.Time.Duration
import SystemdControl.Unit.Delta

/-!
# Options

What a caller may set for a connection, a subscription and a task, with the defaults, and the
listings of the first two.
-/

namespace SystemdControl

/-- Options of a connection. -/
structure BusOptions where
  /-- How long a call may go without an answer. -/
  callTimeout : Duration := .ofSecs 5
  /-- How many signals may wait for the listener. -/
  capacity : Nat := 100

/-- The options as a listing. -/
def BusOptions.text (o : BusOptions) : String :=
  "UnitBusOptions \x7b dbus_call_timeout: " ++ o.callTimeout.text ++ ", notification_capacity: " ++
    toString o.capacity ++ " \x7d"

/-- Records are equal if all their fields are. -/
def structurally : Equality := fun a b => a == b

/-- Options of a subscription. -/
structure SubscribeOptions where
  /-- The time from one fetch to the next. -/
  interval : Duration := .ofSecs 1
  /-- How many changes, and how many errors, may wait to be read. -/
  buffer : Nat := 1
  equal : Equality := structurally

/-- The options as a listing. -/
def SubscribeOptions.text (o : SubscribeOptions) : String :=
  "SubscribeOptions \x7b interval: " ++ o.interval.text ++ ", buffer: " ++ toString o.buffer ++
    ", .. \x7d"

/-- A command to be run once, as a unit of its own. -/
structure TaskSpec where
  argv : List String := []
  env : List (String × String) := []
  workdir : Option String := none
  timeout : Duration := .ofSecs 60
  nameHint : Option String := none

end SystemdControl
