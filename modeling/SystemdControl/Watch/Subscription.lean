import SystemdControl.Executor
import SystemdControl.Options

/-!
# Subscriptions to the inventory

A poller fetches the list of all units again and again, and publishes what changed since the last
successful fetch. Each cycle sets an alarm, fetches, publishes the changes (and waits for room
where too many are unread) or the error (which is lost where too many are unread), and then waits
for the alarm.

* `Subscription.begin` starts a fetch, `Subscription.move?` is every other move of the poller;
* `Subscription.readChange` and `Subscription.readError` are the subscriber's end;
* a cancelled poller ends instead of waiting; what was published before stays readable.
-/

namespace SystemdControl

/-- A fetch that has begun: what it will give, and when. -/
structure Fetch where
  result : Except Error (List UnitStatus)
  ready : Nat

/-- Where in its cycle a poller is. -/
inductive Phase where
  /-- A cycle is about to begin. -/
  | due
  | fetching (fetch : Fetch)
  /-- Changes to this inventory wait for room. -/
  | publishing (delta : UnitDelta) (current : Snapshot)
  /-- The alarm has not gone off. -/
  | resting
  | ended

/-- What reading gives: something, nothing yet, or nothing ever. -/
inductive Reading (α : Type) where
  | item (a : α)
  | pending
  | ended

/-- A poller, with what it has published and nobody has read. -/
structure Subscription where
  /-- The time between the beginnings of two fetches, in nanoseconds. -/
  interval : Nat
  /-- A poller cannot spin at one moment. -/
  interval_pos : 0 < interval
  buffer : Nat
  equal : Equality
  cancelled : Bool := false
  phase : Phase := .due
  /-- When the present cycle may be over. -/
  alarm : Nat := 0
  /-- The inventory of the last published changes. -/
  baseline : Snapshot := .empty
  changes : List UnitDelta := []
  errors : List Error := []

namespace Subscription

/-- A subscription that has not fetched yet. -/
def open? (o : SubscribeOptions) : Except Error Subscription :=
  if h : 0 < o.interval.toNanos then
    .ok { interval := o.interval.toNanos, interval_pos := h, buffer := o.buffer, equal := o.equal }
  else .error (.invalidInput .intervalZero)

/-- A subscription whose poller runs on the executor around the call. -/
def openOn (executor : Executor) (o : SubscribeOptions) : Except Error Subscription := do
  let p ← open? o
  executor.spawn "units"
  return p

variable (p : Subscription)

/-- How many changes, and how many errors, can be unread. -/
def size : Nat :=
  max p.buffer 1

/-! ## The poller -/

/-- Whether the next move is to start a fetch. -/
def wantsFetch : Bool :=
  match p.phase with
  | .due => !p.cancelled
  | _ => false

/-- The poller sets its alarm and starts to fetch. -/
def begin (now : Nat) (fetch : Fetch) : Subscription :=
  { p with phase := .fetching fetch, alarm := now + p.interval }

/-- The poller after the answer to its fetch. -/
def receive : Except Error (List UnitStatus) → Subscription
  | .ok units =>
    let current := Snapshot.ofUnits units
    { p with phase := .publishing (.between p.equal p.baseline current) current }
  | .error e =>
    { p with
      phase := .resting
      errors := if p.errors.length < p.size then p.errors ++ [e] else p.errors }

/-- The poller ends if it is cancelled, and waits otherwise. -/
def endIfCancelled : Option Subscription :=
  if p.cancelled then some { p with phase := .ended } else none

/-- A move of the poller other than to start a fetch. What it waits for comes before the
cancellation if both are there. -/
def move? (now : Nat) : Option Subscription :=
  match p.phase with
  | .due => p.endIfCancelled
  | .fetching fetch => if fetch.ready ≤ now then some (p.receive fetch.result) else p.endIfCancelled
  | .publishing delta current =>
    if p.changes.length < p.size then
      some { p with phase := .resting, changes := p.changes ++ [delta], baseline := current }
    else p.endIfCancelled
  | .resting => if p.alarm ≤ now then some { p with phase := .due } else p.endIfCancelled
  | .ended => none

/-- Whether the poller can go on at a given time. -/
def canMove (now : Nat) : Bool :=
  p.wantsFetch || (p.move? now).isSome

/-- When the poller goes on by itself, if time is what it waits for. -/
def alarm? : Option Nat :=
  match p.phase with
  | .fetching fetch => some fetch.ready
  | .resting => some p.alarm
  | _ => none

/-! ## The subscriber -/

/-- Whether nothing more will be published. -/
def hasEnded : Bool :=
  match p.phase with
  | .ended => true
  | _ => false

/-- Whether changes wait for room. -/
def isPublishing : Bool :=
  match p.phase with
  | .publishing .. => true
  | _ => false

def cancel : Subscription :=
  { p with cancelled := true }

/-- Takes the next unread changes. -/
def readChange : Reading UnitDelta × Subscription :=
  match p.changes with
  | delta :: rest => (.item delta, { p with changes := rest })
  | [] => (if p.hasEnded then .ended else .pending, p)

/-- Takes the next unread error. -/
def readError : Reading Error × Subscription :=
  match p.errors with
  | e :: rest => (.item e, { p with errors := rest })
  | [] => (if p.hasEnded then .ended else .pending, p)

end Subscription

end SystemdControl
