import SystemdControl.Agenda
import SystemdControl.Text.Labelled
import SystemdControl.Watch.Subscription

/-!
# Inventory calls

Everything on the side of the inventory: the manager's answers to listings, given in advance, the
calls that list once, and the subscriptions with all who read from them.

Several readers may wait for the changes of one subscription, and stand in line for them. When
changes are published the first reader in line that was not called already is called. One that gets
its changes leaves the line and passes the call on; one that was called and finds nothing goes to
the end of the line.

Pollers and readers go on one at a time, in the order in which they were roused. Pollers whose
alarms go off at one moment are roused in the order in which they last went to wait.

* `Inventory.fetch` is how a listing begins;
* `Inventory.movePoller?` and `Inventory.moveReader?` are the moves, `Inventory.step?` is one move
  or the end of a turn, and `Inventory.settle` goes on until nobody can;
* a subscription is cancelled when nothing holds it and nobody waits for its changes any more.
-/

namespace SystemdControl

/-- An answer of the manager to a listing. -/
structure Scripted where
  result : Except Error (List UnitStatus)
  /-- How long the manager takes, in nanoseconds. -/
  delay : Nat

/-- The two streams of a subscription. -/
inductive StreamKind where
  | changes | errors
  deriving DecidableEq, Repr

/-- Someone who waits for the next changes of a subscription. -/
structure Reader where
  /-- How many readers there were before. -/
  number : Nat
  label : String
  subscription : Nat
  /-- Whether it was called and has not found nothing since. -/
  called : Bool
  deriving DecidableEq

/-- Who goes on by itself. -/
inductive Watcher where
  | poller (key : Nat)
  | reader (number : Nat)
  deriving DecidableEq

/-- What a read from one of the streams gave. -/
inductive StreamItem where
  | change (delta : UnitDelta)
  | error (error : Error)
  | pending
  | ended

/-- How something on this side that a caller began has ended. -/
inductive WatchEvent where
  | listed (result : Except Error (List UnitStatus))
  | received (item : StreamItem)

/-- The state of everything that has to do with the inventory. -/
structure Inventory where
  /-- The answers to the next listings. -/
  script : List Scripted := []
  /-- The list of the last successful answer. -/
  last : List UnitStatus := []
  /-- How many listings have begun. -/
  fetches : Nat := 0
  /-- All pollers by number, in the order in which they last went to wait. -/
  pollers : List (Nat × Subscription) := []
  /-- How many subscriptions there have been. -/
  opened : Nat := 0
  /-- The subscriptions that are held, by label. -/
  held : Labelled Nat := []
  streams : Labelled (Nat × StreamKind) := []
  /-- Those who wait for changes, in line. -/
  readers : List Reader := []
  /-- How many readers there have been. -/
  enrolled : Nat := 0
  listing : Labelled Fetch := []
  /-- Who can go on. -/
  agenda : Agenda Watcher := .empty
  /-- What has ended, in order. -/
  events : Labelled WatchEvent := []

namespace Inventory

variable (s : Inventory)

def note (label : String) (event : WatchEvent) : Inventory :=
  { s with events := s.events ++ [(label, event)] }

/-- A listing begins: it takes the next answer. With none left the last list comes at once. -/
def fetch (now : Nat) : Fetch × Inventory :=
  match s.script with
  | [] => (⟨.ok s.last, now⟩, { s with fetches := s.fetches + 1 })
  | answer :: rest =>
    let last := match answer.result with
      | .ok units => units
      | .error _ => s.last
    (⟨answer.result, now + answer.delay⟩, { s with script := rest, last, fetches := s.fetches + 1 })

/-- The poller of a number. -/
def poller? (key : Nat) : Option Subscription :=
  (s.pollers.find? (·.1 = key)).map (·.2)

/-- Replaces a poller at its place. -/
def putPoller (key : Nat) (p : Subscription) : Inventory :=
  { s with pollers := s.pollers.map fun e => if e.1 = key then (key, p) else e }

/-- Puts a poller that goes to wait behind all others. -/
def requeuePoller (key : Nat) (p : Subscription) : Inventory :=
  { s with pollers := s.pollers.filter (·.1 ≠ key) ++ [(key, p)] }

/-! ## Rousing -/

/-- Someone can go on. -/
def rouse (watcher : Watcher) : Inventory :=
  { s with agenda := s.agenda.rouse watcher }

/-- The calls that list once have their answers, and the pollers can go on whose alarms have gone
off. -/
def alarm (now : Nat) : Inventory :=
  let (answered, listing) := s.listing.partition (·.2.ready ≤ now)
  let ringing := s.pollers.filter fun e => e.2.alarm?.any (· ≤ now)
  { s with
    listing
    events := s.events ++ answered.map fun e => (e.1, .listed e.2.result)
    agenda := s.agenda.rouseAll (ringing.map fun e => .poller e.1) }

/-- The first reader in line that was not called already is called. -/
def callReader (key : Nat) : Inventory :=
  match s.readers.find? fun r => r.subscription == key && !r.called with
  | none => s
  | some reader =>
    { s with
      readers := s.readers.map fun r => if r = reader then { r with called := true } else r
      agenda := s.agenda.rouse (.reader reader.number) }

/-- All readers of a subscription are called. -/
def callReaders (key : Nat) : Inventory :=
  let all := s.readers.filter (·.subscription = key)
  { s with
    readers := s.readers.map fun r => if r.subscription = key then { r with called := true } else r
    agenda := s.agenda.rouseAll (all.map fun r => .reader r.number) }

/-! ## Reading -/

/-- Takes the next item of a stream. A poller that waits for room can go on when changes are
taken. -/
def read (key : Nat) (kind : StreamKind) : StreamItem × Inventory :=
  match s.poller? key, kind with
  | none, _ => (.ended, s)
  | some p, .changes =>
    match p.readChange with
    | (.item delta, p) =>
      let s := s.putPoller key p
      (.change delta, if p.isPublishing then s.rouse (.poller key) else s)
    | (.pending, _) => (.pending, s)
    | (.ended, _) => (.ended, s)
  | some p, .errors =>
    match p.readError with
    | (.item e, p) => (.error e, s.putPoller key p)
    | (.pending, _) => (.pending, s)
    | (.ended, _) => (.ended, s)

/-! ## Cancelling -/

/-- Cancels a subscription. -/
def cancel (key : Nat) : Inventory :=
  match s.poller? key with
  | none => s
  | some p => (s.putPoller key p.cancel).rouse (.poller key)

def isCancelled (key : Nat) : Bool :=
  (s.poller? key).any (·.cancelled)

/-- Whether something keeps a subscription going: it is held, or someone waits for its changes. -/
def isWanted (key : Nat) : Bool :=
  s.held.any (·.2 = key) || s.readers.any (·.subscription = key)

/-- Cancels a subscription that nothing keeps going. -/
def cancelIfUnwanted (key : Nat) : Inventory :=
  if s.isWanted key then s else s.cancel key

/-! ## Moves -/

/-- A poller makes a move. With changes it calls a reader, and all of them when it ends. -/
def movePoller? (now : Nat) (key : Nat) : Option Inventory :=
  (s.poller? key).bind fun p =>
    if p.wantsFetch then
      let (fetch, s') := s.fetch now
      some (s'.putPoller key (p.begin now fetch))
    else
      (p.move? now).map fun p' =>
        let s' := s.putPoller key p'
        let s' := if p.changes.length < p'.changes.length then s'.callReader key else s'
        if p'.hasEnded then s'.callReaders key else s'

/-- A reader leaves the line; if it was called the call is passed on. -/
def leaveLine (reader : Reader) : Inventory :=
  let s' := { s with readers := s.readers.erase reader }
  let s' := if reader.called then s'.callReader reader.subscription else s'
  s'.cancelIfUnwanted reader.subscription

/-- A reader gets changes, or learns that there will be none. -/
def moveReader? (number : Nat) : Option Inventory :=
  (s.readers.find? (·.number = number)).bind fun reader =>
    match s.read reader.subscription .changes with
    | (.pending, _) => none
    | (item, s') => some ((s'.leaveLine reader).note reader.label (.received item))

/-- A move of someone. -/
def move? (now : Nat) : Watcher → Option Inventory
  | .poller key => s.movePoller? now key
  | .reader number => s.moveReader? number

/-- The turn of someone is over: it goes to wait behind all others. -/
def pause (watcher : Watcher) : Inventory :=
  let s := { s with agenda := s.agenda.dismiss }
  match watcher with
  | .poller key =>
    match s.poller? key with
    | none => s
    | some p => s.requeuePoller key p
  | .reader number =>
    match s.readers.find? (·.number = number) with
    | none => s
    | some reader =>
      { s with readers := s.readers.erase reader ++ [{ reader with called := false }] }

/-- The one whose turn it is makes a move, or its turn is over. -/
def step? (now : Nat) : Option Inventory :=
  s.agenda.next?.map fun watcher => (s.move? now watcher).getD (s.pause watcher)

/-! ## Settling -/

/-- A bound on the number of steps that are possible before time goes on. -/
def work : Nat :=
  12 * s.pollers.length + 8 * s.readers.length + s.agenda.size + 1

/-- Makes at most `n` steps. -/
def steps (now : Nat) : Nat → Inventory → Inventory
  | 0, s => s
  | n + 1, s =>
    match s.step? now with
    | none => s
    | some s' => steps now n s'

/-- Goes on until nobody can before time does. -/
def settle (now : Nat) : Inventory :=
  let s := s.alarm now
  steps now s.work s

/-! ## Calls -/

/-- Further answers for the next listings. -/
def addScript (answers : List Scripted) : Inventory :=
  { s with script := s.script ++ answers }

/-- A caller lists once. -/
def list (now : Nat) (label : String) : Inventory :=
  let (fetch, s') := s.fetch now
  { s' with listing := s'.listing ++ [(label, fetch)] }

/-- A caller subscribes. A subscription held under the same label goes away. -/
def subscribe (label : String) (options : SubscribeOptions) : Except Error Inventory := do
  let p ← Subscription.open? options
  let s' := { s with
    pollers := s.pollers ++ [(s.opened, p)]
    held := s.held.set label s.opened
    opened := s.opened + 1 }.rouse (.poller s.opened)
  return match s.held.get? label with
    | none => s'
    | some old => s'.cancelIfUnwanted old

/-- A stream of a held subscription under a label of its own. -/
def openStream (label : String) (key : Nat) (kind : StreamKind) : Inventory :=
  { s with streams := s.streams.set label (key, kind) }

/-- Someone begins to wait for the next changes. -/
def await (label : String) (key : Nat) : Inventory :=
  let reader : Reader := ⟨s.enrolled, label, key, true⟩
  { s with readers := s.readers ++ [reader], enrolled := s.enrolled + 1 }.rouse
    (.reader reader.number)

/-- A held subscription goes away; `false` if there is none of that label. -/
def dropHeld (label : String) : Bool × Inventory :=
  match s.held.get? label with
  | none => (false, s)
  | some key => (true, { s with held := s.held.remove label }.cancelIfUnwanted key)

/-- Abandons a listing or a wait for changes; `none` if there is none of that label. -/
def dropTask? (label : String) : Option Inventory :=
  if s.listing.has label then some { s with listing := s.listing.remove label }
  else (s.readers.find? (·.label = label)).map s.leaveLine

/-- When something goes on by itself, if time is what it waits for. -/
def alarms : List Nat :=
  s.pollers.filterMap (·.2.alarm?) ++ s.listing.map (·.2.ready)

end Inventory

end SystemdControl
