import SystemdControl.Watch.Inventory

/-!
# Reading with the time that it takes

A reader that waits lets time go on, from one alarm to the next, until there is an item or the
stream has ended.

* `Inventory.awaitItem` is the next item of a stream and the moment at which it came;
* `Inventory.pollSession` is a whole subscription: some changes, the unread errors, and the end.
-/

namespace SystemdControl.Inventory

variable (s : Inventory)

/-- The next moment after `now` at which something goes on by itself. -/
def nextAlarm? (now : Nat) : Option Nat :=
  (s.alarms.filter (now < ·)).min?

/-- A bound on the alarms before everything stands still: each uses an answer up, or fills a
buffer. -/
def patience : Nat :=
  2 * (s.script.length + s.listing.length +
    (s.pollers.map fun e => e.2.size + 2).foldl (· + ·) 0) + 1

/-- Waits for the next item of a stream through at most `n` alarms. -/
def awaitWithin (key : Nat) (kind : StreamKind) :
    Nat → Nat → Inventory → StreamItem × Nat × Inventory
  | 0, now, s => (.pending, now, s)
  | n + 1, now, s =>
    match s.read key kind with
    | (.pending, s) =>
      match s.nextAlarm? now with
      | none => (.pending, now, s)
      | some moment => awaitWithin key kind n moment (s.settle moment)
    | (item, s) => (item, now, s)

/-- The next item of a stream, the moment at which it came, and what has gone on till then. It is
`pending` only if it would never come. -/
def awaitItem (now : Nat) (key : Nat) (kind : StreamKind) : StreamItem × Nat × Inventory :=
  let s := s.settle now
  awaitWithin key kind s.patience now s

/-- Reads all unread errors of a subscription. -/
def readErrors (key : Nat) : List Error × Inventory :=
  match s.poller? key with
  | none => ([], s)
  | some p => (p.errors, s.putPoller key { p with errors := [] })

/-- The first `n` changes of a subscription, with the moment and the state after them. -/
def takeChanges (key : Nat) : Nat → Nat → Inventory → List UnitDelta × Nat × Inventory
  | 0, now, s => ([], now, s)
  | n + 1, now, s =>
    match s.awaitItem now key .changes with
    | (.change delta, now, s) =>
      let (rest, now, s) := takeChanges key n now (s.settle now)
      (delta :: rest, now, s)
    | (_, now, s) => ([], now, s)

/-- What is seen of a subscription that is read and then cancelled. -/
structure PollReport where
  changes : List UnitDelta
  errors : List Error
  cancelled : Bool
  /-- Whether the stream of errors has ended. -/
  ended : Bool

/-- Subscribes, reads some changes and then the unread errors, and cancels. -/
def pollSession (script : List Scripted) (options : SubscribeOptions) (count : Nat) :
    Except Error PollReport := do
  let s ← Inventory.subscribe { script } "" options
  let (changes, now, s) := takeChanges 0 count 0 (s.settle 0)
  let (errors, s) := s.readErrors 0
  let s := (s.cancel 0).settle now
  return {
    changes
    errors
    cancelled := s.isCancelled 0
    ended := match (s.read 0 .errors).1 with
      | .ended => true
      | _ => false }

end SystemdControl.Inventory
