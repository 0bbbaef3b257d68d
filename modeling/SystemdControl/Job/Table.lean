import SystemdControl.Job.Result

/-!
# The job table

The manager answers a request with the path of the job it queued, and says later, to everyone, how
the job of a path ended. The table ties the two together: it holds one entry per path that someone
waits for, and one inbox per waiter.

* `JobTable.register` enters a new registration; one that held the path before is superseded;
* `JobTable.resolve` hands the result of a job to the waiter of its path, the first time;
* `JobTable.outcome?` is what a waiter is told at a given moment, `none` while nothing is decided;
* `JobTable.drop` takes a waiter away with its entry, `JobTable.close` takes all entries away.
-/

namespace SystemdControl

/-- A registration: its job and the number of registrations before it. -/
structure Ticket where
  path : JobPath
  serial : Nat
  deriving DecidableEq, Repr

/-- Registrations are told apart by a 64-bit number. -/
def Ticket.id (t : Ticket) : UInt64 :=
  .ofNat t.serial

/-- Whether the result of an entry has been handed over. -/
inductive Slot where
  | pending | resolved
  deriving DecidableEq, Repr

/-- The current registration of a path. -/
structure Entry where
  ticket : Ticket
  slot : Slot
  deriving DecidableEq, Repr

/-- Someone who waits, and the result handed to it. -/
structure Waiter where
  ticket : Ticket
  inbox : Option JobResult
  deriving DecidableEq, Repr

/-- What became of a signal. -/
inductive Resolution where
  | delivered | alreadyResolved | unknown | closed
  deriving DecidableEq, Repr

/-- The registrations of jobs in flight. -/
structure JobTable where
  /-- The current registrations, at most one per path. -/
  entries : List Entry := []
  /-- The waiters that have neither finished nor gone away. -/
  waiters : List Waiter := []
  closed : Bool := false
  /-- How many registrations there have been. -/
  registered : Nat := 0
  deriving DecidableEq, Repr

namespace JobTable

/-- The entry of a path. -/
def entry? (t : JobTable) (path : JobPath) : Option Entry :=
  t.entries.find? (·.ticket.path = path)

/-- The live waiter of a registration. -/
def waiter? (t : JobTable) (ticket : Ticket) : Option Waiter :=
  t.waiters.find? (·.ticket = ticket)

/-- The number of entries in a given state. -/
def count (t : JobTable) (slot : Slot) : Nat :=
  t.entries.countP (·.slot = slot)

/-- Enters a waiter for `path`, in place of the entry that the path may have. -/
def register (t : JobTable) (path : JobPath) : Ticket × JobTable :=
  let ticket : Ticket := ⟨path, t.registered⟩
  (ticket,
    { t with
      entries := ⟨ticket, .pending⟩ :: t.entries.filter (·.ticket.path ≠ path)
      waiters := t.waiters ++ [⟨ticket, none⟩]
      registered := t.registered + 1 })

/-- Takes up the reply to a request: registers the job of its path, unless the table was closed
while the request was under way. -/
def takeUp (t : JobTable) : Except Error JobPath → Except Error Ticket × JobTable
  | .error e => (.error e, t)
  | .ok path =>
    if t.closed then (.error (.listenerStopped path.text), t)
    else
      let (ticket, t') := t.register path
      (.ok ticket, t')

/-- Puts a result into the inbox of a registration. -/
def deliver (t : JobTable) (ticket : Ticket) (result : JobResult) : JobTable :=
  { t with
    entries := t.entries.map fun e => if e.ticket = ticket then { e with slot := .resolved } else e
    waiters := t.waiters.map fun w =>
      if w.ticket = ticket then { w with inbox := some result } else w }

/-- Hands the result of a job to the waiter of its path. -/
def resolve (t : JobTable) (path : JobPath) (result : JobResult) : Resolution × JobTable :=
  if t.closed then (.closed, t)
  else
    match t.entry? path with
    | none => (.unknown, t)
    | some ⟨_, .resolved⟩ => (.alreadyResolved, t)
    | some ⟨ticket, .pending⟩ => (.delivered, t.deliver ticket result)

/-- Closes the table for ever; every entry is gone, every inbox stays. -/
def close (t : JobTable) : JobTable :=
  { t with entries := [], closed := true }

/-- Takes a waiter away, and its entry if that is still its own. -/
def drop (t : JobTable) (ticket : Ticket) : JobTable :=
  { t with
    entries := t.entries.filter fun e => !(e.ticket.path = ticket.path && e.ticket.id = ticket.id)
    waiters := t.waiters.filter (·.ticket ≠ ticket) }

/-- Whether the entry of a registration can still receive a result. -/
def isOpen (t : JobTable) (ticket : Ticket) : Bool :=
  t.entries.any fun e => e.ticket = ticket && e.slot = .pending

/-- Why a registration without result and without entry has ended. -/
def lossOf (t : JobTable) (ticket : Ticket) : Error :=
  if t.closed then .listenerStopped ticket.path.text else .jobSuperseded ticket.path.text

/-- What a waiter is told now; `none` while nothing is decided. -/
def outcome? (t : JobTable) (ticket : Ticket) : Option (Except Error JobResult) :=
  match (t.waiter? ticket).bind (·.inbox) with
  | some result => some (.ok result)
  | none => if t.isOpen ticket then none else some (.error (t.lossOf ticket))

/-- Waits for what is decided already, and gives up otherwise; the waiter is gone either way. -/
def outcomeWithin (t : JobTable) (ticket : Ticket) (limit : Duration) :
    Except Error JobResult × JobTable :=
  ((t.outcome? ticket).getD (.error (.jobTimeout ticket.path.text limit)), t.drop ticket)

end JobTable

end SystemdControl
