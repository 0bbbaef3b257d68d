import SystemdControl.Job.Table
import SystemdControl.Text.Labelled

/-!
# A job table polled by hand

Registrations, resolutions and waits that make progress only when they are polled. A registration
goes through the gate, a lock that it keeps from before its request is issued until the reply is
taken up; a resolution needs the gate for a moment. There is no queue at the gate: whoever polls
while nobody holds it gets it.

* `PolledTable.attempt` advances one activity as far as it goes, `PolledTable.poll` the one under a
  label;
* `PolledTable.register`, `PolledTable.resolve` and `PolledTable.beginWait` start something and poll
  it once; `PolledTable.drop` abandons it, at whatever point it is;
* `PolledTable.expire` ends a limited wait, `PolledTable.waitWithin` is one from its start to its
  end;
* `PolledTable.step` is any one of these operations, `PolledTable.run` a list of them.
-/

namespace SystemdControl

/-- Something under way, or at rest, under a label. -/
inductive Activity where
  /-- A registration before the gate, with the answer to its request if that is known. -/
  | atGate (reply : Option (Except Error JobPath))
  /-- A registration that holds the gate while its request is under way. -/
  | inCall (reply : Option (Except Error JobPath))
  /-- A signal before the gate. -/
  | resolving (path : JobPath) (result : JobResult)
  /-- A registered waiter that nobody waits on yet. -/
  | idle (ticket : Ticket)
  /-- A wait on a registered waiter, for ever or until a time that is not over yet. -/
  | waiting (ticket : Ticket) (limit : Option Duration)

/-- What a poll says. -/
inductive PollAnswer where
  | pending
  | registered (path : JobPath)
  | resolved (resolution : Resolution)
  | finished (outcome : Except Error JobResult)
  | failed (error : Error)
  | idle
  | missing

/-- One operation on a table and on what is under a label. -/
inductive PollStep where
  | register (label : String) (reply : Option (Except Error JobPath))
  | answer (label : String) (reply : Except Error JobPath)
  | resolve (label : String) (path : JobPath) (result : JobResult)
  | wait (label : String)
  | waitFor (label : String) (limit : Duration)
  | expire (label : String)
  | waitWithin (label : String) (limit : Duration)
  | poll (label : String)
  | drop (label : String)
  | close

/-- What an operation says. -/
inductive StepAnswer where
  | polled (answer : PollAnswer)
  | answered (there : Bool)
  | dropped (there : Bool)
  | ok

/-- An activity and how many were begun before it. -/
structure Numbered where
  number : Nat
  activity : Activity

/-- A job table and all that uses it. -/
structure PolledTable where
  table : JobTable := {}
  /-- The number of the registration that holds the gate. -/
  gate : Option Nat := none
  /-- How many activities were begun. -/
  begun : Nat := 0
  activities : Labelled Numbered := []

namespace PolledTable

variable (s : PolledTable)

/-- The gate is open again if an activity held it. -/
def openGate (number : Nat) : PolledTable :=
  { s with gate := if s.gate = some number then none else s.gate }

/-- Takes up the reply of a registration, of which a waiter remains unless it failed. -/
def takeUp (number : Nat) (reply : Except Error JobPath) :
    PollAnswer × Option Activity × PolledTable :=
  match s.table.takeUp reply with
  | (.error e, table) => (.failed e, none, { s with table }.openGate number)
  | (.ok ticket, table) =>
    (.registered ticket.path, some (.idle ticket), { s with table }.openGate number)

/-- Advances an activity by one attempt: what that says, and what remains of the activity. -/
def attempt (number : Nat) : Activity → PollAnswer × Option Activity × PolledTable
  | .idle ticket => (.idle, some (.idle ticket), s)
  | .atGate reply =>
    if s.gate.isSome then (.pending, some (.atGate reply), s)
    else if s.table.closed then (.failed .listenerUnavailable, none, s)
    else
      match reply with
      | none => (.pending, some (.inCall none), { s with gate := some number })
      | some reply => s.takeUp number reply
  | .inCall none => (.pending, some (.inCall none), s)
  | .inCall (some reply) => s.takeUp number reply
  | .resolving path result =>
    if s.gate.isSome then (.pending, some (.resolving path result), s)
    else
      let (resolution, table) := s.table.resolve path result
      (.resolved resolution, none, { s with table })
  | .waiting ticket limit =>
    match s.table.outcome? ticket with
    | none => (.pending, some (.waiting ticket limit), s)
    | some outcome => (.finished outcome, none, { s with table := s.table.drop ticket })

/-- Puts an activity under a label. -/
def put (label : String) (number : Nat) (activity : Activity) : PolledTable :=
  { s with activities := s.activities.set label ⟨number, activity⟩ }

/-- Forgets what is under a label. -/
def forget (label : String) : PolledTable :=
  { s with activities := s.activities.remove label }

/-- Advances what is under a label by one attempt. -/
def poll (label : String) : PollAnswer × PolledTable :=
  match s.activities.get? label with
  | none => (.missing, s)
  | some ⟨number, activity⟩ =>
    match s.attempt number activity with
    | (answer, some rest, s) => (answer, s.put label number rest)
    | (answer, none, s) => (answer, s.forget label)

/-- Abandons what is under a label; a waiter takes its entry with it, and a registration opens the
gate if it holds it. -/
def drop (label : String) : Bool × PolledTable :=
  match s.activities.get? label with
  | none => (false, s)
  | some ⟨number, activity⟩ =>
    let s := (s.forget label).openGate number
    match activity with
    | .idle ticket | .waiting ticket _ => (true, { s with table := s.table.drop ticket })
    | _ => (true, s)

/-- Starts an activity and polls it once. What remains of it then takes its place under the label,
and what was there before is abandoned. -/
def start (label : String) (activity : Activity) : PollAnswer × PolledTable :=
  match { s with begun := s.begun + 1 }.attempt s.begun activity with
  | (answer, some rest, s') => (answer, (s'.drop label).2.put label s.begun rest)
  | (answer, none, s') => (answer, s')

/-- Starts a registration; without a reply its request stays under way until `answer`. -/
def register (label : String) (reply : Option (Except Error JobPath)) : PollAnswer × PolledTable :=
  s.start label (.atGate reply)

/-- Lets the request of a registration be answered; `false` if none waits for an answer. -/
def answer (label : String) (reply : Except Error JobPath) : Bool × PolledTable :=
  match s.activities.get? label with
  | some ⟨number, .atGate none⟩ => (true, s.put label number (.atGate (some reply)))
  | some ⟨number, .inCall none⟩ => (true, s.put label number (.inCall (some reply)))
  | _ => (false, s)

/-- Starts to handle a signal. -/
def resolve (label : String) (path : JobPath) (result : JobResult) : PollAnswer × PolledTable :=
  s.start label (.resolving path result)

/-- Starts to wait on a registered waiter, for ever or for a limited time. -/
def beginWait (label : String) (limit : Option Duration) : PollAnswer × PolledTable :=
  match s.activities.get? label with
  | some ⟨number, .idle ticket⟩ => (s.put label number (.waiting ticket limit)).poll label
  | _ => (.missing, s)

/-- The time of a limited wait is over when it is polled; its outcome still comes first. -/
def expire (label : String) : PollAnswer × PolledTable :=
  match s.activities.get? label with
  | some ⟨_, .waiting ticket (some limit)⟩ =>
    let (outcome, table) := s.table.outcomeWithin ticket limit
    (.finished outcome, { s.forget label with table })
  | _ => (.missing, s)

/-- Waits on a registered waiter until its outcome is known or the time is over. -/
def waitWithin (label : String) (limit : Duration) : PollAnswer × PolledTable :=
  match s.activities.get? label with
  | some ⟨_, .idle ticket⟩ =>
    let (outcome, table) := s.table.outcomeWithin ticket limit
    (.finished outcome, { s.forget label with table })
  | _ => (.missing, s)

def close : PolledTable :=
  { s with table := s.table.close }

/-- One operation. -/
def step : PollStep → StepAnswer × PolledTable
  | .register label reply => (s.register label reply).map .polled id
  | .answer label reply => (s.answer label reply).map .answered id
  | .resolve label path result => (s.resolve label path result).map .polled id
  | .wait label => (s.beginWait label none).map .polled id
  | .waitFor label limit => (s.beginWait label (some limit)).map .polled id
  | .expire label => (s.expire label).map .polled id
  | .waitWithin label limit => (s.waitWithin label limit).map .polled id
  | .poll label => (s.poll label).map .polled id
  | .drop label => (s.drop label).map .dropped id
  | .close => (.ok, s.close)

/-- The operations in order, each with what it says and the table after it. -/
def run : List PollStep → PolledTable → List (StepAnswer × JobTable)
  | [], _ => []
  | x :: rest, s =>
    let (answer, s) := s.step x
    (answer, s.table) :: run rest s

end PolledTable

end SystemdControl
