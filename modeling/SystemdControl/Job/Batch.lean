import SystemdControl.Job.Table

/-!
# Batches of jobs

A number of registrations, the signals that come afterwards, and a wait for each registration in
turn.

* `Batch.run` is the whole course of a batch.
-/

namespace SystemdControl.Batch

/-- One registration of a batch: the unit, and the manager's reply to its request. -/
structure Item where
  unit : String
  reply : Except Error JobPath

/-- What came of one registration; an outcome is absent while the wait for it goes on. -/
inductive Outcome where
  | refused (error : Error)
  | waited (unit : String) (ticket : Ticket) (outcome : Option (Except Error JobResult))

/-- What came of a batch. -/
structure Report where
  outcomes : List Outcome
  /-- The answer to one more registration, asked for only after the listener has ended. -/
  late : Option Error
  listening : Bool

/-- One registration, refused without a request once the table is closed. -/
def registerOne (t : JobTable) (reply : Except Error JobPath) : Except Error Ticket × JobTable :=
  if t.closed then (.error .listenerUnavailable, t) else t.takeUp reply

/-- The registrations in order. -/
def registerAll : JobTable → List Item → List (Item × Except Error Ticket) × JobTable
  | t, [] => ([], t)
  | t, item :: rest =>
    let (answer, t) := registerOne t item.reply
    let (answers, t) := registerAll t rest
    ((item, answer) :: answers, t)

/-- The wait for one registration. -/
def waitOne (t : JobTable) (ticket : Ticket) :
    Option Duration → Option (Except Error JobResult) × JobTable
  | none => (t.outcome? ticket, t.drop ticket)
  | some limit =>
    if limit.isZero then (some (.error (.invalidInput .timeoutZero)), t.drop ticket)
    else
      let (outcome, t) := t.outcomeWithin ticket limit
      (some outcome, t)

/-- The waits in order. -/
def waitAll (limit : Option Duration) : JobTable → List (Item × Except Error Ticket) → List Outcome
  | _, [] => []
  | t, (_, .error e) :: rest => .refused e :: waitAll limit t rest
  | t, (item, .ok ticket) :: rest =>
    let (outcome, t) := waitOne t ticket limit
    .waited item.unit ticket outcome :: waitAll limit t rest

/-- The course of a batch; `ends` says whether the listener ends before the waits. -/
def run (items : List Item) (signals : List Signal) (ends : Bool) (limit : Option Duration) :
    Report :=
  let (answers, t) := registerAll {} items
  let t := signals.foldl (fun t signal => match signal with
    | .removed event => (t.resolve event.jobPath event.result).2
    | .undecodable _ => t) t
  let t := if ends then t.close else t
  { outcomes := waitAll limit t answers
    late := if t.closed then some .listenerUnavailable else none
    listening := !t.closed }

end SystemdControl.Batch
