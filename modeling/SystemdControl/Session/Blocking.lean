import SystemdControl.Executor
import SystemdControl.Session.Basic
import SystemdControl.Watch.Waiting

/-!
# Blocking sessions

The same steps, each answered when it is over: what begins also ends before the next step, and
time goes on for as long as that takes. A call that would wait on the only thread of its executor
is refused before it does anything, except that a wait uses its handle up.

* `Blocking.waits` says which steps wait;
* `Blocking.step` is one step, `Blocking.run` what a caller sees of a list of them.
-/

namespace SystemdControl.Blocking

/-- The answer to a step of a blocking session. -/
inductive Answer where
  | immediate (answer : SystemdControl.Answer)
  | ended (event : Event)
  | refused (error : Error)
  /-- The call would never return. -/
  | stuck

/-- What is seen of a step. -/
structure Report where
  answer : Answer
  calls : List ManagerCall

/-- Whether a step waits for something. -/
def waits : Step → Bool
  | .start .. | .kill .. | .list .. | .subscribe .. | .next .. | .wait .. => true
  | _ => false

/-- What remains of a step that was refused: a wait has used its handle up. -/
def refuse (s : Session) : Step → Session
  | .wait label _ =>
    match s.jobs.handles.get? label with
    | some handle =>
      { s with jobs := { s.jobs with
          handles := s.jobs.handles.remove label
          table := s.jobs.table.drop handle.ticket } }
    | none => s
  | _ => s

/-- Whether what a step refers to is there. -/
def refersToNothing (s : Session) : Step → Bool
  | .wait label _ => !s.jobs.handles.has label
  | .next subscription _ => !s.watch.held.has subscription
  | _ => false

/-- The moment at which a step that has begun is over at the latest. -/
def limit? (s : Session) : Step → Option Nat
  | .wait label _ => ((s.jobs.waits.find? (·.label = label)).bind (·.deadline)).map (·.moment)
  | .list label => (s.watch.listing.get? label).map (·.ready)
  | _ => none

/-- The event of a label. -/
def ending? (s : Session) (label : String) : Option Event :=
  (s.events.find? (·.1 = label)).map (·.2)

/-- Lets time go on till there is an event of a label, from one alarm to the next and to the limit
at the latest. -/
def awaitUntil (label : String) (limit : Nat) : Nat → Session → Answer × Session
  | 0, s => (.stuck, s)
  | n + 1, s =>
    match ending? s label with
    | some event => (.ended event, s)
    | none =>
      if s.now < limit then
        awaitUntil label limit n (s.moveTo (min limit ((s.watch.nextAlarm? s.now).getD limit)))
      else (.stuck, s)

/-- Waits for what has begun under a label. -/
def awaitEnding (s : Session) (step : Step) (label : String) : Answer × Session :=
  let limit := (limit? s step).getD s.now
  awaitUntil label limit (limit - s.now + 1) s

/-- Waits for the next item of a subscription. -/
def awaitNext (s : Session) (key : Nat) (kind : StreamKind) : Answer × Session :=
  match s.watch.awaitItem s.now key kind with
  | (.pending, now, watch) => (.stuck, { s with now, watch })
  | (item, now, watch) => (.immediate (.item item), { s with now, watch })

/-- A step that is answered without waiting. -/
def answerAtOnce (s : Session) (step : Step) : Answer × Session :=
  let (answer, s) := s.perform step
  (.immediate answer, s)

/-- A step that may wait. -/
def perform (s : Session) (step : Step) : Answer × Session :=
  match step with
  | .next subscription kind =>
    match s.watch.held.get? subscription with
    | none => (.immediate .missing, s)
    | some key => awaitNext s key kind
  | .start label .. | .kill label .. | .list label =>
    let (_, s) := s.perform step
    awaitEnding s.settle step label
  | .wait label _ =>
    match s.perform step with
    | (.missing, s) => (.immediate .missing, s)
    | (_, s) => awaitEnding s.settle step label
  | _ => answerAtOnce s step

/-- A step with all that follows from it, and its report. -/
def step (executor : Executor) (s : Session) (step : Step) : Report × Session :=
  let (answer, s) :=
    match executor.block with
    | .ok () => perform s step
    | .error e =>
      if refersToNothing s step then (.immediate .missing, s)
      else if waits step then (.refused e, refuse s step)
      else answerAtOnce s step
  let s := s.settle
  (⟨answer, s.jobs.sent⟩, s.clear)

/-! ## A caller -/

/-- How many changes of a held subscription are unread. -/
def unread (s : Session) (subscription : String) : Nat :=
  (((s.watch.held.get? subscription).bind s.watch.poller?).map (·.changes.length)).getD 0

/-- A caller reads some changes of a subscription. -/
def readOn (executor : Executor) (subscription : String) : Nat → Session → Session
  | 0, s => s
  | n + 1, s => readOn executor subscription n (step executor s (.next subscription .changes)).2

/-- The reports that a caller gets of a list of steps. Where it has cancelled a subscription it reads
the changes that are left before it goes on. -/
def run (executor : Executor) : List Step → Session → List Report
  | [], _ => []
  | x :: rest, s =>
    let (report, s) := step executor s x
    let s := match x with
      | .cancel subscription => readOn executor subscription (unread s subscription) s
      | _ => s
    report :: run executor rest s

end SystemdControl.Blocking
