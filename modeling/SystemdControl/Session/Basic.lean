import SystemdControl.Job.Dispatcher.Calls
import SystemdControl.Watch.Inventory

/-!
# Sessions

A connection to the manager and all that its callers do with it, step by step. The manager's
answers are part of the steps. After each step everything goes on until it has to wait, and time
moves only by the step that says so, one millisecond at a time.

The two sides of a session, jobs and inventory, share the clock. Nothing of the inventory side
depends on the jobs; the other way, a listing under way keeps the listener alive.

* `Session.connect?` opens a session, or fails as the manager's answer says;
* `Session.perform` is one step before anything goes on, `Session.settle` what follows;
* `Session.step` is both with a report, `Session.run` a list of steps.
-/

namespace SystemdControl

/-- What a caller asks to be done with a unit. -/
inductive Ask where
  | method (method : UnitMethod)
  | transient (properties : List UnitProperty)

/-- The request for a unit that a caller named, or what is wrong with it. -/
def Ask.request? (unit : String) (mode : StartMode) : Ask → Except Error JobRequest
  | .method m => JobRequest.method? m unit mode
  | .transient properties => JobRequest.transient? unit mode properties

/-- One step of a session. Things that go on get a label, by which later steps refer to them. -/
inductive Step where
  | start (label unit : String) (mode : StartMode) (ask : Ask) (before : List Signal) (held : Bool)
    (reply : Reply)
  | kill (label unit : String) (who : KillWho) (signal : Int32) (held : Bool) (fail : Option Error)
  | release (label : String)
  | wait (label : String) (limit : Option Duration)
  | drop (label : String)
  | emit (signals : List Signal)
  | disconnect
  | shutdown
  | options
  | clone (label : String) (access : Access)
  | dropHolder (label : String)
  | advance (millis : Nat)
  | inventory (answers : List Scripted)
  | list (label : String)
  | listCalls
  | subscribe (label : String) (options : SubscribeOptions)
  | next (subscription : String) (kind : StreamKind)
  | tryNextError (subscription : String)
  | await (label subscription : String)
  | openStream (label subscription : String) (kind : StreamKind)
  | pollStream (label : String)
  | cancel (subscription : String)
  | isCancelled (subscription : String)
  | dropSubscription (label : String)

/-- The answer to a step. -/
inductive Answer where
  | ok
  | failed (error : Error)
  | missing
  | released (there : Bool)
  | dropped (what : Dropped)
  | removed (there : Bool)
  | sent (signals : Nat)
  | options (options : BusOptions)
  | listCalls (count : Nat)
  | item (item : StreamItem)
  /-- An unread error, or that there is none. -/
  | unread (error : Option Error)
  | cancelled (yes : Bool)

/-- How something that a caller began has ended. -/
inductive Event where
  | job (event : JobEvent)
  | watch (event : WatchEvent)

/-- What is seen of a step. -/
structure Report where
  answer : Answer
  listening : Option Bool
  /-- What ended during the step, in the order of the labels. -/
  events : Labelled Event
  /-- The requests that reached the manager during the step. -/
  calls : List ManagerCall

/-- A connection and its callers. -/
structure Session where
  options : BusOptions
  /-- Nanoseconds since the session began. -/
  now : Nat := 0
  jobs : Dispatcher
  watch : Inventory := {}

namespace Session

/-- Opens a session, unless the manager refuses to send signals. -/
def connect? (options : BusOptions) : Option Error → Except Error Session
  | some e => .error e
  | none => .ok { options, jobs := { feed := { capacity := options.capacity } } }

/-- Opens a session whose pump and listener run on the executor around the call. -/
def connectOn (executor : Executor) (options : BusOptions) (refusal : Option Error) :
    Except Error Session := do
  let s ← connect? options refusal
  executor.spawn "jobs-pump"
  executor.spawn "jobs"
  return s

variable (s : Session)

/-- Everything goes on until it has to wait. All whose time has come are roused before anyone goes
on; so a wait for a job that is over then does not see the end of the listings. -/
def settle : Session :=
  let watch := s.watch.settle s.now
  { s with
    watch
    jobs := ((s.jobs.alarm s.now).withGuests watch.listing.length).settle s.now }

/-- A millisecond in nanoseconds. -/
def millisecond : Nat := 1000000

/-- Time goes on to a later moment. -/
def moveTo (now : Nat) : Session :=
  { s with now }.settle

/-- Time goes on by a number of milliseconds. -/
def advance : Nat → Session → Session
  | 0, s => s
  | n + 1, s => advance n (s.moveTo (s.now + millisecond))

/-- Does something with a held subscription. -/
def withHeld (subscription : String) (f : Nat → Answer × Inventory) : Answer × Session :=
  match s.watch.held.get? subscription with
  | none => (.missing, s)
  | some key =>
    let (answer, watch) := f key
    (answer, { s with watch })

/-- Reads from a stream once, without waiting. -/
def readOnce (key : Nat) (kind : StreamKind) : Answer × Inventory :=
  let (item, watch) := s.watch.read key kind
  (.item item, watch)

/-- Abandons whatever is under a label. -/
def drop (label : String) : Dropped × Session :=
  match s.jobs.drop label with
  | (.missing, _) =>
    match s.watch.dropTask? label with
    | some watch => (.task, { s with watch })
    | none => (.missing, s)
  | (what, jobs) => (what, { s with jobs })

/-- A step, before anything goes on. -/
def perform : Step → Answer × Session
  | .start label unit mode ask before held reply =>
    (.ok, { s with jobs := s.jobs.start label (ask.request? unit mode) before held reply })
  | .kill label unit who signal held fail =>
    (.ok, { s with jobs := s.jobs.kill label (KillRequest.make? unit who signal) held fail })
  | .release label =>
    let (there, jobs) := s.jobs.release label
    (.released there, { s with jobs })
  | .wait label limit =>
    let (there, jobs) := s.jobs.wait s.now label limit
    (if there then .ok else .missing, { s with jobs })
  | .drop label =>
    let (what, s') := s.drop label
    (.dropped what, s')
  | .emit signals =>
    let (count, jobs) := s.jobs.emit signals
    (.sent count, { s with jobs })
  | .disconnect => (.ok, { s with jobs := s.jobs.disconnect })
  | .shutdown => (.ok, { s with jobs := s.jobs.requestStop })
  | .options => (.options s.options, s)
  | .clone label access => (.ok, { s with jobs := s.jobs.addHolder label access })
  | .dropHolder label =>
    let (there, jobs) := s.jobs.dropHolder label
    (.removed there, { s with jobs })
  | .advance millis => (.ok, s.advance millis)
  | .inventory answers => (.ok, { s with watch := s.watch.addScript answers })
  | .list label => (.ok, { s with watch := s.watch.list s.now label })
  | .listCalls => (.listCalls s.watch.fetches, s)
  | .subscribe label options =>
    match s.watch.subscribe label options with
    | .ok watch => (.ok, { s with watch })
    | .error e => (.failed e, s)
  | .next subscription kind => s.withHeld subscription fun key => s.readOnce key kind
  | .tryNextError subscription =>
    s.withHeld subscription fun key =>
      match s.watch.read key .errors with
      | (.error e, watch) => (.unread (some e), watch)
      | (_, watch) => (.unread none, watch)
  | .await label subscription =>
    s.withHeld subscription fun key => (.ok, s.watch.await label key)
  | .openStream label subscription kind =>
    s.withHeld subscription fun key => (.ok, s.watch.openStream label key kind)
  | .pollStream label =>
    match s.watch.streams.get? label with
    | none => (.missing, s)
    | some (key, kind) =>
      let (answer, watch) := s.readOnce key kind
      (answer, { s with watch })
  | .cancel subscription =>
    s.withHeld subscription fun key =>
      let watch := s.watch.cancel key
      (.cancelled (watch.isCancelled key), watch)
  | .isCancelled subscription =>
    s.withHeld subscription fun key => (.cancelled (s.watch.isCancelled key), s.watch)
  | .dropSubscription label =>
    let (there, watch) := s.watch.dropHeld label
    (.removed there, { s with watch })

/-- What has ended, in the order of the labels. -/
def events : Labelled Event :=
  let jobs := s.jobs.events.map fun e => (e.1, Event.job e.2)
  let watch := s.watch.events.map fun e => (e.1, Event.watch e.2)
  (jobs ++ watch).mergeSort fun a b => a.1 ≤ b.1

/-- Forgets what has been reported. -/
def clear : Session :=
  { s with
    jobs := { s.jobs with sent := [], events := [] }
    watch := { s.watch with events := [] } }

/-- A step with all that follows from it, and its report. -/
def step (step : Step) : Report × Session :=
  let (answer, s) := s.perform step
  let s := s.settle
  (⟨answer, s.jobs.listening?, s.events, s.jobs.sent⟩, s.clear)

/-- The reports of a list of steps. -/
def run : List Step → Session → List Report
  | [], _ => []
  | x :: rest, s =>
    let (report, s) := s.step x
    report :: run rest s

end Session

end SystemdControl
