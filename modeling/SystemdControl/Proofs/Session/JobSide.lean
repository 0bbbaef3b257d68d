import SystemdControl.Proofs.Session.Timeline

/-!
# The jobs apart from the inventory

The jobs depend on the clock, on what is asked of them, and on how many listings are under way,
since each of these is a call through one of the values that keep the listener alive. They depend on
nothing else of the inventory: no subscription, reader or fetch of a poller matters to them.

* `JobSide` is the part of a session that the jobs depend on, as a machine of its own;
* `Session.jobStep?` is what a step means to it, and `Session.jobView` what is seen of a step;
* `Session.step_jobSide`: a session does what the machine does, and a step that means nothing to it
  changes nothing there (`Session.step_of_not_jobStep`).
-/

namespace SystemdControl

/-- What a step means to the jobs. -/
inductive JobStep where
  | ask (act : Dispatcher.Act)
  | advance (millis : Nat)
  /-- A listing begins, whose answer is there at a time. -/
  | list (label : String) (ready : Nat)
  /-- A listing is abandoned. -/
  | dropList (label : String)

/-- What is seen of a step at the jobs. -/
structure JobView where
  answer : Answer
  listening : Option Bool
  /-- What a call or a wait under a label ended with in this step. -/
  events : String → List JobEvent
  /-- The requests that reached the manager. -/
  calls : List ManagerCall

/-- The part of a session that its jobs depend on. -/
structure JobSide where
  now : Nat
  jobs : Dispatcher
  /-- The listings under way, with the times at which they are answered. -/
  listing : Labelled Nat

namespace JobSide

variable (c : JobSide)

/-- The things that have ended under a label. -/
def ended (label : String) : List JobEvent :=
  (c.jobs.events.filter (·.1 = label)).map (·.2)

def settle : JobSide :=
  let listing := c.listing.filter fun e => !decide (e.2 ≤ c.now)
  { c with
    listing
    jobs := ((c.jobs.alarm c.now).withGuests listing.length).settle c.now }

def moveTo (now : Nat) : JobSide :=
  { c with now }.settle

def advance : Nat → JobSide → JobSide
  | 0, c => c
  | n + 1, c => advance n (c.moveTo (c.now + Session.millisecond))

def perform : JobStep → JobSide
  | .ask act => { c with jobs := c.jobs.act act }
  | .advance millis => advance millis c
  | .list label ready => { c with listing := c.listing ++ [(label, ready)] }
  | .dropList label => { c with listing := c.listing.remove label }

def answer : JobStep → Answer
  | .ask (.release label) => .released (c.jobs.release label).1
  | .ask (.wait now label limit) => if (c.jobs.wait now label limit).1 then .ok else .missing
  | .ask (.drop label) => .dropped (c.jobs.drop label).1
  | .ask (.emit signals) => .sent (c.jobs.emit signals).1
  | .ask (.dropHolder label) => .removed (c.jobs.dropHolder label).1
  | .dropList _ => .dropped .task
  | _ => .ok

/-- What is seen of a step. -/
def view (x : JobStep) : JobView :=
  let c' := (c.perform x).settle
  ⟨c.answer x, c'.jobs.listening?, c'.ended, c'.jobs.sent⟩

/-- A step, after which what has ended is forgotten. -/
def step (x : JobStep) : JobSide :=
  let c' := (c.perform x).settle
  { c' with jobs := c'.jobs.act .clear }

/-- What is seen of a list of steps. -/
def views (c : JobSide) : List JobStep → List (JobStep × JobView)
  | [] => []
  | x :: xs => (x, c.view x) :: views (c.step x) xs

def after (xs : List JobStep) : JobSide :=
  xs.foldl step c

end JobSide

/-- What has ended on the side of the jobs. -/
def Event.job? : Event → Option JobEvent
  | .job event => some event
  | .watch _ => none

namespace Session

open Dispatcher (Rest)

variable {s : Session} {x : Step} {z : JobStep}

/-- The part of a session that its jobs depend on. -/
def jobSide (s : Session) : JobSide :=
  ⟨s.now, s.jobs, s.watch.listing.map fun e => (e.1, e.2.ready)⟩

/-- What a step means to the jobs, if it means anything to them. What is abandoned is looked for
among the jobs, then among the listings. -/
def jobStep? (s : Session) : Step → Option JobStep
  | .advance millis => some (.advance millis)
  | .list label => some (.list label (s.watch.fetch s.now).1.ready)
  | .drop label =>
    if (s.jobs.drop label).1 ≠ .missing then some (.ask (.drop label))
    else if s.watch.listing.has label then some (.dropList label)
    else none
  | x => (x.jobAct? s.now).map .ask

/-- What is seen of a step at the jobs. -/
def jobView (s : Session) (x : Step) : JobView where
  answer := (s.step x).1.answer
  listening := (s.step x).1.listening
  events label := ((s.step x).1.events.filter (·.1 = label)).filterMap (·.2.job?)
  calls := (s.step x).1.calls

/-- What the steps of a list mean to the jobs. -/
def jobSteps (s : Session) : List Step → List JobStep
  | [] => []
  | x :: xs => (s.jobStep? x).toList ++ jobSteps (s.step x).2 xs

/-- What is seen at the jobs of the steps that mean something to them. -/
def jobViews (s : Session) : List Step → List (JobStep × JobView)
  | [] => []
  | x :: xs => ((s.jobStep? x).map (·, s.jobView x)).toList ++ jobViews (s.step x).2 xs

/-! ## Going on -/

theorem settle_jobSide (s : Session) : s.settle.jobSide = s.jobSide.settle := by
  have hlisting : (s.watch.settle s.now).listing.map (fun e => (e.1, e.2.ready)) =
      (s.watch.listing.map fun e => (e.1, e.2.ready)).filter fun e => !decide (e.2 ≤ s.now) := by
    rw [Inventory.listing_settle, List.filter_map]
    rfl
  have hlength : (s.watch.settle s.now).listing.length =
      ((s.watch.listing.map fun e => (e.1, e.2.ready)).filter
        fun e => !decide (e.2 ≤ s.now)).length := by
    rw [← hlisting, List.length_map]
  simp only [jobSide, settle, JobSide.settle, hlisting, hlength]
  rfl

theorem advance_jobSide (s : Session) (n : Nat) :
    (s.advance n).jobSide = s.jobSide.advance n := by
  induction n generalizing s with
  | zero => rfl
  | succ n ih =>
    refine (ih (s.moveTo (s.now + millisecond))).trans ?_
    exact congrArg (JobSide.advance n) (settle_jobSide { s with now := s.now + millisecond })

/-! ## A step -/

/-- Only listings that begin or are abandoned change which are under way. -/
theorem listing_act {w : Inventory} {y : Inventory.Act} (hy : y.isCall = true)
    (hlist : ∀ now label, y ≠ .list now label)
    (hdrop : ∀ label, y = .dropTask label → w.listing.has label = false) :
    (w.act y).listing = w.listing := by
  cases y with
  | subscribe label o =>
    cases ho : Subscription.open? o with
    | error e => rw [Inventory.act_subscribe_of_error ho]
    | ok p =>
      rw [Inventory.act_subscribe ho]
      cases w.held.get? label with
      | none => rfl
      | some old => exact Inventory.listing_cancelIfUnwanted _ _
  | read key kind => exact (w.reads key kind).listing
  | cancel key => exact w.listing_cancel key
  | dropHeld label =>
    show (w.dropHeld label).2.listing = w.listing
    unfold Inventory.dropHeld
    split
    · rfl
    · exact Inventory.listing_cancelIfUnwanted _ _
  | dropTask label =>
    show ((w.dropTask? label).getD w).listing = w.listing
    unfold Inventory.dropTask?
    rw [if_neg (by simp [hdrop label rfl])]
    cases w.readers.find? (·.label = label) with
    | none => rfl
    | some reader => exact w.listing_leaveLine reader
  | list now label => exact absurd rfl (hlist now label)
  | addScript | openStream | await | clear => rfl
  | alarm | turn | move => cases hy

theorem drop_of_hit {label : String} (h : (s.jobs.drop label).1 ≠ .missing) :
    s.drop label = ((s.jobs.drop label).1, { s with jobs := (s.jobs.drop label).2 }) := by
  unfold drop
  split
  · rename_i hd
    rw [hd] at h
    exact absurd rfl h
  · rename_i hd
    rw [hd]

/-- What a step means to the jobs is done to them before all go on, and answered. -/
theorem perform_jobSide (hz : s.jobStep? x = some z) :
    (s.perform x).2.jobSide = s.jobSide.perform z ∧ (s.perform x).1 = s.jobSide.answer z := by
  cases x with
  | advance millis =>
    cases hz
    exact ⟨s.advance_jobSide millis, rfl⟩
  | list label =>
    cases hz
    refine ⟨?_, rfl⟩
    show JobSide.mk s.now s.jobs (((s.watch.fetch s.now).2.listing ++ _).map _) = _
    rw [Inventory.listing_fetch, List.map_append]
    rfl
  | drop label =>
    show (s.drop label).2.jobSide = _ ∧ Answer.dropped (s.drop label).1 = _
    simp only [jobStep?] at hz
    split at hz
    · rename_i hhit
      cases hz
      rw [drop_of_hit hhit]
      exact ⟨rfl, rfl⟩
    · rename_i hmissing
      split at hz
      · rename_i hhas
        cases hz
        rw [drop_of_missing (not_not.1 hmissing), Inventory.dropTask?, if_pos hhas]
        refine ⟨?_, rfl⟩
        show JobSide.mk s.now s.jobs ((s.watch.listing.remove label).map _) = _
        rw [Labelled.map_remove]
        rfl
      · cases hz
  | start | kill | release | wait | emit | disconnect | shutdown | clone | dropHolder =>
    cases hz
    exact ⟨rfl, rfl⟩
  | _ => cases hz

/-- A step that means nothing to the jobs leaves them as they are before all go on. -/
theorem perform_jobSide_of_none (hz : s.jobStep? x = none) :
    (s.perform x).2.jobSide = s.jobSide := by
  have hadvance : x.isAdvance = false := by
    cases x with
    | advance => cases hz
    | _ => rfl
  have hne : ∀ millis, x ≠ .advance millis := fun millis hm => by
    rw [hm] at hadvance
    cases hadvance
  have hdrop : ∀ label, x = .drop label →
      (s.jobs.drop label).1 = .missing ∧ s.watch.listing.has label = false := by
    rintro label rfl
    simp only [jobStep?] at hz
    split at hz
    · cases hz
    · rename_i hmissing
      split at hz
      · cases hz
      · rename_i hhas
        exact ⟨not_not.1 hmissing, by simpa using hhas⟩
  have hjobs : (s.perform x).2.jobs = s.jobs := by
    cases x with
    | drop label =>
      obtain ⟨hmissing, -⟩ := hdrop label rfl
      show (s.drop label).2.jobs = s.jobs
      rw [drop_of_missing hmissing]
      split <;> rfl
    | start | kill | release | wait | emit | disconnect | shutdown | clone | dropHolder =>
      cases hz
    | _ => exact perform_jobs s hadvance
  have hlisting : (s.perform x).2.watch.listing = s.watch.listing := by
    rw [s.perform_watch hne]
    cases hy : s.watchAct? x with
    | none => rfl
    | some y =>
      refine listing_act (isCall_watchAct? hy) ?_ ?_
      · rintro now label rfl
        cases x with
        | list => cases hz
        | next | tryNextError | await | openStream | pollStream | cancel =>
          obtain ⟨e, -, he⟩ := Option.map_eq_some_iff.1 hy
          cases he
        | drop label =>
          simp only [watchAct?] at hy
          split at hy <;> cases hy
        | _ => cases hy
      · rintro label rfl
        cases x with
        | next | tryNextError | await | openStream | pollStream | cancel =>
          obtain ⟨e, -, he⟩ := Option.map_eq_some_iff.1 hy
          cases he
        | drop other =>
          simp only [watchAct?] at hy
          split at hy <;> cases hy
          exact (hdrop label rfl).2
        | _ => cases hy
  rw [jobSide, jobSide, perform_now s hadvance, hjobs, hlisting]

/-- What is reported of the jobs is what has ended there, in the order in which it did. -/
theorem events_jobView (s : Session) (x : Step) :
    (s.jobView x).events = (s.perform x).2.settle.jobSide.ended := by
  funext label
  have hjobs : ∀ l : Labelled JobEvent,
      ((l.map fun e => (e.1, Event.job e.2)).filter (·.1 = label)).filterMap (·.2.job?) =
        (l.filter (·.1 = label)).map (·.2) := fun l => by
    rw [List.filter_map, List.filterMap_map, ← List.filterMap_eq_map]
    rfl
  have hwatch : ∀ l : Labelled WatchEvent,
      ((l.map fun e => (e.1, Event.watch e.2)).filter (·.1 = label)).filterMap (·.2.job?) = [] :=
    fun l => List.filterMap_eq_nil_iff.2 fun e he => by
      obtain ⟨e', -, rfl⟩ := List.mem_map.1 (List.mem_filter.1 he).1
      rfl
  show ((s.perform x).2.settle.events.filter (·.1 = label)).filterMap (·.2.job?) = _
  rw [events, Labelled.filter_mergeSort, List.filter_append, List.filterMap_append, hjobs, hwatch,
    List.append_nil]
  rfl

/-- What is seen at the jobs of a step, and what becomes of them, depends on nothing else. -/
theorem step_jobSide (hz : s.jobStep? x = some z) :
    s.jobView x = s.jobSide.view z ∧ (s.step x).2.jobSide = s.jobSide.step z := by
  obtain ⟨hperform, hanswer⟩ := perform_jobSide hz
  have hsettle : (s.perform x).2.settle.jobSide = (s.jobSide.perform z).settle := by
    rw [settle_jobSide, hperform]
  have hevents := s.events_jobView x
  have hlistening : (s.jobView x).listening = ((s.perform x).2.settle.jobSide).jobs.listening? := rfl
  have hcalls : (s.jobView x).calls = ((s.perform x).2.settle.jobSide).jobs.sent := rfl
  have hstep : (s.step x).2.jobSide = { (s.perform x).2.settle.jobSide with
      jobs := (s.perform x).2.settle.jobSide.jobs.act .clear } := rfl
  rw [hsettle] at hevents hlistening hcalls hstep
  refine ⟨?_, hstep⟩
  have hanswer' : (s.jobView x).answer = s.jobSide.answer z := hanswer
  generalize s.jobView x = v at hevents hlistening hcalls hanswer' ⊢
  obtain ⟨answer, listening, events, calls⟩ := v
  subst hevents hlistening hcalls hanswer'
  rfl

/-! ## When nothing is asked -/

/-- To let all go on once more at the same moment changes nothing. -/
theorem Calm.settle_jobs_eq (h : s.Calm) :
    ((s.jobs.alarm s.now).withGuests s.watch.listing.length).settle s.now = s.jobs := by
  have hstep : s.jobs.step? s.now = none := by
    rw [Dispatcher.step?, (Agenda.next?_eq_none_iff _).2 h.rest.idle, Option.map_none]
  have hsteps : ∀ n, Dispatcher.steps s.now n s.jobs = s.jobs := fun n => by
    cases n with
    | zero => rfl
    | succ n => rw [Dispatcher.steps, hstep]
  rw [← h.guests, Dispatcher.rouse_none h.isOver_eq_false h.heeded, Dispatcher.settle, hsteps]

/-- A session between two steps, in which all that has happened was reported. -/
structure Settled (s : Session) : Prop where
  calm : s.Calm
  still : s.watch.Still s.now
  told : s.jobs.act .clear = s.jobs
  read : s.watch.events = []

namespace Settled

theorem connect {options : BusOptions} (h : connect? options none = .ok s) : s.Settled where
  calm := .connect h
  still := still_connect h
  told := by
    cases h
    rfl
  read := by
    cases h
    rfl

/-- Nobody goes on. -/
theorem settle_eq (h : s.Settled) : s.settle = s := by
  have hwatch : s.watch.settle s.now = s.watch := h.still.settle
  unfold settle
  simp only [hwatch, h.calm.settle_jobs_eq]

/-- Nothing is left to report. -/
theorem clear_eq (h : s.Settled) : s.clear = s := by
  have hjobs : s.clear.jobs = s.jobs := h.told
  have hwatch : s.clear.watch = s.watch :=
    congrArg (fun events => { s.watch with events }) h.read.symm
  exact congrArg₂ (fun jobs watch => { s with jobs, watch }) hjobs hwatch

theorem step (h : s.Settled) (x : Step) : (s.step x).2.Settled :=
  ⟨h.calm.step x, still_step h.still x, rfl, rfl⟩

theorem after (h : s.Settled) (xs : List Step) : (s.after xs).Settled := by
  induction xs generalizing s with
  | nil => exact h
  | cons x xs ih => exact ih (h.step x)

/-- To let all go on once more at the same moment changes nothing. -/
theorem settle_jobSide (h : s.Settled) : s.jobSide.settle = s.jobSide := by
  have hlisting : (s.watch.listing.map fun e => (e.1, e.2.ready)).filter
      (fun e => !decide (e.2 ≤ s.now)) = s.watch.listing.map fun e => (e.1, e.2.ready) := by
    refine List.filter_eq_self.2 fun e he => ?_
    obtain ⟨e', he', rfl⟩ := List.mem_map.1 he
    simpa using h.still.listing e' he'
  have hsettle : s.jobSide.settle = ⟨s.now, ((s.jobs.alarm s.now).withGuests
      ((s.watch.listing.map fun e => (e.1, e.2.ready)).filter
        fun e => !decide (e.2 ≤ s.now)).length).settle s.now,
      (s.watch.listing.map fun e => (e.1, e.2.ready)).filter fun e => !decide (e.2 ≤ s.now)⟩ := rfl
  rw [hsettle, hlisting, List.length_map, h.calm.settle_jobs_eq]
  rfl

end Settled

/-- A step that means nothing to the jobs leaves them as they are, and nothing is seen there. -/
theorem step_of_not_jobStep (h : s.Settled) (hz : s.jobStep? x = none) :
    (s.step x).2.jobSide = s.jobSide ∧ (∀ label, (s.jobView x).events label = []) ∧
      (s.jobView x).calls = [] ∧ (s.jobView x).listening = s.jobs.listening? := by
  have hsettle : (s.perform x).2.settle.jobSide = s.jobSide := by
    rw [Session.settle_jobSide, perform_jobSide_of_none hz, h.settle_jobSide]
  have hjobs : (s.perform x).2.settle.jobs = s.jobs := congrArg JobSide.jobs hsettle
  have hsilent : s.jobs.events = [] ∧ s.jobs.sent = [] := by
    rw [← h.told]
    exact ⟨rfl, rfl⟩
  refine ⟨?_, fun label => ?_, ?_, congrArg Dispatcher.listening? hjobs⟩
  · show ({ (s.perform x).2.settle.jobSide with
      jobs := (s.perform x).2.settle.jobSide.jobs.act .clear } : JobSide) = s.jobSide
    rw [hsettle]
    exact congrArg (fun d => ({ s.jobSide with jobs := d } : JobSide)) h.told
  · rw [events_jobView, hsettle]
    show (s.jobs.events.filter (·.1 = label)).map (·.2) = []
    rw [hsilent.1]
    rfl
  · exact (congrArg Dispatcher.sent hjobs).trans hsilent.2

/-- What is seen at the jobs depends on what the steps mean to them alone. -/
theorem jobViews_eq (h : s.Settled) (xs : List Step) :
    s.jobViews xs = s.jobSide.views (s.jobSteps xs) ∧
      (s.after xs).jobSide = s.jobSide.after (s.jobSteps xs) := by
  induction xs generalizing s with
  | nil => exact ⟨rfl, rfl⟩
  | cons x xs ih =>
    obtain ⟨hviews, hafter⟩ := ih (h.step x)
    have hrest : (s.after (x :: xs)).jobSide = ((s.step x).2.after xs).jobSide := rfl
    cases hz : s.jobStep? x with
    | some z =>
      obtain ⟨hview, hside⟩ := step_jobSide hz
      rw [hside] at hviews hafter
      simp only [jobViews, jobSteps, hz, Option.map_some, Option.toList_some, List.singleton_append,
        JobSide.views, JobSide.after, List.foldl_cons]
      exact ⟨by rw [hview, hviews], hafter⟩
    | none =>
      obtain ⟨hside, -⟩ := step_of_not_jobStep h hz
      rw [hside] at hviews hafter
      simp only [jobViews, jobSteps, hz, Option.map_none, Option.toList_none, List.nil_append]
      exact ⟨hviews, hafter⟩

end Session

end SystemdControl
