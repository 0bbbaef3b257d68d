import SystemdControl.Proofs.Session.JobSide
import SystemdControl.Proofs.Session.WatchSide

/-!
# Jobs and subscriptions do not interfere

Two sessions that agree on the clock and on the steps about the inventory have the same
subscriptions, whatever is done with their jobs: calls, replies, signals, waits, shutdown, the end
of the stream, and the values through which calls can be made. Two sessions that agree on the clock,
on what is asked of the jobs and on the listings under way have the same jobs, whatever is done with
their subscriptions.
-/

namespace SystemdControl.Session

variable {s t : Session}

/-- Jobs and subscriptions do not interfere.
* Sessions that agree on the steps about the inventory and the clock see the same of them at the
  inventory, step by step: the answers, the ends of reads and listings, and the times at which each
  subscription starts its fetches; and they end with the same inventory at the same time.
* Nothing is seen there of any other step, which leaves the inventory as it is.
* A session that is asked the same of its jobs sees the same of them, step by step: the answers, the
  ends of calls and waits, the requests that reach the manager, and whether the listener runs; and
  it ends with the same jobs. Listings count here with the times at which they are answered, as they
  keep the listener alive.
* Nothing is seen there of any other step, which leaves the jobs as they are. -/
theorem jobs_and_subscriptions_apart {options options' : BusOptions}
    (hs : connect? options none = .ok s) (ht : connect? options' none = .ok t) :
    (∀ xs ys, s.watchSteps xs = t.watchSteps ys →
      s.watchViews xs = t.watchViews ys ∧ (s.after xs).watch = (t.after ys).watch ∧
        (s.after xs).now = (t.after ys).now) ∧
    (∀ xs x, (s.after xs).concernsWatch x = false →
      let u := s.after xs
      (u.step x).2.watch = u.watch ∧ (u.step x).2.now = u.now ∧
        (∀ label, (u.watchView x).events label = []) ∧ ∀ key, (u.watchView x).starts key = []) ∧
    (∀ xs ys, s.jobSteps xs = s.jobSteps ys →
      s.jobViews xs = s.jobViews ys ∧ (s.after xs).jobs = (s.after ys).jobs ∧
        (s.after xs).now = (s.after ys).now) ∧
    (∀ xs x, (s.after xs).jobStep? x = none →
      let u := s.after xs
      (u.step x).2.jobs = u.jobs ∧ (u.step x).2.now = u.now ∧
        (∀ label, (u.jobView x).events label = []) ∧ (u.jobView x).calls = [] ∧
        (u.jobView x).listening = u.jobs.listening?) := by
  have hsettled : s.Settled := .connect hs
  have hsettled' : t.Settled := .connect ht
  have hsame : s.withoutJobs = t.withoutJobs := by
    cases hs
    cases ht
    rfl
  refine ⟨fun xs ys hsteps => ?_, fun xs x hx => ?_, fun xs ys hsteps => ?_, fun xs x hx => ?_⟩
  · obtain ⟨hviews, hafter⟩ := watchViews_eq hsettled.still hsettled.read xs
    obtain ⟨hviews', hafter'⟩ := watchViews_eq hsettled'.still hsettled'.read ys
    rw [hsteps, hsame] at hviews hafter
    have hend : (s.after xs).withoutJobs = (t.after ys).withoutJobs := hafter.trans hafter'.symm
    have hwatch : (s.after xs).withoutJobs.watch = (t.after ys).withoutJobs.watch :=
      congrArg Session.watch hend
    have hnow : (s.after xs).withoutJobs.now = (t.after ys).withoutJobs.now :=
      congrArg Session.now hend
    exact ⟨hviews.trans hviews'.symm, hwatch, hnow⟩
  · have hu := hsettled.after xs
    exact step_of_not_concernsWatch hu.still hu.read hx
  · obtain ⟨hviews, hafter⟩ := jobViews_eq hsettled xs
    obtain ⟨hviews', hafter'⟩ := jobViews_eq hsettled ys
    rw [hsteps] at hviews hafter
    have hend : (s.after xs).jobSide = (s.after ys).jobSide := hafter.trans hafter'.symm
    exact ⟨hviews.trans hviews'.symm, congrArg JobSide.jobs hend, congrArg JobSide.now hend⟩
  · obtain ⟨hside, hevents, hcalls, hlistening⟩ := step_of_not_jobStep (hsettled.after xs) hx
    exact ⟨congrArg JobSide.jobs hside, congrArg JobSide.now hside, hevents, hcalls, hlistening⟩

/-- A subscription that goes on after the listener has been stopped and the last bus is gone, and a
job that does so beside it. -/
theorem jobs_and_subscriptions_apart_shutdown :
    let s : Session := { options := {}, jobs := { feed := { capacity := 100 } } }
    let start : Step := .start "a" "a" .replace (.method .start) [] false .nextJob
    let xs : List Step := [.inventory [⟨.ok [.named "b" "loaded" "active"], 0⟩], .subscribe "s" {},
      start, .shutdown, .dropHolder "main", .next "s" .changes, .wait "a" none, .advance 1000,
      .next "s" .errors]
    let ys : List Step := [.inventory [⟨.ok [.named "b" "loaded" "active"], 0⟩], .subscribe "s" {},
      .next "s" .changes, .advance 1000, .next "s" .errors]
    let zs : List Step := [start, .shutdown, .dropHolder "main", .wait "a" none, .advance 1000]
    (s.watchViews xs).length = 5 ∧ s.watchViews xs = s.watchViews ys ∧
      (s.after xs).watch = (s.after ys).watch ∧
    (s.jobViews xs).length = 5 ∧ s.jobViews xs = s.jobViews zs ∧
      (s.after xs).jobs = (s.after zs).jobs := by
  intro s start xs ys zs
  have hconnect : connect? {} none = .ok s := rfl
  obtain ⟨hwatch, -, hjobs, -⟩ := jobs_and_subscriptions_apart hconnect hconnect
  have hwatchSteps : s.watchSteps xs = s.watchSteps ys := by
    simp [xs, ys, start, watchSteps, concernsWatch]
  have hnow : ∀ (s : Session) (x : Step), x.isAdvance = false → (s.step x).2.now = s.now :=
    fun s x hx => perform_now s hx
  have hjobSteps : s.jobSteps xs = s.jobSteps zs := by
    simp only [xs, zs, start, jobSteps, jobStep?, Step.jobAct?, Option.map_none, Option.map_some]
    iterate 9 rw [hnow _ _ rfl]
    rfl
  obtain ⟨hviews, hinventory, -⟩ := hwatch xs ys hwatchSteps
  obtain ⟨hviews', hjobs', -⟩ := hjobs xs zs hjobSteps
  refine ⟨?_, hviews, hinventory, ?_, hviews', hjobs'⟩
  · simp [xs, start, watchViews, concernsWatch]
  · simp [xs, start, jobViews, jobStep?, Step.jobAct?]

end SystemdControl.Session
