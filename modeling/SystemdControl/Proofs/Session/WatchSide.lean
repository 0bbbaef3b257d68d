import SystemdControl.Proofs.Session.Timeline
import SystemdControl.Proofs.Watch.Pacing

/-!
# The inventory apart from the jobs

Nothing of the inventory depends on the jobs. What is seen of it in a step is the same in a session
that has no jobs, and a step that is about jobs leaves all of it as it is.

* `Session.concernsWatch` says which steps are about the inventory or the clock;
* `Session.watchView` is what is seen of a step at the inventory, and `Session.withoutJobs` the
  session without its jobs;
* `Session.watchViews_eq`: what is seen in a list of steps depends on those steps alone.
-/

namespace SystemdControl

/-- What has ended on the side of the inventory. -/
def Event.watch? : Event → Option WatchEvent
  | .watch event => some event
  | .job _ => none

/-- What is seen of a step at the inventory. -/
structure WatchView where
  answer : Answer
  /-- What a read under a label, or a listing, ended with in this step. -/
  events : String → List WatchEvent
  /-- The times at which the subscription of a number started fetches. -/
  starts : Nat → List Nat

namespace Session

open Inventory
open Subscription (startsAt)

variable {s t : Session} {x : Step}

/-- Whether a step is about the inventory or the clock. What is abandoned is looked for among the
jobs first. -/
def concernsWatch (s : Session) : Step → Bool
  | .advance _ | .inventory _ | .list _ | .listCalls | .subscribe .. | .next .. | .tryNextError _
  | .await .. | .openStream .. | .pollStream _ | .cancel _ | .isCancelled _
  | .dropSubscription _ => true
  | .drop label => (s.jobs.drop label).1 = .missing && (s.watch.dropTask? label).isSome
  | _ => false

/-- What is seen of a step at the inventory. -/
def watchView (s : Session) (x : Step) : WatchView where
  answer := (s.step x).1.answer
  events label := ((s.step x).1.events.filter (·.1 = label)).filterMap (·.2.watch?)
  starts key := s.watch.given startsAt key (s.stepActs x)

/-- The steps of a list that are about the inventory or the clock. -/
def watchSteps (s : Session) : List Step → List Step
  | [] => []
  | x :: xs =>
    if s.concernsWatch x then x :: watchSteps (s.step x).2 xs else watchSteps (s.step x).2 xs

/-- What is seen at the inventory of those steps. -/
def watchViews (s : Session) : List Step → List (Step × WatchView)
  | [] => []
  | x :: xs =>
    if s.concernsWatch x then (x, s.watchView x) :: watchViews (s.step x).2 xs
    else watchViews (s.step x).2 xs

/-- A session with the same inventory and clock, and no jobs. -/
def withoutJobs (s : Session) : Session :=
  { options := {}, now := s.now, jobs := { feed := { capacity := 0 } }, watch := s.watch }

theorem concernsWatch_withoutJobs (h : s.concernsWatch x = true) :
    s.withoutJobs.concernsWatch x = true := by
  cases x with
  | drop label => exact (Bool.and_eq_true_iff.1 h).2
  | _ => exact h

/-! ## Steps about the inventory -/

/-- What is reported of the inventory is what has ended there, in the order in which it did. -/
theorem events_watchView (s : Session) (x : Step) (label : String) :
    (s.watchView x).events label =
      ((s.perform x).2.settle.watch.events.filter (·.1 = label)).map (·.2) := by
  have hjobs : ∀ l : Labelled JobEvent,
      ((l.map fun e => (e.1, Event.job e.2)).filter (·.1 = label)).filterMap (·.2.watch?) = [] :=
    fun l => List.filterMap_eq_nil_iff.2 fun e he => by
      obtain ⟨e', -, rfl⟩ := List.mem_map.1 (List.mem_filter.1 he).1
      rfl
  have hwatch : ∀ l : Labelled WatchEvent,
      ((l.map fun e => (e.1, Event.watch e.2)).filter (·.1 = label)).filterMap (·.2.watch?) =
        (l.filter (·.1 = label)).map (·.2) := fun l => by
    rw [List.filter_map, List.filterMap_map, ← List.filterMap_eq_map]
    rfl
  show ((s.perform x).2.settle.events.filter (·.1 = label)).filterMap (·.2.watch?) = _
  rw [events, Labelled.filter_mergeSort, List.filter_append, List.filterMap_append, hjobs, hwatch,
    List.nil_append]

section Congr

variable (hw : s.watch = t.watch) (hn : s.now = t.now)
include hw hn

theorem settle_congr : s.settle.watch = t.settle.watch ∧ s.settle.now = t.settle.now :=
  ⟨by simp only [settle, hw, hn], hn⟩

theorem advance_congr (n : Nat) :
    (s.advance n).watch = (t.advance n).watch ∧ (s.advance n).now = (t.advance n).now ∧
      s.advanceActs n = t.advanceActs n := by
  induction n generalizing s t with
  | zero => exact ⟨hw, hn, rfl⟩
  | succ n ih =>
    have hnow : s.now + millisecond = t.now + millisecond := congrArg (· + millisecond) hn
    obtain ⟨hw', hn'⟩ := settle_congr (s := { s with now := s.now + millisecond })
      (t := { t with now := t.now + millisecond }) hw hnow
    obtain ⟨hwatch, htime, hacts⟩ := ih (s := s.moveTo (s.now + millisecond))
      (t := t.moveTo (t.now + millisecond)) hw' hn'
    refine ⟨hwatch, htime, ?_⟩
    rw [advanceActs, advanceActs, hacts, hw, hnow]

theorem drop_congr {label : String} (hs : (s.jobs.drop label).1 = .missing)
    (ht : (t.jobs.drop label).1 = .missing) :
    (s.drop label).1 = (t.drop label).1 ∧ (s.drop label).2.watch = (t.drop label).2.watch ∧
      (s.drop label).2.now = (t.drop label).2.now := by
  rw [drop_of_missing hs, drop_of_missing ht, hw]
  cases t.watch.dropTask? label with
  | none => exact ⟨rfl, hw, hn⟩
  | some watch => exact ⟨rfl, rfl, hn⟩

/-- What a step about the inventory does depends on the inventory and the clock alone. -/
theorem perform_congr (hs : s.concernsWatch x = true) (ht : t.concernsWatch x = true) :
    (s.perform x).1 = (t.perform x).1 ∧ (s.perform x).2.watch = (t.perform x).2.watch ∧
      (s.perform x).2.now = (t.perform x).2.now ∧ s.performActs x = t.performActs x := by
  cases x with
  | advance millis =>
    obtain ⟨hwatch, hnow, hacts⟩ := advance_congr hw hn millis
    exact ⟨rfl, hwatch, hnow, hacts⟩
  | drop label =>
    have hs' : (s.jobs.drop label).1 = .missing :=
      of_decide_eq_true (Bool.and_eq_true_iff.1 hs).1
    have ht' : (t.jobs.drop label).1 = .missing :=
      of_decide_eq_true (Bool.and_eq_true_iff.1 ht).1
    obtain ⟨hanswer, hwatch, hnow⟩ := drop_congr hw hn hs' ht'
    refine ⟨congrArg Answer.dropped hanswer, hwatch, hnow, ?_⟩
    simp only [performActs, watchAct?, if_pos hs', if_pos ht']
  | inventory | list | listCalls | dropSubscription =>
    simp [perform, performActs, watchAct?, hw, hn]
  | subscribe label options =>
    cases hopen : t.watch.subscribe label options <;>
      simp [perform, performActs, watchAct?, hw, hn, hopen]
  | pollStream label =>
    cases hget : t.watch.streams.get? label <;>
      simp [perform, readOnce, performActs, watchAct?, hw, hn, hget]
  | next subscription | tryNextError subscription | await label subscription
  | openStream label subscription | cancel subscription | isCancelled subscription =>
    cases hget : t.watch.held.get? subscription <;>
      simp [perform, withHeld, readOnce, performActs, watchAct?, hw, hn, hget]
  | _ => cases hs

/-- So is what is seen of it at the inventory. -/
theorem step_congr (hs : s.concernsWatch x = true) (ht : t.concernsWatch x = true) :
    s.watchView x = t.watchView x ∧ (s.step x).2.watch = (t.step x).2.watch ∧
      (s.step x).2.now = (t.step x).2.now := by
  obtain ⟨hanswer, hwatch, hnow, hacts⟩ := perform_congr hw hn hs ht
  obtain ⟨hwatch', hnow'⟩ := settle_congr hwatch hnow
  refine ⟨?_, congrArg (fun w : Inventory => { w with events := [] }) hwatch', hnow'⟩
  have hevents : (s.watchView x).events = (t.watchView x).events := by
    funext label
    rw [events_watchView, events_watchView, hwatch']
  have hstarts : (s.watchView x).starts = (t.watchView x).starts := by
    funext key
    simp only [watchView, stepActs, hacts, hwatch, hnow, hw]
  have hanswer' : (s.watchView x).answer = (t.watchView x).answer := hanswer
  generalize s.watchView x = v at hevents hstarts hanswer'
  generalize t.watchView x = v' at hevents hstarts hanswer'
  obtain ⟨answer, events, starts⟩ := v
  obtain ⟨answer', events', starts'⟩ := v'
  exact WatchView.mk.injEq .. ▸ ⟨hanswer', hevents, hstarts⟩

end Congr

/-! ## Steps about jobs -/

/-- What a step that is not about the inventory asks of it is nothing, or to abandon what is not
there. -/
theorem performActs_of_not_concernsWatch (hx : s.concernsWatch x = false) :
    s.watch.after (s.performActs x) = s.watch ∧ x.isAdvance = false ∧
      ∀ y ∈ s.performActs x, ∃ label, y = .dropTask label := by
  cases x with
  | drop label =>
    rw [concernsWatch, Bool.and_eq_false_iff, decide_eq_false_iff_not] at hx
    rw [performActs, watchAct?]
    · by_cases hmissing : (s.jobs.drop label).1 = .missing
      · have hnone : s.watch.dropTask? label = none := by
          simpa using hx.resolve_left (not_not_intro hmissing)
        rw [if_pos hmissing]
        refine ⟨?_, rfl, fun y hy => ⟨label, List.mem_singleton.1 hy⟩⟩
        show (s.watch.dropTask? label).getD s.watch = s.watch
        rw [hnone, Option.getD_none]
      · rw [if_neg hmissing]
        exact ⟨rfl, rfl, List.forall_mem_nil _⟩
    · intro _ he
      cases he
  | start | kill | release | wait | emit | disconnect | shutdown | options | clone
  | dropHolder => exact ⟨rfl, rfl, List.forall_mem_nil _⟩
  | _ => cases hx

/-- A step that is not about the inventory leaves it as it is, and nothing is seen there. -/
theorem step_of_not_concernsWatch (h : s.watch.Still s.now) (he : s.watch.events = [])
    (hx : s.concernsWatch x = false) :
    (s.step x).2.watch = s.watch ∧ (s.step x).2.now = s.now ∧
      (∀ label, (s.watchView x).events label = []) ∧ ∀ key, (s.watchView x).starts key = [] := by
  obtain ⟨hacts, hadvance, hdrop⟩ := performActs_of_not_concernsWatch hx
  have hwatch : (s.perform x).2.watch = s.watch := (s.watch_perform x).trans hacts
  have hnow : (s.perform x).2.now = s.now := perform_now s hadvance
  have hsettle : (s.perform x).2.settle.watch = s.watch := by
    show (s.perform x).2.watch.settle (s.perform x).2.now = s.watch
    rw [hwatch, hnow, h.settle]
  refine ⟨?_, hnow, fun label => ?_, fun key => ?_⟩
  · show ({ (s.perform x).2.settle.watch with events := [] } : Inventory) = s.watch
    rw [hsettle, ← he]
  · rw [events_watchView, hsettle, he]
    rfl
  · have hquiet : ∀ xs : List Inventory.Act,
        (∀ y ∈ xs, (∃ label, y = .dropTask label) ∨ y = .clear) →
        ∀ w : Inventory, w.given startsAt key xs = [] := fun xs hxs w => by
      refine Run.outputs_eq_nil (fun y hy w => ?_) w
      rcases hxs y hy with ⟨label, rfl⟩ | rfl <;> exact Option.bind_fun_none _
    show s.watch.given startsAt key (s.stepActs x) = []
    rw [given_stepActs, hquiet _ (fun y hy => .inl (hdrop y hy)),
      hquiet _ (fun y hy => .inr (List.mem_singleton.1 hy)), hwatch, hnow, h.given_goingOn]
    rfl

/-! ## Lists of steps -/

/-- What is seen at the inventory of steps that are all about it, in sessions without jobs. -/
def soloViews (s : Session) : List Step → List (Step × WatchView)
  | [] => []
  | x :: xs => (x, s.watchView x) :: soloViews (s.step x).2.withoutJobs xs

def soloAfter (s : Session) (xs : List Step) : Session :=
  xs.foldl (fun s x => (s.step x).2.withoutJobs) s

theorem withoutJobs_congr (hw : s.watch = t.watch) (hn : s.now = t.now) :
    s.withoutJobs = t.withoutJobs := by
  rw [withoutJobs, withoutJobs, hw, hn]

/-- What is seen at the inventory depends on the steps about it alone. -/
theorem watchViews_eq (h : s.watch.Still s.now) (he : s.watch.events = []) (xs : List Step) :
    s.watchViews xs = s.withoutJobs.soloViews (s.watchSteps xs) ∧
      (s.after xs).withoutJobs = s.withoutJobs.soloAfter (s.watchSteps xs) := by
  induction xs generalizing s with
  | nil => exact ⟨rfl, rfl⟩
  | cons x xs ih =>
    obtain ⟨hviews, hafter⟩ := ih (still_step h x) rfl
    cases hx : s.concernsWatch x with
    | true =>
      obtain ⟨hview, hwatch, hnow⟩ := step_congr (s := s) (t := s.withoutJobs) rfl rfl hx
        (concernsWatch_withoutJobs hx)
      have hnext := withoutJobs_congr hwatch hnow
      simp only [watchViews, watchSteps, hx, if_true, soloViews, soloAfter, List.foldl_cons]
      rw [← hview, ← hnext]
      exact ⟨congrArg _ hviews, hafter⟩
    | false =>
      obtain ⟨hwatch, hnow, -⟩ := step_of_not_concernsWatch h he hx
      have hnext := withoutJobs_congr hwatch hnow
      simp only [watchViews, watchSteps, hx, Bool.false_eq_true, if_false]
      rw [← hnext]
      exact ⟨hviews, hafter⟩

end Session

end SystemdControl
