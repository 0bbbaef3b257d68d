import SystemdControl.Proofs.Session.Calm
import SystemdControl.Proofs.Session.Watching
import SystemdControl.Proofs.Watch.Alert

/-!
# The inventory of a session, act by act

What a session does on the side of the inventory, with the times at which it does it: what a step
asks of the inventory, and the turns of those who go on after it, at every tick of the clock.

* `Session.watchAct?` is what a step asks, and `Session.acts` all that happens in a list of steps;
  `Session.watch_after` says that it is all;
* `Session.still_after`: between two steps all have to wait.
-/

namespace SystemdControl

/-! ## Going on -/

namespace Inventory

variable {s : Inventory}

theorem given_append {β : Type} (out : Subscription → Subscription.Act → Option β)
    (s : Inventory) (key : Nat) (xs ys : List Act) :
    s.given out key (xs ++ ys) = s.given out key xs ++ (s.after xs).given out key ys :=
  Run.outputs_append s xs ys

/-- When all have to wait nothing is given by letting all go on. -/
theorem Still.given_goingOn {β : Type} {now : Nat} (h : s.Still now)
    (out : Subscription → Subscription.Act → Option β) (key : Nat) :
    s.given out key (s.goingOn now) = [] := by
  have hnone : ∀ x : Act, s.done? key x = none → s.gives out key x = none := fun x hx => by
    rw [gives, hx]
    exact Option.bind_fun_none _
  have hturn : s.gives out key (.turn now) = none := by
    have hmover : s.mover? (.turn now) = none := by
      rw [mover?, (Agenda.next?_eq_none_iff _).2 h.idle, Option.map_none]
    refine hnone _ ?_
    show (s.mover? (.turn now)).bind _ = none
    rw [hmover, Option.bind_none]
  have hturns : ∀ n, s.given out key (List.replicate n (.turn now)) = [] := fun n => by
    induction n with
    | zero => rfl
    | succ n ih =>
      rw [List.replicate_succ, given, Run.outputs_cons, hturn, act, h.step?]
      exact ih
  rw [goingOn, given, Run.outputs_cons, hnone (.alarm now) rfl, act, h.alarm]
  exact hturns _

end Inventory

namespace Session

open Inventory

variable {s : Session} {x : Step}

/-! ## What a step asks -/

/-- What a step asks of the inventory. What is abandoned under a label is looked for among the jobs
first. -/
def watchAct? (s : Session) : Step → Option Inventory.Act
  | .inventory answers => some (.addScript answers)
  | .list label => some (.list s.now label)
  | .subscribe label options => some (.subscribe label options)
  | .next subscription kind => (s.watch.held.get? subscription).map fun key => .read key kind
  | .tryNextError subscription =>
    (s.watch.held.get? subscription).map fun key => .read key .errors
  | .await label subscription => (s.watch.held.get? subscription).map (.await label)
  | .openStream label subscription kind =>
    (s.watch.held.get? subscription).map fun key => .openStream label key kind
  | .pollStream label => (s.watch.streams.get? label).map fun e => .read e.1 e.2
  | .cancel subscription => (s.watch.held.get? subscription).map .cancel
  | .dropSubscription label => some (.dropHeld label)
  | .drop label => if (s.jobs.drop label).1 = .missing then some (.dropTask label) else none
  | _ => none

/-- What is done with a held subscription is done to the inventory. -/
theorem watch_withHeld (s : Session) (subscription : String) (f : Nat → Answer × Inventory)
    (act : Nat → Inventory.Act) (h : ∀ key, (f key).2 = s.watch.act (act key)) :
    (s.withHeld subscription f).2.watch =
      ((s.watch.held.get? subscription).map act).elim s.watch s.watch.act := by
  unfold withHeld
  cases s.watch.held.get? subscription with
  | none => rfl
  | some key => exact h key

/-- A step asks one thing of the inventory, or nothing. -/
theorem perform_watch (s : Session) (hx : ∀ millis, x ≠ .advance millis) :
    (s.perform x).2.watch = (s.watchAct? x).elim s.watch s.watch.act := by
  cases x with
  | drop label =>
    show (s.drop label).2.watch = (if (s.jobs.drop label).1 = .missing then
      some (Inventory.Act.dropTask label) else none).elim s.watch s.watch.act
    unfold drop
    split
    · rename_i hd
      rw [hd, if_pos rfl]
      show _ = (s.watch.dropTask? label).getD s.watch
      cases s.watch.dropTask? label <;> rfl
    · rename_i hmissing hd
      rw [hd, if_neg fun h => hmissing h]
      rfl
  | subscribe label options =>
    show _ = s.watch.act (.subscribe label options)
    cases h : s.watch.subscribe label options <;> simp only [perform, Inventory.act, h]
  | pollStream label =>
    simp only [perform, watchAct?]
    cases s.watch.streams.get? label <;> rfl
  | next subscription kind =>
    exact s.watch_withHeld subscription _ (fun key => .read key kind) fun _ => rfl
  | tryNextError subscription =>
    refine s.watch_withHeld subscription _ (fun key => .read key .errors) fun key => ?_
    split <;> rename_i h <;> rw [Inventory.act, h]
  | await label subscription => exact s.watch_withHeld subscription _ (.await label) fun _ => rfl
  | openStream label subscription kind =>
    exact s.watch_withHeld subscription _ (fun key => .openStream label key kind) fun _ => rfl
  | cancel subscription => exact s.watch_withHeld subscription _ .cancel fun _ => rfl
  | isCancelled subscription =>
    show (s.withHeld subscription _).2.watch = s.watch
    unfold withHeld
    split <;> rfl
  | advance millis => exact absurd rfl (hx millis)
  | _ => rfl

/-- What is not found among the jobs is abandoned on the side of the inventory, if it is there. -/
theorem drop_of_missing {label : String} (h : (s.jobs.drop label).1 = .missing) :
    s.drop label = match s.watch.dropTask? label with
      | some watch => (.task, { s with watch })
      | none => (.missing, s) := by
  unfold drop
  split
  · rfl
  · rename_i hmissing hd
    rw [hd] at h
    exact absurd h hmissing

/-! ## All that happens -/

/-- What happens while time goes on. -/
def advanceActs : Nat → Session → List Inventory.Act
  | 0, _ => []
  | n + 1, s =>
    s.watch.goingOn (s.now + millisecond) ++ advanceActs n (s.moveTo (s.now + millisecond))

/-- What happens in a step before all go on. -/
def performActs (s : Session) : Step → List Inventory.Act
  | .advance millis => s.advanceActs millis
  | x => (s.watchAct? x).toList

/-- What happens in a step. -/
def stepActs (s : Session) (x : Step) : List Inventory.Act :=
  s.performActs x ++ (s.perform x).2.watch.goingOn (s.perform x).2.now ++ [.clear]

/-- What happens in a list of steps. -/
def acts (s : Session) : List Step → List Inventory.Act
  | [] => []
  | x :: xs => s.stepActs x ++ acts (s.step x).2 xs

theorem watch_advance (s : Session) (n : Nat) :
    (s.advance n).watch = s.watch.after (s.advanceActs n) := by
  induction n generalizing s with
  | zero => rfl
  | succ n ih =>
    rw [advanceActs, Inventory.after_append, ← settle_eq_goingOn]
    exact ih _

theorem watch_perform (s : Session) (x : Step) :
    (s.perform x).2.watch = s.watch.after (s.performActs x) := by
  by_cases hx : ∃ millis, x = .advance millis
  · obtain ⟨millis, rfl⟩ := hx
    exact s.watch_advance millis
  · have hacts : s.performActs x = (s.watchAct? x).toList := by
      cases x with
      | advance millis => exact absurd ⟨millis, rfl⟩ hx
      | _ => rfl
    rw [s.perform_watch fun millis h => hx ⟨millis, h⟩, hacts]
    cases s.watchAct? x <;> rfl

theorem watch_step (s : Session) (x : Step) : (s.step x).2.watch = s.watch.after (s.stepActs x) := by
  rw [stepActs, Inventory.after_append, Inventory.after_append, ← watch_perform,
    ← settle_eq_goingOn]
  rfl

theorem given_stepActs {β : Type} (out : Subscription → Subscription.Act → Option β) (key : Nat)
    (s : Session) (x : Step) :
    s.watch.given out key (s.stepActs x) = s.watch.given out key (s.performActs x) ++
      (s.perform x).2.watch.given out key ((s.perform x).2.watch.goingOn (s.perform x).2.now) ++
        (s.perform x).2.settle.watch.given out key [.clear] := by
  rw [stepActs, Inventory.given_append, Inventory.given_append, Inventory.after_append,
    ← watch_perform, ← Inventory.settle_eq_goingOn]
  rfl

/-- All that happens on the side of the inventory. -/
theorem watch_after (s : Session) (xs : List Step) :
    (s.after xs).watch = s.watch.after (s.acts xs) := by
  induction xs generalizing s with
  | nil => rfl
  | cons x xs ih =>
    rw [acts, Inventory.after_append, ← watch_step]
    exact ih _

/-! ## Between two steps -/

theorem isCall_watchAct? {y : Inventory.Act} (h : s.watchAct? x = some y) : y.isCall = true := by
  cases x with
  | next | tryNextError | await | openStream | pollStream | cancel =>
    obtain ⟨e, -, rfl⟩ := Option.map_eq_some_iff.1 h
    rfl
  | drop label =>
    simp only [watchAct?] at h
    split at h <;> cases h
    rfl
  | _ => cases h <;> rfl

/-- What a step asks of the inventory leaves nobody out who can go on. -/
theorem alert_perform (h : s.watch.Still s.now) (hx : ∀ millis, x ≠ .advance millis) :
    (s.perform x).2.watch.Numbered ∧ (s.perform x).2.watch.Alert s.now := by
  rw [s.perform_watch hx]
  cases hy : s.watchAct? x with
  | none => exact ⟨h.numbered, h.alert⟩
  | some y => exact ⟨h.numbered.act y, h.alert.rouses (rouses_act (isCall_watchAct? hy) _ _)⟩

theorem still_moveTo (h : s.watch.Still s.now) (now : Nat) : (s.moveTo now).watch.Still now :=
  settle_still h.numbered h.alert now

theorem still_advance (h : s.watch.Still s.now) (n : Nat) :
    (s.advance n).watch.Still (s.advance n).now := by
  induction n generalizing s with
  | zero => exact h
  | succ n ih => exact ih (still_moveTo h _)

theorem still_clear (h : s.watch.Still s.now) : s.clear.watch.Still s.clear.now where
  numbered := h.numbered.act .clear
  alert := h.alert.rouses (rouses_act (x := .clear) rfl _ _)
  idle := h.idle
  listing := h.listing

theorem still_step (h : s.watch.Still s.now) (x : Step) :
    (s.step x).2.watch.Still (s.step x).2.now := by
  refine still_clear (s := (s.perform x).2.settle) ?_
  cases hx : x.isAdvance with
  | true =>
    cases x with
    | advance millis =>
      have hend := still_advance h millis
      exact settle_still hend.numbered hend.alert _
    | _ => cases hx
  | false =>
    obtain ⟨hn, ha⟩ := alert_perform h (x := x) fun millis he => by rw [he] at hx; cases hx
    exact settle_still hn ha _

/-- Between two steps all have to wait. -/
theorem still_after (h : s.watch.Still s.now) (xs : List Step) :
    (s.after xs).watch.Still (s.after xs).now := by
  induction xs generalizing s with
  | nil => exact h
  | cons x xs ih => exact ih (still_step h x)

theorem still_connect {options : BusOptions} (h : connect? options none = .ok s) :
    s.watch.Still s.now := by
  cases h
  exact ⟨.empty, .empty 0, rfl, nofun⟩

end Session

end SystemdControl
