import SystemdControl.Proofs.Session.Acts
import SystemdControl.Proofs.Watch.Cancelling

/-!
# The inventory of a session

Whatever a session does on the side of the inventory is a run of acts of the inventory. So what
holds after every run of acts holds of the subscriptions of every session, whether its steps are
answered at once or wait.

* `Inventory.Reaches`: some acts lead from one state to another;
* `Session.step_watches` and `Blocking.step_watches`: every step of a session is such a run;
* `Session.exists_acts` and `Blocking.exists_acts`: the inventory of a session is that of a run.
-/

namespace SystemdControl

namespace Inventory

variable {s s' s'' : Inventory} {key : Nat} {p : Subscription}

/-- Some acts lead from one state to another. -/
def Reaches (s s' : Inventory) : Prop :=
  ∃ xs : List Act, s' = s.after xs

namespace Reaches

@[refl] theorem refl (s : Inventory) : Reaches s s :=
  ⟨[], rfl⟩

theorem trans (h : Reaches s s') (h' : Reaches s' s'') : Reaches s s'' := by
  obtain ⟨xs, rfl⟩ := h
  obtain ⟨ys, rfl⟩ := h'
  exact ⟨xs ++ ys, (after_append s xs ys).symm⟩

theorem act (s : Inventory) (x : Act) : Reaches s (s.act x) :=
  ⟨[x], rfl⟩

theorem settle (s : Inventory) (now : Nat) : Reaches s (s.settle now) :=
  ⟨_, settle_eq_goingOn now s⟩

end Reaches

/-! ## Reading with the time that it takes -/

theorem awaitWithin_reaches (key : Nat) (kind : StreamKind) (n now : Nat) (s : Inventory) :
    Reaches s (awaitWithin key kind n now s).2.2 := by
  induction n generalizing now s with
  | zero => exact .refl s
  | succ n ih =>
    have hread := Reaches.act s (.read key kind)
    unfold awaitWithin
    split
    · rename_i s' h
      rw [Inventory.act, h] at hread
      split
      · exact hread
      · exact (hread.trans (.settle s' _)).trans (ih _ _)
    · rename_i item s' _ h
      rw [Inventory.act, h] at hread
      exact hread

theorem awaitItem_reaches (now key : Nat) (kind : StreamKind) (s : Inventory) :
    Reaches s (s.awaitItem now key kind).2.2 :=
  (Reaches.settle s now).trans (awaitWithin_reaches ..)

end Inventory

namespace Session

open Inventory

variable (s : Session)

theorem settle_watches : Reaches s.watch s.settle.watch :=
  .settle s.watch s.now

theorem moveTo_watches (now : Nat) : Reaches s.watch (s.moveTo now).watch :=
  settle_watches { s with now }

theorem advance_watches (n : Nat) : Reaches s.watch (advance n s).watch := by
  induction n generalizing s with
  | zero => exact .refl _
  | succ n ih => exact (s.moveTo_watches _).trans (ih _)

theorem drop_watches (label : String) : Reaches s.watch (s.drop label).2.watch := by
  unfold drop
  split
  · split
    · rename_i watch h
      have hact : s.watch.act (.dropTask label) = watch := by
        rw [Inventory.act, h, Option.getD_some]
      exact hact ▸ Reaches.act s.watch (.dropTask label)
    · exact .refl _
  · exact .refl _

theorem withHeld_watches {f : Nat → Answer × Inventory}
    (h : ∀ key, Reaches s.watch (f key).2) (subscription : String) :
    Reaches s.watch (s.withHeld subscription f).2.watch := by
  unfold withHeld
  split
  · exact .refl _
  · exact h _

theorem perform_watches (x : Step) : Reaches s.watch (s.perform x).2.watch := by
  cases x with
  | drop label => exact s.drop_watches label
  | advance millis => exact s.advance_watches millis
  | inventory answers => exact Reaches.act s.watch (.addScript answers)
  | list label => exact Reaches.act s.watch (.list s.now label)
  | subscribe label options =>
    have hact := Reaches.act s.watch (.subscribe label options)
    rw [Inventory.act] at hact
    rw [perform]
    split
    · rename_i h
      rwa [h] at hact
    · exact .refl _
  | next subscription kind =>
    exact s.withHeld_watches (fun key => Reaches.act s.watch (.read key kind)) subscription
  | tryNextError subscription =>
    refine s.withHeld_watches (fun key => ?_) subscription
    have hread := Reaches.act s.watch (.read key .errors)
    rw [Inventory.act] at hread
    split <;> rename_i h <;> rwa [h] at hread
  | await label subscription =>
    exact s.withHeld_watches (fun key => Reaches.act s.watch (.await label key)) subscription
  | openStream label subscription kind =>
    exact s.withHeld_watches (fun key => Reaches.act s.watch (.openStream label key kind))
      subscription
  | pollStream label =>
    rw [perform]
    split
    · exact .refl _
    · rename_i key kind _
      exact Reaches.act s.watch (.read key kind)
  | cancel subscription =>
    exact s.withHeld_watches (fun key => Reaches.act s.watch (.cancel key)) subscription
  | isCancelled subscription => exact s.withHeld_watches (fun key => .refl _) subscription
  | dropSubscription label => exact Reaches.act s.watch (.dropHeld label)
  | start | kill | release | wait | emit | disconnect | shutdown | options | clone | dropHolder
  | listCalls => exact .refl _

/-- A step of a session is a run of acts, the last of which forgets what has been reported. -/
theorem step_watches (x : Step) : Reaches s.watch (s.step x).2.watch :=
  ((s.perform_watches x).trans (settle_watches _)).trans (.act _ .clear)

theorem after_watches (xs : List Step) : Reaches s.watch (s.after xs).watch := by
  induction xs generalizing s with
  | nil => exact .refl _
  | cons x xs ih => exact (s.step_watches x).trans (ih _)

/-- What is known of every run of an inventory is known of every session. -/
theorem exists_acts {options : BusOptions} (h : connect? options none = .ok s) (xs : List Step) :
    ∃ acts, (s.after xs).watch = Inventory.after {} acts := by
  cases h
  exact after_watches _ xs

end Session

namespace Blocking

open Inventory

variable (s : Session)

theorem refuse_watch (x : Step) : (refuse s x).watch = s.watch := by
  unfold refuse
  split
  · split <;> rfl
  · rfl

theorem awaitUntil_watches (label : String) (limit n : Nat) :
    Reaches s.watch (awaitUntil label limit n s).2.watch := by
  induction n generalizing s with
  | zero => exact .refl _
  | succ n ih =>
    unfold awaitUntil
    split
    · exact .refl _
    · split
      · exact (s.moveTo_watches _).trans (ih _)
      · exact .refl _

theorem awaitNext_watches (key : Nat) (kind : StreamKind) :
    Reaches s.watch (awaitNext s key kind).2.watch := by
  have h := awaitItem_reaches s.now key kind s.watch
  unfold awaitNext
  split
  · rename_i hitem
    rwa [hitem] at h
  · rename_i hitem
    rwa [hitem] at h

theorem perform_watches (x : Step) :
    Reaches s.watch (perform s x).2.watch := by
  have hp := s.perform_watches x
  have hend : ∀ label, Reaches s.watch (awaitEnding (s.perform x).2.settle x label).2.watch :=
    fun label => (hp.trans (Session.settle_watches _)).trans (awaitUntil_watches ..)
  unfold perform
  split
  · split
    · exact .refl _
    · exact awaitNext_watches s _ _
  · exact hend _
  · exact hend _
  · exact hend _
  · rename_i label _
    split
    · rename_i h
      rw [h] at hp
      exact hp
    · rename_i h
      have hwait := hend label
      rw [h] at hwait
      exact hwait
  · exact hp

/-- A step of a blocking session is a run of acts as well. -/
theorem step_watches (executor : Executor) (x : Step) :
    Reaches s.watch (step executor s x).2.watch := by
  have hend : ∀ r : Answer × Session, Reaches s.watch r.2.watch →
      Reaches s.watch r.2.settle.clear.watch := fun r hr =>
    (hr.trans (Session.settle_watches _)).trans (.act _ .clear)
  unfold step
  refine hend _ ?_
  split
  · exact perform_watches s x
  · split
    · exact .refl _
    · split
      · rw [refuse_watch]
      · exact s.perform_watches x

/-- A blocking session after some steps. -/
def after (executor : Executor) (xs : List Step) : Session :=
  xs.foldl (fun s x => (step executor s x).2) s

theorem after_watches (executor : Executor) (xs : List Step) :
    Reaches s.watch (after s executor xs).watch := by
  induction xs generalizing s with
  | nil => exact .refl _
  | cons x xs ih => exact (step_watches s executor x).trans (ih _)

/-- What is known of every run of an inventory is known of every blocking session. -/
theorem exists_acts {options : BusOptions} (h : Session.connect? options none = .ok s)
    (executor : Executor) (xs : List Step) :
    ∃ acts, (after s executor xs).watch = Inventory.after {} acts := by
  cases h
  exact after_watches _ executor xs

end Blocking

end SystemdControl
