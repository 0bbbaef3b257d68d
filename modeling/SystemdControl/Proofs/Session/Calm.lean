import SystemdControl.Proofs.Job.Dispatcher.Steady
import SystemdControl.Proofs.Job.Dispatcher.Use
import SystemdControl.Proofs.Session.Acts
import SystemdControl.Proofs.Watch.Listing

/-!
# Sessions between their steps

A step of a session is a call of its callers, after which everything goes on until it has to wait.
So between two steps everybody waits.

* `Step.jobAct?` is what a step asks of the dispatcher; `Session.perform_jobs` says that the rest
  leaves it alone;
* `Session.Calm` is what is known of a session between two steps, and `Session.calm_after` of
  every session.
-/

namespace SystemdControl

/-- What a step asks of the dispatcher. -/
def Step.jobAct? (now : Nat) : Step → Option Dispatcher.Act
  | .start label unit mode ask before held reply =>
    some (.start label (ask.request? unit mode) before held reply)
  | .kill label unit who signal held fail =>
    some (.kill label (KillRequest.make? unit who signal) held fail)
  | .release label => some (.release label)
  | .wait label limit => some (.wait now label limit)
  | .drop label => some (.drop label)
  | .emit signals => some (.emit signals)
  | .disconnect => some .disconnect
  | .shutdown => some .requestStop
  | .clone label access => some (.addHolder label access)
  | .dropHolder label => some (.dropHolder label)
  | _ => none

/-- Whether a step lets time go on. -/
def Step.isAdvance : Step → Bool
  | .advance _ => true
  | _ => false

theorem Step.isCall_jobAct? {x : Step} {now : Nat} {y : Dispatcher.Act}
    (h : x.jobAct? now = some y) : y.isCall = true ∧ ∀ guests, y ≠ .withGuests guests := by
  cases x <;> cases h <;> exact ⟨rfl, nofun⟩

/-- To look at the clock and at the listings changes nothing where no wait is over and nobody is
asked to stop who was not before. -/
theorem Dispatcher.rouse_none {s : Dispatcher} {now : Nat}
    (hw : ∀ w ∈ s.waits, w.isOver now = false) (hh : s.Heeded) :
    (s.alarm now).withGuests s.guests = s := by
  have hover : s.waits.filter (·.isOver now) = [] :=
    List.filter_eq_nil_iff.2 fun w hm => Bool.eq_false_iff.1 (hw w hm)
  have halarm : s.alarm now = s := by
    rw [alarm, hover]
    rfl
  rw [halarm]
  show s.stopIfAbandoned = s
  unfold stopIfAbandoned
  split
  · rename_i ha
    rw [requestStop, if_pos (hh ha)]
  · rfl

namespace Session

open Dispatcher (Act Rest Steady)

variable {s : Session} {x : Step}

/-! ## A step before anything goes on -/

/-- A step asks one thing of the dispatcher, or nothing. -/
theorem perform_jobs (s : Session) (hx : x.isAdvance = false) :
    (s.perform x).2.jobs = (x.jobAct? s.now).elim s.jobs s.jobs.act := by
  cases x with
  | drop label =>
    show (s.drop label).2.jobs = (s.jobs.drop label).2
    unfold drop
    split
    · rename_i jobs hd
      have hjobs : jobs = s.jobs := by
        unfold Dispatcher.drop at hd
        split at hd
        · cases hd
        · split at hd <;> cases hd
          rfl
      rw [hd, hjobs]
      split <;> rfl
    · rename_i hd
      rw [hd]
  | subscribe label options =>
    simp only [perform]
    split <;> rfl
  | pollStream label =>
    simp only [perform]
    split <;> rfl
  | next | await | openStream | cancel | isCancelled => exact s.withHeld_jobs _ _
  | tryNextError => exact s.withHeld_jobs _ _
  | advance => cases hx
  | _ => rfl

/-- What is done with a subscription takes no time. -/
theorem withHeld_now (s : Session) (subscription : String) (f : Nat → Answer × Inventory) :
    (s.withHeld subscription f).2.now = s.now := by
  unfold withHeld
  split <;> rfl

theorem perform_now (s : Session) (hx : x.isAdvance = false) : (s.perform x).2.now = s.now := by
  cases x with
  | drop label =>
    show (s.drop label).2.now = s.now
    unfold drop
    split
    · split <;> rfl
    · rfl
  | subscribe label options =>
    simp only [perform]
    split <;> rfl
  | pollStream label =>
    simp only [perform]
    split <;> rfl
  | next | await | openStream | cancel | isCancelled => exact s.withHeld_now _ _
  | tryNextError => exact s.withHeld_now _ _
  | advance => cases hx
  | _ => rfl

/-! ## Between two steps -/

/-- A session in which everybody waits. -/
structure Calm (s : Session) : Prop where
  rest : Rest s.now s.jobs
  /-- A listing under way is a call through one of the values that keep the listener alive. -/
  guests : s.jobs.guests = s.watch.listing.length
  heeded : s.jobs.Heeded

/-- The jobs while everything goes on. -/
theorem settle_jobs (s : Session) : s.settle.jobs =
    (((s.jobs.act (.alarm s.now)).act (.withGuests s.settle.watch.listing.length)).settle s.now) :=
  rfl

/-- After everything has gone on everybody waits, whenever the last step was. -/
theorem settle_calm {now : Nat} (h : Steady now s.jobs) (hh : s.jobs.Heeded) : s.settle.Calm where
  rest := Steady.rest ((h.alarm s.now).act (x := .withGuests _) rfl)
  guests := by
    rw [settle_jobs, (Dispatcher.settle_coasts ..).guests]
    exact Dispatcher.guests_stopIfAbandoned _
  heeded := (Dispatcher.settle_coasts ..).heeded
    (Dispatcher.heeded_act (Dispatcher.heeded_act hh (.alarm s.now)) (.withGuests _))

theorem clear_calm (h : s.Calm) : s.clear.Calm where
  rest := ⟨h.rest.toSteady.act (x := .clear) rfl, h.rest.idle⟩
  guests := h.guests
  heeded := h.heeded

namespace Calm

theorem isOver_eq_false (h : s.Calm) : ∀ w ∈ s.jobs.waits, w.isOver s.now = false := fun w hw =>
  Bool.eq_false_iff.2 fun ho => h.rest.not_needs (.wait w.ticket) (.inl ⟨w, hw, rfl, .inr ho⟩)

theorem connect {options : BusOptions} (h : connect? options none = .ok s) : s.Calm := by
  cases h
  refine ⟨⟨.start _ _, rfl⟩, rfl, fun ha => ?_⟩
  exact absurd ha (by simp [Dispatcher.abandoned])

/-- What a step asks keeps everybody attended to. -/
theorem perform (h : s.Calm) (hx : x.isAdvance = false) :
    Steady s.now (s.perform x).2.jobs ∧ (s.perform x).2.jobs.Heeded ∧
      (s.perform x).2.jobs.guests = s.jobs.guests := by
  rw [perform_jobs s hx]
  cases hj : x.jobAct? s.now with
  | none => exact ⟨h.rest.toSteady, h.heeded, rfl⟩
  | some y =>
    obtain ⟨hcall, hguests⟩ := Step.isCall_jobAct? hj
    exact ⟨h.rest.toSteady.act hcall, Dispatcher.heeded_act h.heeded y,
      Dispatcher.guests_act hcall hguests⟩

theorem moveTo (h : s.Calm) (now : Nat) : (s.moveTo now).Calm :=
  settle_calm (s := { s with now }) h.rest.toSteady h.heeded

theorem advance (h : s.Calm) (n : Nat) : (s.advance n).Calm := by
  induction n generalizing s with
  | zero => exact h
  | succ n ih => exact ih (h.moveTo _)

theorem step (h : s.Calm) (x : Step) : (s.step x).2.Calm := by
  refine clear_calm ?_
  cases hx : x.isAdvance with
  | false =>
    obtain ⟨hsteady, hheeded, -⟩ := h.perform hx
    exact settle_calm hsteady hheeded
  | true =>
    cases x with
    | advance millis =>
      have hcalm := h.advance millis
      exact settle_calm hcalm.rest.toSteady hcalm.heeded
    | _ => cases hx

theorem after (h : s.Calm) (xs : List Step) : (s.after xs).Calm := by
  induction xs generalizing s with
  | nil => exact h
  | cons x xs ih => exact ih (h.step x)

end Calm

/-- Between two steps everybody waits. -/
theorem calm_after {options : BusOptions} (h : connect? options none = .ok s) (xs : List Step) :
    (s.after xs).Calm :=
  (Calm.connect h).after xs

end Session

end SystemdControl
