import SystemdControl.Proofs.Job.Dispatcher.Tidings
import SystemdControl.Proofs.Session.JobSide
import SystemdControl.Proofs.Watch.Calling

/-!
# Whoever can go on has a turn

The steps of a session are made through either interface: some are answered at once, others are
waited for, on one executor or another. Whatever they are, in between nobody is left without a turn
who can go on, and between two of them everybody waits.

* `Session.Tended` says that nobody is left without a turn; `Tended.perform`: a step keeps it before
  anything goes on, and `TendedApart.settle`: so does everything that goes on, whatever the time;
* `Session.Reachable` are the sessions that steps of either interface lead to, and
  `Reachable.settled` what is known of them.
-/

namespace SystemdControl

/-! ## The two sides -/

namespace Dispatcher

variable {s : Dispatcher} {now : Nat}

/-- A dispatcher in which nobody is left without a turn who can go on. -/
structure Tended (now : Nat) (s : Dispatcher) : Prop extends Steady now s where
  heeded : s.Heeded
  /-- Registrations are told apart by a number that comes round. -/
  briefed : s.table.registered ≤ 2 ^ 64 → s.Briefed

namespace Tended

theorem start (capacity now : Nat) : Tended now { feed := { capacity } } where
  toSteady := .start capacity now
  heeded ha := absurd ha (by simp [abandoned])
  briefed _ := ⟨nofun, [], JobTable.sound_nil⟩

/-- The calls of the interface leave nobody out. -/
theorem act (h : Tended now s) {x : Act} (hx : x.isCall = true) : Tended now (s.act x) where
  toSteady := h.toSteady.act hx
  heeded := heeded_act h.heeded x
  briefed hn := (h.briefed (Nat.le_trans (registered_le_act h.holds x) hn)).act h.holds
    (fun actor he => by rw [he] at hx; cases hx) hn

/-- When time goes on those are roused whose time is over. -/
theorem alarm (h : Tended now s) (later : Nat) : Tended later (s.alarm later) where
  toSteady := h.toSteady.alarm later
  heeded := heeded_act h.heeded (.alarm later)
  briefed hn := (h.briefed hn).act h.holds (x := .alarm later) nofun hn

theorem settle (h : Tended now s) : Tended now (s.settle now) where
  toSteady := h.toSteady.settle
  heeded := (settle_coasts now s).heeded h.heeded
  briefed hn :=
    (h.briefed (Nat.le_trans (registered_le_steps h.holds now s.work) hn)).steps h.holds hn

end Tended

end Dispatcher

namespace Inventory

variable {s : Inventory} {now : Nat} {key : Nat}

/-- An inventory in which nobody is left without a turn who can go on. -/
structure Tended (now : Nat) (s : Inventory) : Prop where
  reaches : Reaches {} s
  alert : s.Alert now

namespace Tended

theorem empty (now : Nat) : Tended now {} :=
  ⟨.refl _, .empty now⟩

theorem numbered (h : Tended now s) : s.Numbered := by
  obtain ⟨xs, rfl⟩ := h.reaches
  exact Numbered.empty.after xs

theorem attended (h : Tended now s) : s.Attended := by
  obtain ⟨xs, rfl⟩ := h.reaches
  exact Attended.empty.after .empty xs

theorem prompt (h : Tended now s) : s.Prompt := by
  obtain ⟨xs, rfl⟩ := h.reaches
  exact Prompt.empty.after .empty xs

theorem act (h : Tended now s) {x : Act} (hx : x.isCall = true) : Tended now (s.act x) :=
  ⟨h.reaches.trans (.act s x), h.alert.rouses (rouses_act hx now s)⟩

theorem settle (h : Tended now s) (later : Nat) : Tended later (s.settle later) :=
  ⟨h.reaches.trans (.settle s later), h.alert.settle later⟩

/-- A reader that waits lets time go on. -/
theorem awaitWithin (h : Tended now s) (kind : StreamKind) (n : Nat) :
    let r := awaitWithin key kind n now s
    Tended r.2.1 r.2.2 := by
  induction n generalizing now s with
  | zero => exact h
  | succ n ih =>
    have hread := h.act (x := .read key kind) rfl
    unfold Inventory.awaitWithin
    split
    · rename_i s' hr
      rw [Inventory.act, hr] at hread
      split
      · exact hread
      · exact ih (hread.settle _)
    · rename_i hr
      rw [Inventory.act, hr] at hread
      exact hread

theorem awaitItem (h : Tended now s) (key : Nat) (kind : StreamKind) :
    let r := s.awaitItem now key kind
    Tended r.2.1 r.2.2 :=
  (h.settle now).awaitWithin kind _

end Tended

end Inventory

/-! ## Sessions -/

namespace Session

variable {s : Session} {x : Step}

/-- A session in which nobody is left without a turn who can go on. -/
structure Tended (s : Session) : Prop where
  jobs : s.jobs.Tended s.now
  watch : s.watch.Tended s.now

theorem tended_connect {options : BusOptions} (h : connect? options none = .ok s) : s.Tended := by
  cases h
  exact ⟨.start _ _, .empty _⟩

/-- The same, by a clock of each side. -/
def TendedApart (s : Session) : Prop :=
  (∃ now, s.jobs.Tended now) ∧ ∃ now, s.watch.Tended now

namespace TendedApart

/-- When everything goes on both sides look at the clock. -/
theorem settle (h : s.TendedApart) : s.settle.Tended := by
  obtain ⟨⟨_, hj⟩, _, hw⟩ := h
  exact ⟨((hj.alarm s.now).act (x := .withGuests _) rfl).settle, hw.settle s.now⟩

/-- When everything has gone on all wait. -/
theorem settled (h : s.TendedApart) : s.settle.clear.Settled := by
  obtain ⟨⟨_, hj⟩, _, hw⟩ := h
  exact {
    calm := clear_calm (settle_calm hj.toSteady hj.heeded)
    still := still_clear (s := s.settle) (Inventory.settle_still hw.numbered hw.alert s.now)
    told := rfl
    read := rfl }

end TendedApart

namespace Tended

theorem apart (h : s.Tended) : s.TendedApart :=
  ⟨⟨_, h.jobs⟩, _, h.watch⟩

theorem settle (h : s.Tended) : s.settle.Tended :=
  h.apart.settle

theorem clear (h : s.Tended) : s.clear.Tended :=
  ⟨h.jobs.act (x := .clear) rfl, h.watch.act (x := .clear) rfl⟩

theorem moveTo (h : s.Tended) (now : Nat) : (s.moveTo now).Tended :=
  TendedApart.settle (s := { s with now }) h.apart

theorem advance (h : s.Tended) (n : Nat) : (s.advance n).Tended := by
  induction n generalizing s with
  | zero => exact h
  | succ n ih => exact ih (h.moveTo _)

theorem perform (h : s.Tended) (x : Step) : (s.perform x).2.Tended := by
  cases hx : x.isAdvance with
  | true =>
    cases x with
    | advance millis => exact h.advance millis
    | _ => cases hx
  | false =>
    have hne : ∀ millis, x ≠ .advance millis := fun millis he => by rw [he] at hx; cases hx
    constructor
    · rw [perform_now s hx, perform_jobs s hx]
      cases hj : x.jobAct? s.now with
      | none => exact h.jobs
      | some y => exact h.jobs.act (Step.isCall_jobAct? hj).1
    · rw [perform_now s hx, perform_watch s hne]
      cases hy : s.watchAct? x with
      | none => exact h.watch
      | some y => exact h.watch.act (isCall_watchAct? hy)

end Tended

end Session

namespace Blocking

variable {s : Session} {x : Step}

/-- A step that waits for nothing leaves nothing behind when it is refused. -/
theorem refuse_eq_self (hx : ∀ label limit, x ≠ .wait label limit) : refuse s x = s := by
  unfold refuse
  split
  · exact absurd rfl (hx _ _)
  · rfl

/-- Of a wait that is refused it is left that its handle was abandoned. -/
theorem refuse_wait {label : String} {handle : JobHandle}
    (hg : s.jobs.handles.get? label = some handle) (limit : Option Duration) :
    refuse s (.wait label limit) = (s.perform (.drop label)).2 := by
  show refuse s (.wait label limit) = (s.drop label).2
  rw [refuse, hg, Session.drop, Dispatcher.drop, hg]

theorem tended_refuse (h : s.Tended) (x : Step) : (refuse s x).Tended := by
  by_cases hx : ∃ label limit, x = .wait label limit
  · obtain ⟨label, limit, rfl⟩ := hx
    cases hg : s.jobs.handles.get? label with
    | none => rwa [refuse, hg]
    | some handle =>
      rw [refuse_wait hg]
      exact h.perform _
  · rwa [refuse_eq_self fun label limit he => hx ⟨label, limit, he⟩]

theorem tended_awaitUntil (h : s.Tended) (label : String) (limit n : Nat) :
    (awaitUntil label limit n s).2.Tended := by
  induction n generalizing s with
  | zero => exact h
  | succ n ih =>
    unfold awaitUntil
    split
    · exact h
    · split
      · exact ih (h.moveTo _)
      · exact h

/-- A reader that waits lets time go on at the inventory first. -/
theorem apart_perform (h : s.Tended) (x : Step) : (perform s x).2.TendedApart := by
  have hp := h.perform x
  have hend : ∀ label, (awaitEnding (s.perform x).2.settle x label).2.TendedApart := fun label =>
    (tended_awaitUntil hp.settle label _ _).apart
  unfold perform
  split
  · rename_i kind
    split
    · exact h.apart
    · rename_i key _
      have hitem := h.watch.awaitItem key kind
      unfold awaitNext
      split
      · rename_i hr
        rw [hr] at hitem
        exact ⟨⟨_, h.jobs⟩, _, hitem⟩
      · rename_i hr
        rw [hr] at hitem
        exact ⟨⟨_, h.jobs⟩, _, hitem⟩
  · exact hend _
  · exact hend _
  · exact hend _
  · rename_i label _
    split
    · rename_i hr
      rw [hr] at hp
      exact hp.apart
    · rename_i hr
      have hwait := hend label
      rw [hr] at hwait
      exact hwait
  · exact hp.apart

/-- A step is something after which both sides look at the clock, and what follows from it. -/
theorem exists_apart (h : s.Tended) (executor : Executor) (x : Step) :
    ∃ u : Session, u.TendedApart ∧ (step executor s x).2 = u.settle.clear := by
  unfold step
  cases executor.block with
  | ok => exact ⟨_, apart_perform h x, rfl⟩
  | error e =>
    dsimp only
    split
    · exact ⟨_, h.apart, rfl⟩
    · split
      · exact ⟨_, (tended_refuse h x).apart, rfl⟩
      · exact ⟨_, (h.perform x).apart, rfl⟩

end Blocking

namespace Session

variable {s : Session}

/-- A session that steps have led to, each answered at once or made through the blocking interface
on some executor. -/
inductive Reachable : Session → Prop
  | connect {s : Session} {options : BusOptions} (h : connect? options none = .ok s) : Reachable s
  | step {s : Session} (h : Reachable s) (x : Step) : Reachable (s.step x).2
  | blocking {s : Session} (h : Reachable s) (executor : Executor) (x : Step) :
      Reachable (Blocking.step executor s x).2

namespace Reachable

theorem tended (h : Reachable s) : s.Tended := by
  induction h with
  | connect h => exact tended_connect h
  | step _ x ih => exact (ih.perform x).settle.clear
  | blocking _ executor x ih =>
    obtain ⟨u, hu, he⟩ := Blocking.exists_apart ih executor x
    exact he ▸ hu.settle.clear

/-- Between two steps all wait, whichever interface they are made through. -/
theorem settled (h : Reachable s) : s.Settled := by
  cases h with
  | connect h => exact .connect h
  | step h x => exact (h.tended.perform x).apart.settled
  | blocking h executor x =>
    obtain ⟨u, hu, he⟩ := Blocking.exists_apart h.tended executor x
    exact he ▸ hu.settled

theorem after (h : Reachable s) (xs : List Step) : (s.after xs).Reachable := by
  induction xs generalizing s with
  | nil => exact h
  | cons x xs ih => exact ih (h.step x)

end Reachable

end Session

end SystemdControl
