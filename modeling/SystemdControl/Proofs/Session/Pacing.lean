import SystemdControl.Proofs.Session.Timeline
import SystemdControl.Proofs.Watch.Pacing

/-!
# Subscriptions keep their period

Along a session the clock goes from tick to tick, and at every tick everything goes on until it has
to wait. So a poller is never late: it starts its next fetch at the first tick at which the one
before is done and its interval is over.

* `Session.log` is what the acts of a session give at a subscription;
* `Session.OnTime`: the poller of a subscription keeps its pace at every tick;
* `Session.fetches_keep_period` reads it off the times at which fetches start and are done.
-/

namespace SystemdControl

theorem Subscription.interval_act (p : Subscription) (x : Subscription.Act) :
    (p.act x).interval = p.interval := by
  cases x with
  | begin now fetch =>
    rw [act]
    split <;> rfl
  | move now =>
    have h := p.moves now
    generalize p.received (.move now) = r, p.publishes (.move now) = o,
      p.act (.move now) = p' at h ⊢
    cases h with
    | @receive fetch => cases fetch.result <;> rfl
    | stay | publish | wake | stop => rfl
  | readChange =>
    simp only [act, readChange]
    split <;> rfl
  | readError =>
    simp only [act, readError]
    split <;> rfl
  | cancel => rfl

theorem Subscription.interval_after (p : Subscription) (xs : List Subscription.Act) :
    (p.after xs).interval = p.interval := by
  induction xs generalizing p with
  | nil => rfl
  | cons x xs ih => exact (ih _).trans (p.interval_act x)

namespace Inventory

open Subscription (startsAt doneAt)

variable {s : Inventory} {key grain born now : Nat} {p : Subscription} {starts done : List Nat}

/-- When something happens that someone does by itself. -/
def Act.time? : Act → Option Nat
  | .turn now | .move now _ => some now
  | _ => none

theorem Act.time?_of_isCall {x : Act} (h : x.isCall = true) : x.time? = none := by
  cases x with
  | turn | move => cases h
  | _ => rfl

/-- Whoever goes on does so at the time of the act. -/
theorem time?_done? {x : Act} {y : Subscription.Act} (h : s.done? key x = some y) {t : Nat}
    (ht : y.time? = some t) : x.time? = some t := by
  have hby : ∀ {now : Nat} {watcher : Watcher}, s.doneBy? key now watcher = some y → now = t := by
    intro now watcher hd
    cases watcher with
    | poller k =>
      simp only [doneBy?] at hd
      split at hd
      · obtain ⟨p, -, rfl⟩ := Option.map_eq_some_iff.1 hd
        unfold turnOf at ht
        split at ht <;> exact Option.some.inj ht
      · cases hd
    | reader number =>
      obtain ⟨reader, -, hr⟩ := Option.bind_eq_some_iff.1 hd
      split at hr <;> cases hr
      cases ht
  cases x with
  | read k kind =>
    simp only [done?] at h
    split at h <;> cases h
    cases kind <;> cases ht
  | turn now =>
    obtain ⟨⟨m, watcher⟩, hm, hd⟩ := Option.bind_eq_some_iff.1 h
    obtain ⟨w, -, hw⟩ := Option.map_eq_some_iff.1 hm
    cases hw
    exact congrArg some (hby hd)
  | move now watcher => exact congrArg some (hby h)
  | _ => cases h

/-- Acts at a tick of the clock keep the pace of a poller. -/
theorem paced_after (hp : s.poller? key = some p)
    (h : p.Paced grain born now starts done) (hnow : grain ∣ now) {xs : List Act}
    (hx : ∀ x ∈ xs, ∀ t, x.time? = some t → t = now) :
    ∃ p', (s.after xs).poller? key = some p' ∧ p'.interval = p.interval ∧
      p'.Paced grain born now (starts ++ s.given startsAt key xs)
        (done ++ s.given doneAt key xs) := by
  induction xs generalizing s p starts done with
  | nil => exact ⟨p, hp, rfl, by simpa [given] using h⟩
  | cons x xs ih =>
    rw [List.forall_mem_cons] at hx
    obtain ⟨cs, hcs, hact⟩ := s.act_does key x
    have htimes : ∀ y ∈ (s.done? key x).toList ++ cs, ∀ t, y.time? = some t → t = now := by
      intro y hy t ht
      rcases List.mem_append.1 hy with hy | hy
      · exact hx.1 t (time?_done? (Option.mem_toList.1 hy) ht)
      · rw [hcs y hy] at ht
        cases ht
    have hgiven : ∀ {β : Type} (out : Subscription → Subscription.Act → Option β),
        (∀ q, out q .cancel = none) →
        p.given out ((s.done? key x).toList ++ cs) = (s.gives out key x).toList := by
      intro β out hout
      have hnone : ∀ q : Subscription, q.given out cs = [] :=
        Run.outputs_eq_nil fun y hy q => by rw [hcs y hy, hout]
      rw [Subscription.given, Run.outputs_append, gives, hp, Option.bind_some]
      refine (congrArg (_ ++ ·) (hnone _)).trans ?_
      rw [List.append_nil]
      cases s.done? key x with
      | none => rfl
      | some y => simp
    have hpaced := h.after hnow htimes
    rw [hgiven startsAt fun _ => rfl, hgiven doneAt fun _ => rfl] at hpaced
    obtain ⟨p', hp', hinterval, hrest⟩ := ih (hact p hp) hpaced hx.2
    refine ⟨p', hp', hinterval.trans (p.interval_after _), ?_⟩
    rw [List.append_assoc, List.append_assoc] at hrest
    exact hrest

theorem time?_goingOn (s : Inventory) {x : Act} (hx : x ∈ s.goingOn now) {t : Nat}
    (ht : x.time? = some t) : t = now := by
  rcases List.mem_cons.1 hx with rfl | hx
  · cases ht
  · rw [List.eq_of_mem_replicate hx] at ht
    exact (Option.some.inj ht).symm

end Inventory

namespace Session

open Subscription (startsAt doneAt)

variable {s : Session} {x : Step} {key born interval : Nat} {starts done : List Nat}

/-- What the acts of a session give at the subscription of a number. -/
def log {β : Type} (out : Subscription → Subscription.Act → Option β) (key : Nat) (s : Session)
    (xs : List Step) : List β :=
  s.watch.given out key (s.acts xs)

theorem log_cons {β : Type} (out : Subscription → Subscription.Act → Option β) (key : Nat)
    (s : Session) (x : Step) (xs : List Step) :
    s.log out key (x :: xs) =
      s.watch.given out key (s.stepActs x) ++ (s.step x).2.log out key xs := by
  rw [log, acts, Inventory.given_append, ← watch_step]
  rfl

/-- The poller of a subscription has kept its pace up to this tick of the clock. -/
structure OnTime (key born interval : Nat) (starts done : List Nat) (s : Session) : Prop where
  clock : millisecond ∣ s.now
  paced : ∃ p, s.watch.poller? key = some p ∧ p.interval = interval ∧
    p.Paced millisecond born s.now starts done

namespace OnTime

/-- What happens at one tick keeps the pace. -/
theorem acts (h : OnTime key born interval starts done s) {s' : Session}
    {xs : List Inventory.Act} (hwatch : s'.watch = s.watch.after xs) (hnow : s'.now = s.now)
    (hx : ∀ x ∈ xs, ∀ t, x.time? = some t → t = s.now) :
    OnTime key born interval (starts ++ s.watch.given startsAt key xs)
      (done ++ s.watch.given doneAt key xs) s' := by
  obtain ⟨p, hp, hinterval, hpaced⟩ := h.paced
  obtain ⟨p', hp', hinterval', hpaced'⟩ := Inventory.paced_after hp hpaced h.clock hx
  rw [← hnow] at hpaced'
  exact ⟨hnow ▸ h.clock, p', hwatch ▸ hp', hinterval'.trans hinterval, hpaced'⟩

theorem settle (h : OnTime key born interval starts done s) :
    OnTime key born interval (starts ++ s.watch.given startsAt key (s.watch.goingOn s.now))
      (done ++ s.watch.given doneAt key (s.watch.goingOn s.now)) s.settle :=
  h.acts (Inventory.settle_eq_goingOn _ _) rfl fun _ hx _ => s.watch.time?_goingOn hx

/-- The clock goes on by a tick when all have to wait. -/
theorem tick (h : OnTime key born interval starts done s) (hstill : s.watch.Still s.now) :
    OnTime key born interval starts done { s with now := s.now + millisecond } := by
  obtain ⟨p, hp, hinterval, hpaced⟩ := h.paced
  exact ⟨Nat.dvd_add h.clock (dvd_refl _), p, hp, hinterval,
    hpaced.later h.clock (hstill.canMove hp)⟩

theorem advance (h : OnTime key born interval starts done s) (hstill : s.watch.Still s.now)
    (n : Nat) :
    OnTime key born interval (starts ++ s.watch.given startsAt key (s.advanceActs n))
      (done ++ s.watch.given doneAt key (s.advanceActs n)) (s.advance n) := by
  induction n generalizing s starts done with
  | zero => simpa [advanceActs, Inventory.given, Session.advance] using h
  | succ n ih =>
    have hmove := ih (s := s.moveTo (s.now + millisecond)) (h.tick hstill).settle
      (still_moveTo hstill _)
    rw [advanceActs, Inventory.given_append, Inventory.given_append,
      ← Inventory.settle_eq_goingOn, ← List.append_assoc, ← List.append_assoc]
    exact hmove

theorem perform (h : OnTime key born interval starts done s) (hstill : s.watch.Still s.now)
    (x : Step) :
    OnTime key born interval (starts ++ s.watch.given startsAt key (s.performActs x))
      (done ++ s.watch.given doneAt key (s.performActs x)) (s.perform x).2 := by
  cases hx : x.isAdvance with
  | true =>
    cases x with
    | advance millis => exact h.advance hstill millis
    | _ => cases hx
  | false =>
    have hacts : s.performActs x = (s.watchAct? x).toList := by
      cases x with
      | advance millis => cases hx
      | _ => rfl
    refine h.acts (s.watch_perform x) (perform_now s hx) fun y hy t ht => ?_
    rw [hacts, Option.mem_toList] at hy
    rw [Inventory.Act.time?_of_isCall (isCall_watchAct? hy)] at ht
    cases ht

/-- All go on, and what has ended is reported. -/
theorem finish (h : OnTime key born interval starts done s) :
    OnTime key born interval
      (starts ++ s.watch.given startsAt key (s.watch.goingOn s.now) ++
        s.settle.watch.given startsAt key [.clear])
      (done ++ s.watch.given doneAt key (s.watch.goingOn s.now) ++
        s.settle.watch.given doneAt key [.clear]) s.settle.clear :=
  have hclear : s.settle.clear.watch = s.settle.watch.after [.clear] := rfl
  h.settle.acts hclear rfl fun y hy t ht => by
    rw [List.mem_singleton.1 hy] at ht
    cases ht

theorem step (h : OnTime key born interval starts done s) (hstill : s.watch.Still s.now)
    (x : Step) :
    OnTime key born interval (starts ++ s.watch.given startsAt key (s.stepActs x))
      (done ++ s.watch.given doneAt key (s.stepActs x)) (s.step x).2 := by
  rw [given_stepActs, given_stepActs, ← List.append_assoc, ← List.append_assoc,
    ← List.append_assoc, ← List.append_assoc]
  exact (h.perform hstill x).finish

theorem after (h : OnTime key born interval starts done s) (hstill : s.watch.Still s.now)
    (xs : List Step) :
    OnTime key born interval (starts ++ s.log startsAt key xs) (done ++ s.log doneAt key xs)
      (s.after xs) := by
  induction xs generalizing s starts done with
  | nil => simpa [log, Session.acts, Inventory.given, Session.after] using h
  | cons x xs ih =>
    rw [log_cons, log_cons, ← List.append_assoc, ← List.append_assoc]
    exact ih (h.step hstill x) (still_step hstill x)

/-- A subscription starts on time. -/
theorem subscribe (hclock : millisecond ∣ s.now) (hstill : s.watch.Still s.now) (label : String)
    {o : SubscribeOptions} (ho : 0 < o.interval.toNanos) :
    OnTime s.watch.opened s.now o.interval.toNanos
      (s.watch.given startsAt s.watch.opened (s.stepActs (.subscribe label o)))
      (s.watch.given doneAt s.watch.opened (s.stepActs (.subscribe label o)))
      (s.step (.subscribe label o)).2 := by
  obtain ⟨p, hopen, hp⟩ := hstill.numbered.exists_opened label ho
  have hinterval : p.interval = o.interval.toNanos := by
    obtain ⟨-, rfl⟩ := Subscription.eq_of_open? hopen
    rfl
  have hwatch := s.perform_watch (x := .subscribe label o) nofun
  have hnow := perform_now s (x := .subscribe label o) rfl
  have hnone : s.watch.poller? s.watch.opened = none := by
    rw [← Option.not_isSome_iff_eq_none, hstill.numbered.isSome_iff]
    exact Nat.lt_irrefl _
  have hgiven : ∀ out : Subscription → Subscription.Act → Option Nat,
      s.watch.given out s.watch.opened (s.performActs (.subscribe label o)) = [] := fun out => by
    show (s.watch.gives out s.watch.opened _).toList ++ [] = []
    rw [Inventory.gives, hnone]
    rfl
  have hstart : OnTime s.watch.opened s.now o.interval.toNanos [] []
      (s.perform (.subscribe label o)).2 := by
    refine ⟨hnow ▸ hclock, p, ?_, hinterval, ?_⟩
    · rw [hwatch]
      exact hp
    · rw [hnow]
      exact .of_open? hopen _ _
  rw [given_stepActs, given_stepActs, hgiven, hgiven]
  exact hstart.finish

end OnTime

/-! ## The clock -/

theorem clock_advance (h : millisecond ∣ s.now) (n : Nat) : millisecond ∣ (s.advance n).now := by
  induction n generalizing s with
  | zero => exact h
  | succ n ih => exact ih (s := s.moveTo (s.now + millisecond)) (Nat.dvd_add h (dvd_refl _))

/-- The clock stands at a tick between two steps. -/
theorem clock_after (h : millisecond ∣ s.now) (xs : List Step) :
    millisecond ∣ (s.after xs).now := by
  induction xs generalizing s with
  | nil => exact h
  | cons x xs ih =>
    refine ih (s := (s.step x).2) ?_
    show millisecond ∣ (s.perform x).2.now
    cases hx : x.isAdvance with
    | false => rwa [perform_now s hx]
    | true =>
      cases x with
      | advance millis => exact clock_advance h millis
      | _ => cases hx

/-- A subscription without an interval is refused, and nothing else happens. -/
theorem step_subscribe_zero (h : s.watch.Still s.now) (label : String) {o : SubscribeOptions}
    (ho : o.interval.toNanos = 0) :
    (s.step (.subscribe label o)).1.answer = .failed (.invalidInput .intervalZero) ∧
      (s.step (.subscribe label o)).2.watch = { s.watch with events := [] } := by
  have hopen : Subscription.open? o = .error (.invalidInput .intervalZero) := by
    rw [Subscription.open?, dif_neg (by omega)]
  have hperform : s.perform (.subscribe label o) = (.failed (.invalidInput .intervalZero), s) := by
    simp only [perform, Inventory.subscribe, hopen, bind, Except.bind]
  refine ⟨?_, ?_⟩
  · show (s.perform (.subscribe label o)).1 = _
    rw [hperform]
  · show ({ (s.perform (.subscribe label o)).2.settle.watch with events := [] } : Inventory) = _
    rw [hperform]
    exact congrArg (fun w : Inventory => { w with events := [] }) h.settle

end Session

end SystemdControl
