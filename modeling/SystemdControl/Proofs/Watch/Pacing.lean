import Mathlib.Order.Bounds.Basic
import SystemdControl.Proofs.Watch.Alert

/-!
# The pace of a poller

A poller starts a fetch, is done with it when its changes are in the buffer or its error is taken
up, and starts the next one when its alarm has gone off and it is done. The alarm is set before the
fetch, so that neither fetching nor publishing makes the period longer.

* `Subscription.startsAt` and `Subscription.doneAt` are the times at which a cycle begins and is
  done;
* `FirstTick` is the first tick of the clock that is not too early;
* `Subscription.Paced` ties the times of all cycles together with where the poller is now;
  `Subscription.Paced.act` and `Subscription.Paced.later` keep it.
-/

namespace SystemdControl

/-- The first tick of a clock that is not earlier than a moment. -/
def FirstTick (grain moment : Nat) (tick : Nat) : Prop :=
  IsLeast {t | grain ∣ t ∧ moment ≤ t} tick

namespace Subscription

variable {p : Subscription} {grain born now : Nat} {starts done : List Nat}

/-! ## The times of a cycle -/

/-- When something happens that a poller does. -/
def Act.time? : Act → Option Nat
  | .begin now _ | .move now => some now
  | _ => none

/-- The time at which a fetch starts in an act. -/
def startsAt (p : Subscription) (x : Act) : Option Nat :=
  (p.starts x).bind fun _ => x.time?

/-- The time at which the changes of a cycle are accepted by the buffer in an act, or the error of
its fetch is taken up. -/
def doneAt (p : Subscription) (x : Act) : Option Nat :=
  if (p.publishes x).isSome || (p.fails x).isSome then x.time? else none

/-- How the phase of a poller fits the times at which its cycles began and were done. -/
def InStep (grain born now interval : Nat) (starts done : List Nat) (alarm : Nat) : Phase → Prop
  | .due => starts.length = done.length ∧ (starts = [] → now = born) ∧
      ∀ a d, starts.getLast? = some a → done.getLast? = some d →
        FirstTick grain (max (a + interval) d) now
  | .fetching _ | .publishing .. => starts.length = done.length + 1 ∧
      ∀ a, starts.getLast? = some a → alarm = a + interval
  | .resting => starts.length = done.length ∧ starts ≠ [] ∧
      ∀ a d, starts.getLast? = some a → done.getLast? = some d →
        alarm = a + interval ∧ d ≤ now ∧
          ∀ t, grain ∣ t → max (a + interval) d ≤ t → now ≤ t
  | .ended => starts.length = done.length ∨ starts.length = done.length + 1

/-- The cycles of a poller that was opened at a time began and were done at the given times, the
last of which is not later than now. -/
structure Paced (grain born now : Nat) (starts done : List Nat) (p : Subscription) : Prop where
  first : ∀ a, starts.head? = some a → a = born
  /-- A cycle begins at the first tick at which the one before is done and the interval is over. -/
  next : ∀ k a d b, starts[k]? = some a → done[k]? = some d → starts[k + 1]? = some b →
    FirstTick grain (max (a + p.interval) d) b
  inStep : InStep grain born now p.interval starts done p.alarm p.phase
  ended : p.hasEnded = true → p.cancelled = true

theorem InStep.length {interval alarm : Nat} {phase : Phase}
    (h : InStep grain born now interval starts done alarm phase) :
    done.length ≤ starts.length ∧ starts.length ≤ done.length + 1 := by
  cases phase with
  | due | resting => rw [h.1]; omega
  | fetching | publishing => rw [h.1]; omega
  | ended => rcases h with h | h <;> omega

namespace Paced

/-- A poller that was opened now has done nothing. -/
theorem of_open? {o : SubscribeOptions} (h : open? o = .ok p) (grain now : Nat) :
    Paced grain now now [] [] p := by
  obtain ⟨-, rfl⟩ := eq_of_open? h
  exact ⟨nofun, nofun, ⟨rfl, fun _ => rfl, nofun⟩, nofun⟩

/-- What is done to the streams does not concern the poller. -/
theorem congr {p' : Subscription} (h : Paced grain born now starts done p)
    (hphase : p'.phase = p.phase) (halarm : p'.alarm = p.alarm)
    (hinterval : p'.interval = p.interval) (hc : p.cancelled = true → p'.cancelled = true) :
    Paced grain born now starts done p' where
  first := h.first
  next := hinterval ▸ h.next
  inStep := by
    rw [hinterval, halarm, hphase]
    exact h.inStep
  ended he := hc (h.ended ((hasEnded_iff.2 ((hphase.symm.trans (hasEnded_iff.1 he))))))

/-- A fetch starts, and the alarm is set. -/
theorem begin (h : Paced grain born now starts done p) (hw : p.wantsFetch = true)
    (fetch : Fetch) : Paced grain born now (starts ++ [now]) done (p.begin now fetch) := by
  have hdue := h.inStep
  rw [phase_of_wantsFetch hw] at hdue
  obtain ⟨hlen, hfirst, htick⟩ := hdue
  refine ⟨fun a ha => ?_, fun k a d b ha hd hb => ?_, ⟨?_, fun a ha => ?_⟩, nofun⟩
  · cases starts with
    | nil => exact (Option.some.inj ha).symm.trans (hfirst rfl)
    | cons b bs => exact h.first a ha
  · have hk : k < done.length := (List.getElem?_eq_some_iff.1 hd).1
    rw [List.getElem?_append_left (by omega)] at ha
    by_cases hlast : k + 1 < starts.length
    · rw [List.getElem?_append_left hlast] at hb
      exact h.next k a d b ha hd hb
    · rw [List.getElem?_append_right (by omega), show k + 1 - starts.length = 0 by omega] at hb
      obtain rfl : now = b := Option.some.inj hb
      refine htick a d ?_ ?_
      · rw [List.getLast?_eq_getElem?, ← ha]
        congr 1
        omega
      · rw [List.getLast?_eq_getElem?, ← hd]
        congr 1
        omega
  · rw [List.length_append, List.length_singleton, hlen]
  · rw [List.getLast?_concat] at ha
    rw [← Option.some.inj ha]
    rfl

/-- A cycle is done, and the poller rests. -/
theorem rest {p' : Subscription} (h : Paced grain born now starts done p)
    (hlen : starts.length = done.length + 1)
    (halarm : ∀ a, starts.getLast? = some a → p.alarm = a + p.interval)
    (hphase : p'.phase = .resting) (halarm' : p'.alarm = p.alarm)
    (hinterval : p'.interval = p.interval) :
    Paced grain born now starts (done ++ [now]) p' := by
  refine ⟨h.first, fun k a d b ha hd hb => ?_, ?_, ?_⟩
  · have hk : k + 1 < starts.length := (List.getElem?_eq_some_iff.1 hb).1
    rw [List.getElem?_append_left (by omega)] at hd
    rw [hinterval]
    exact h.next k a d b ha hd hb
  · rw [hphase, halarm', hinterval]
    refine ⟨by rw [List.length_append, List.length_singleton, hlen], ?_, fun a d ha hd => ?_⟩
    · rintro rfl
      cases hlen
    · rw [List.getLast?_concat] at hd
      obtain rfl : now = d := Option.some.inj hd
      exact ⟨halarm a ha, Nat.le_refl _, fun t _ ht => (Nat.le_max_right _ _).trans ht⟩
  · rw [hasEnded_iff, hphase]
    exact nofun

/-- A move of the poller is made when its time has come. -/
theorem move (h : Paced grain born now starts done p) (hnow : grain ∣ now) :
    Paced grain born now starts (done ++ (p.doneAt (.move now)).toList) (p.act (.move now)) := by
  have hm := p.moves now
  have hdone : p.doneAt (.move now) =
      if (p.publishes (.move now)).isSome || (p.fails (.move now)).isSome then some now
      else none := rfl
  rw [hdone, fails]
  generalize p.received (.move now) = r, p.publishes (.move now) = o,
    p.act (.move now) = p' at hm ⊢
  cases hm with
  | stay => simpa using h
  | @receive fetch hp hready =>
    have hstep := h.inStep
    rw [hp] at hstep
    cases hr : fetch.result with
    | error e => exact h.rest hstep.1 hstep.2 rfl rfl rfl
    | ok units =>
      simp only [Option.bind_some, Option.isSome_none, Bool.or_self, Bool.false_eq_true, if_false,
        Option.toList_none, List.append_nil]
      exact ⟨h.first, h.next, hstep, fun hend => by cases hend⟩
  | @publish delta current hp hroom =>
    have hstep := h.inStep
    rw [hp] at hstep
    exact h.rest hstep.1 hstep.2 rfl rfl rfl
  | wake hp halarm =>
    have hstep := h.inStep
    rw [hp] at hstep
    simp only [Option.bind_none, Option.isSome_none, Bool.or_self, Bool.false_eq_true, if_false,
      Option.toList_none, List.append_nil]
    refine ⟨h.first, h.next, ⟨hstep.1, fun hnil => absurd hnil hstep.2.1, fun a d ha hd => ?_⟩,
      fun hend => by cases hend⟩
    obtain ⟨ha', hd', hleast⟩ := hstep.2.2 a d ha hd
    exact ⟨⟨hnow, Nat.max_le.2 ⟨ha' ▸ halarm, hd'⟩⟩, fun t ht => hleast t ht.1 ht.2⟩
  | stop hc hp =>
    simp only [Option.bind_none, Option.isSome_none, Bool.or_self, Bool.false_eq_true, if_false,
      Option.toList_none, List.append_nil]
    have hlen := h.inStep.length
    refine ⟨h.first, h.next, ?_, fun _ => hc⟩
    show starts.length = done.length ∨ starts.length = done.length + 1
    omega

/-- Every act at a tick of the clock keeps the pace. -/
theorem act (h : Paced grain born now starts done p) (hnow : grain ∣ now) {x : Act}
    (hx : ∀ t, x.time? = some t → t = now) :
    Paced grain born now (starts ++ (p.startsAt x).toList) (done ++ (p.doneAt x).toList)
      (p.act x) := by
  have hquiet : p.startsAt x = none → p.doneAt x = none →
      Paced grain born now starts done (p.act x) →
      Paced grain born now (starts ++ (p.startsAt x).toList) (done ++ (p.doneAt x).toList)
        (p.act x) := fun hs hd h => by simpa [hs, hd] using h
  cases x with
  | begin moment fetch =>
    obtain rfl : moment = now := hx moment rfl
    have hdone : p.doneAt (.begin moment fetch) = none := rfl
    cases hw : p.wantsFetch with
    | true =>
      have hstart : p.startsAt (.begin moment fetch) = some moment := by
        rw [startsAt, Subscription.starts, if_pos hw]
        rfl
      rw [hdone, hstart, Option.toList_none, List.append_nil, Subscription.act, if_pos hw]
      exact h.begin hw fetch
    | false =>
      refine hquiet ?_ hdone ?_
      · rw [startsAt, Subscription.starts, if_neg (by simp [hw])]
        rfl
      · rw [Subscription.act, if_neg (by simp [hw])]
        exact h
  | move moment =>
    obtain rfl : moment = now := hx moment rfl
    rw [show p.startsAt (.move moment) = none from rfl, Option.toList_none, List.append_nil]
    exact h.move hnow
  | readChange =>
    refine hquiet rfl rfl (h.congr p.phase_readChange ?_ ?_ fun hc => ?_)
    · simp only [Subscription.act, readChange]
      split <;> rfl
    · simp only [Subscription.act, readChange]
      split <;> rfl
    · exact p.cancelled_readChange.trans hc
  | readError =>
    refine hquiet rfl rfl (h.congr p.phase_readError ?_ ?_ fun hc => ?_)
    · simp only [Subscription.act, readError]
      split <;> rfl
    · simp only [Subscription.act, readError]
      split <;> rfl
    · exact p.cancelled_readError.trans hc
  | cancel => exact hquiet rfl rfl (h.congr rfl rfl rfl fun _ => rfl)

/-- So does a run of such acts. -/
theorem after (h : Paced grain born now starts done p) (hnow : grain ∣ now) {xs : List Act}
    (hx : ∀ x ∈ xs, ∀ t, x.time? = some t → t = now) :
    Paced grain born now (starts ++ p.given startsAt xs) (done ++ p.given doneAt xs)
      (p.after xs) := by
  induction xs generalizing p starts done with
  | nil => simpa using h
  | cons x xs ih =>
    rw [List.forall_mem_cons] at hx
    rw [given_cons, given_cons, ← List.append_assoc, ← List.append_assoc]
    exact ih (h.act hnow hx.1) hx.2

/-- From one tick to the next the pace is kept if the poller has done all it could. -/
theorem later (h : Paced grain born now starts done p) (hnow : grain ∣ now)
    (hm : p.canMove now = false) : Paced grain born (now + grain) starts done p := by
  refine ⟨h.first, h.next, ?_, h.ended⟩
  have hstep := h.inStep
  rw [canMove_eq] at hm
  cases hp : p.phase with
  | due =>
    rw [hp] at hm
    cases hm
  | resting =>
    rw [hp] at hm hstep
    obtain ⟨hlen, hne, hlast⟩ := hstep
    refine ⟨hlen, hne, fun a d ha hd => ?_⟩
    obtain ⟨halarm, hd', -⟩ := hlast a d ha hd
    have hearly : now < p.alarm := by
      simp only [Bool.or_eq_false_iff, decide_eq_false_iff_not] at hm
      omega
    refine ⟨halarm, by omega, fun t ht hle => ?_⟩
    obtain ⟨m, rfl⟩ := hnow
    obtain ⟨n, rfl⟩ := ht
    have hlt : grain * m < grain * n := by omega
    calc grain * m + grain = grain * (m + 1) := rfl
      _ ≤ grain * n := Nat.mul_le_mul_left _ (Nat.lt_of_mul_lt_mul_left hlt)
  | fetching | publishing | ended =>
    rw [hp] at hstep
    exact hstep

/-- Where a poller has done all it could, and is not cancelled, the cycle that comes next is late for
nothing. -/
theorem next_started (h : Paced grain born now starts done p) (hm : p.canMove now = false)
    (hc : p.cancelled = false) {k a d b : Nat} (ha : starts[k]? = some a) (hd : done[k]? = some d)
    (hb : FirstTick grain (max (a + p.interval) d) b) (hle : b ≤ now) :
    starts[k + 1]? = some b := by
  have hk : k < done.length := (List.getElem?_eq_some_iff.1 hd).1
  by_cases hlast : k + 1 < starts.length
  · obtain ⟨b', hb'⟩ : ∃ b', starts[k + 1]? = some b' := ⟨_, List.getElem?_eq_getElem hlast⟩
    rw [hb', (h.next k a d b' ha hd hb').unique hb]
  · exfalso
    have hstep := h.inStep
    rw [canMove_eq] at hm
    cases hp : p.phase with
    | due =>
      rw [hp] at hm
      cases hm
    | fetching | publishing =>
      rw [hp] at hstep
      have hlen := hstep.1
      omega
    | ended =>
      rw [h.ended (hasEnded_iff.2 hp)] at hc
      cases hc
    | resting =>
      rw [hp] at hm hstep
      obtain ⟨hlen, -, hrest⟩ := hstep
      have hlast' : starts.getLast? = some a := by
        rw [List.getLast?_eq_getElem?, ← ha]
        congr 1
        omega
      have hdone : done.getLast? = some d := by
        rw [List.getLast?_eq_getElem?, ← hd]
        congr 1
        omega
      obtain ⟨halarm, -, -⟩ := hrest a d hlast' hdone
      simp only [Bool.or_eq_false_iff, decide_eq_false_iff_not] at hm
      have hle' : max (a + p.interval) d ≤ b := hb.1.2
      omega

/-- A poller that has done all it could, and is not cancelled, has started its first fetch. -/
theorem started (h : Paced grain born now starts done p) (hm : p.canMove now = false)
    (hc : p.cancelled = false) : starts.head? = some born := by
  cases starts with
  | cons a as => rw [List.head?_cons, h.first a rfl]
  | nil =>
    have hstep := h.inStep
    rw [canMove_eq] at hm
    cases hp : p.phase with
    | due =>
      rw [hp] at hm
      cases hm
    | fetching | publishing =>
      rw [hp] at hstep
      cases hstep.1
    | ended =>
      rw [h.ended (hasEnded_iff.2 hp)] at hc
      cases hc
    | resting =>
      rw [hp] at hstep
      exact absurd rfl hstep.2.1

end Paced

end Subscription

end SystemdControl
