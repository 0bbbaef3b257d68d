import SystemdControl.Proofs.Watch.Changes

/-!
# Listings under way

A caller that lists once waits for the manager alone. Pollers and readers leave listings alone, and
a listing goes on until its answer is there or its caller abandons it.

* `Inventory.listing_settle`: after settling those listings are left whose answers are not there.
-/

namespace SystemdControl.Inventory

variable {s s' : Inventory}

section
variable (s : Inventory)

@[simp] theorem listing_fetch (now : Nat) : (s.fetch now).2.listing = s.listing := by
  unfold fetch
  split <;> rfl

@[simp] theorem listing_callReader (k : Nat) : (s.callReader k).listing = s.listing := by
  unfold callReader
  split <;> rfl

@[simp] theorem listing_cancel (k : Nat) : (s.cancel k).listing = s.listing := by
  unfold cancel
  split <;> rfl

@[simp] theorem listing_cancelIfUnwanted (k : Nat) :
    (s.cancelIfUnwanted k).listing = s.listing := by
  unfold cancelIfUnwanted
  split
  · rfl
  · exact listing_cancel s k

@[simp] theorem listing_leaveLine (reader : Reader) : (s.leaveLine reader).listing = s.listing := by
  simp only [leaveLine, listing_cancelIfUnwanted]
  split
  · exact listing_callReader _ _
  · rfl

@[simp] theorem listing_callFor (k : Nat) (p p' : Subscription) :
    (s.callFor k p p').listing = s.listing := by
  unfold callFor
  split <;> split <;> first | rfl | exact listing_callReader s k

end

theorem Reads.listing {k : Nat} {kind : StreamKind} {item : StreamItem}
    (h : s.Reads k kind item s') : s'.listing = s.listing := by
  cases h with
  | change => split <;> rfl
  | error | pending | ended => rfl

theorem listing_move? {now : Nat} {watcher : Watcher} (h : s.move? now watcher = some s') :
    s'.listing = s.listing := by
  cases watcher with
  | poller k =>
    cases pollerMoves h with
    | begin => exact listing_fetch s now
    | move => exact listing_callFor _ _ _ _
  | reader number =>
    obtain ⟨reader, item, s₁, -, hreads, -, rfl⟩ := moveReader?_eq_some h
    exact (listing_leaveLine s₁ reader).trans hreads.listing

theorem listing_pause (s : Inventory) (watcher : Watcher) :
    (s.pause watcher).listing = s.listing := by
  have h := s.pauses watcher
  generalize s.pause watcher = s' at h ⊢
  cases h <;> rfl

theorem listing_steps (now n : Nat) (s : Inventory) : (steps now n s).listing = s.listing := by
  induction n generalizing s with
  | zero => rfl
  | succ n ih =>
    unfold steps
    split
    · rfl
    · rename_i s' h
      obtain ⟨watcher, -, rfl⟩ := Option.map_eq_some_iff.1 h
      rw [ih]
      cases hm : s.move? now watcher with
      | none => exact listing_pause s watcher
      | some s' => exact listing_move? hm

/-- Those listings are left whose answers are not there. -/
theorem listing_settle (now : Nat) (s : Inventory) :
    (s.settle now).listing = s.listing.filter fun e => !decide (e.2.ready ≤ now) := by
  rw [settle, listing_steps, alarm, List.partition_eq_filter_filter]
  rfl

end SystemdControl.Inventory
