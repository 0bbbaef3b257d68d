/-!
# Waiting rooms

Those who wait for the gate sit at numbered places. A newcomer takes the place that was given up
last, or a new one at the end if none is free. When the gate becomes free the one at the lowest
place is called to it. Who is called and finds the gate taken again goes on waiting at its place.

* `Room.enter` and `Room.leave` take a place and give it up;
* `Room.callFirst` calls the one at the lowest place, `Room.uncall` says that it came too late.
-/

namespace SystemdControl

/-- Someone at a place. -/
structure Seat (α : Type) where
  place : Nat
  guest : α
  /-- Whether it was called and has not found the gate taken since. -/
  called : Bool
  deriving DecidableEq

/-- Those who wait for the gate. -/
structure Room (α : Type) where
  /-- The places that are taken, in their order. -/
  seats : List (Seat α) := []
  /-- The places that were given up, the last one first. -/
  free : List Nat := []

namespace Room

variable {α : Type} (r : Room α)

/-- Those who wait, by their places. -/
def guests : List α :=
  r.seats.map (·.guest)

/-- The place of the next newcomer. -/
def nextPlace : Nat :=
  r.free.head?.getD r.seats.length

/-- Someone comes in. -/
def enter (guest : α) (called : Bool) : Room α :=
  { seats :=
      r.seats.takeWhile (·.place < r.nextPlace) ++
        ⟨r.nextPlace, guest, called⟩ :: r.seats.dropWhile (·.place < r.nextPlace)
    free := r.free.tail }

/-- Calls the one at the lowest place, if it was not called already. -/
def callFirst : Option α × Room α :=
  match r.seats with
  | ⟨place, guest, false⟩ :: rest =>
    (some guest, { r with seats := ⟨place, guest, true⟩ :: rest })
  | _ => (none, r)

variable [DecidableEq α]

/-- The seat of someone who waits. -/
def seat? (guest : α) : Option (Seat α) :=
  r.seats.find? (·.guest = guest)

/-- Someone gives its place up. -/
def leave (guest : α) : Room α :=
  match r.seat? guest with
  | none => r
  | some seat => { seats := r.seats.erase seat, free := seat.place :: r.free }

/-- Someone who was called found the gate taken. -/
def uncall (guest : α) : Room α :=
  { r with seats := r.seats.map fun s => if s.guest = guest then { s with called := false } else s }

omit [DecidableEq α] in
theorem guests_enter_perm (guest : α) (called : Bool) :
    (r.enter guest called).guests.Perm (guest :: r.guests) := by
  have h : r.guests = (r.seats.takeWhile (·.place < r.nextPlace)).map (·.guest) ++
      (r.seats.dropWhile (·.place < r.nextPlace)).map (·.guest) := by
    rw [← List.map_append, List.takeWhile_append_dropWhile, guests]
  rw [h]
  simp only [enter, guests, List.map_append, List.map_cons]
  exact List.perm_middle

omit [DecidableEq α] in
theorem mem_guests_enter {guest x : α} {called : Bool} :
    x ∈ (r.enter guest called).guests ↔ x = guest ∨ x ∈ r.guests := by
  rw [(r.guests_enter_perm guest called).mem_iff, List.mem_cons]

theorem guests_leave (guest : α) : (r.leave guest).guests = r.guests.erase guest := by
  have hseats : ∀ seats : List (Seat α),
      ((seats.find? (·.guest = guest)).elim seats seats.erase).map (·.guest) =
        (seats.map (·.guest)).erase guest := by
    intro seats
    induction seats with
    | nil => rfl
    | cons s seats ih =>
      by_cases h : s.guest = guest
      · simp [h]
      · rw [List.find?_cons_of_neg (by simpa using h), List.map_cons,
          List.erase_cons_tail (by simpa using h), ← ih]
        cases hf : seats.find? (·.guest = guest) with
        | none => rfl
        | some seat =>
          have hseat : seat.guest = guest := by simpa using List.find?_some hf
          have hne : ¬ (s == seat) = true := by
            rw [beq_iff_eq]
            rintro rfl
            exact h hseat
          rw [Option.elim_some, Option.elim_some, List.erase_cons_tail hne, List.map_cons]
  rw [guests, guests, ← hseats, leave, seat?]
  split <;> rename_i hf <;> rw [hf] <;> rfl

omit [DecidableEq α] in
@[simp] theorem guests_callFirst : r.callFirst.2.guests = r.guests := by
  unfold callFirst
  split
  · rename_i h
    simp [guests, h]
  · rfl

@[simp] theorem guests_uncall (guest : α) : (r.uncall guest).guests = r.guests := by
  simp only [guests, uncall, List.map_map]
  refine List.map_congr_left fun s _ => ?_
  simp only [Function.comp]
  split <;> rfl

end Room

end SystemdControl
