import SystemdControl.Job.Result

/-!
# The feed of signals

Signals on their way from the manager to the listener. The pump takes them from an unbounded
stream and puts them into a queue of bounded size; it never waits for the listener, so a signal
that finds the queue full is lost.

* `Feed.emit` is the manager's end, `Feed.pump?` one move of the pump, `Feed.take?` the
  listener's end;
* `Feed.pump?_length` bounds the queue.
-/

namespace SystemdControl

/-- Signals between the manager and the listener. -/
structure Feed where
  /-- The size that was asked for. -/
  capacity : Nat
  /-- Signals that the pump has not reached. -/
  stream : List Signal := []
  /-- Whether the manager's end of the stream is gone. -/
  ended : Bool := false
  /-- Whether the pump is running. -/
  pumping : Bool := true
  /-- Signals that the listener has not taken. -/
  queue : List Signal := []

namespace Feed

variable (f : Feed)

/-- The size of the queue: it has room for one signal at least. -/
def size : Nat :=
  max f.capacity 1

/-- Whether an emitted signal enters the stream. -/
def accepts : Bool :=
  !f.ended && f.pumping

/-- Puts signals into the stream; without effect once either end of it is gone. -/
def emit (signals : List Signal) : Feed :=
  if f.accepts then { f with stream := f.stream ++ signals } else f

/-- Ends the stream behind the signals that are in it. -/
def finish : Feed :=
  { f with ended := true }

/-- One move of the pump: a signal into the queue, or past it if it is full. The pump ends at the
end of the stream, or with nothing left in it when it shall stop, or with a signal for which there
is no listener any more. -/
def pump? (stopping listening : Bool) : Option Feed :=
  if !f.pumping then none
  else
    match f.stream with
    | signal :: rest =>
      if !listening then some { f with stream := [], pumping := false }
      else if f.queue.length < f.size then
        some { f with stream := rest, queue := f.queue ++ [signal] }
      else some { f with stream := rest }
    | [] => if f.ended || stopping then some { f with pumping := false } else none

/-- The next signal of the queue. -/
def take? : Option (Signal × Feed) :=
  match f.queue with
  | [] => none
  | signal :: rest => some (signal, { f with queue := rest })

variable {f}

@[simp] theorem size_emit (signals : List Signal) : (f.emit signals).size = f.size := by
  unfold emit
  split <;> rfl

@[simp] theorem queue_emit (signals : List Signal) : (f.emit signals).queue = f.queue := by
  unfold emit
  split <;> rfl

/-- A pump never leaves more in the queue than its size, if there was not more before. -/
theorem pump?_length {g : Feed} {stopping listening : Bool}
    (h : f.pump? stopping listening = some g) (hf : f.queue.length ≤ f.size) :
    g.queue.length ≤ g.size ∧ g.size = f.size := by
  unfold pump? at h
  split at h
  · cases h
  · split at h
    · split at h
      · cases h
        exact ⟨hf, rfl⟩
      · split at h <;> cases h
        · rename_i hlt
          refine ⟨?_, rfl⟩
          simp only [List.length_append, List.length_singleton, size] at hlt ⊢
          omega
        · exact ⟨hf, rfl⟩
    · split at h
      · cases h
        exact ⟨hf, rfl⟩
      · cases h

end Feed

end SystemdControl
