import Mathlib.Data.List.TakeDrop
import Mathlib.Logic.Function.Basic
import SystemdControl.Proofs.Job.Dispatcher.Moves

/-!
# Extra signals

Signals strewn among those of a run, and what the run is without them. Marks say which they are;
they go the way of their signals, beside a dispatcher that does not know of them.

* `strip` leaves out what is marked;
* `Strewn` are the marks of the signals on their way and of those that calls will set off, and
  `Strewn.step` is what a step does to them;
* `Strewn.Smooth` is what is asked of a step: no signal finds the queue full, the listener handles
  an extra signal only when it can ignore it at once, and it does not have a turn for extra signals
  only when it is asked to stop;
* `Strewn.steps?` are the marks after smooth steps.
-/

namespace SystemdControl

/-! ## Marks -/

/-- Leaves out what is marked. What has no mark stays. -/
def strip {α : Type} : List Bool → List α → List α
  | true :: marks, _ :: xs => strip marks xs
  | false :: marks, x :: xs => x :: strip marks xs
  | _, xs => xs

section

variable {α : Type}

@[simp] theorem strip_nil_left (xs : List α) : strip [] xs = xs := by
  cases xs <;> rfl

@[simp] theorem strip_nil (marks : List Bool) : strip marks ([] : List α) = [] := by
  cases marks with
  | nil => rfl
  | cons mark marks => cases mark <;> rfl

theorem strip_append {marks : List Bool} {xs : List α} (h : marks.length = xs.length)
    (marks' : List Bool) (xs' : List α) :
    strip (marks ++ marks') (xs ++ xs') = strip marks xs ++ strip marks' xs' := by
  induction marks generalizing xs with
  | nil =>
    obtain rfl : xs = [] := List.length_eq_zero_iff.1 h.symm
    rw [strip_nil_left, List.nil_append, List.nil_append, List.nil_append]
  | cons mark marks ih =>
    cases xs with
    | nil => cases h
    | cons x xs =>
      have hrest := ih (Nat.succ.inj h)
      cases mark with
      | false => exact congrArg (x :: ·) hrest
      | true => exact hrest

/-- Marks beyond the end are for nothing. -/
theorem strip_append_left {marks : List Bool} {xs : List α} (h : xs.length ≤ marks.length)
    (marks' : List Bool) : strip (marks ++ marks') xs = strip marks xs := by
  induction marks generalizing xs with
  | nil =>
    obtain rfl : xs = [] := List.length_eq_zero_iff.1 (Nat.le_zero.1 h)
    rw [strip_nil, strip_nil]
  | cons mark marks ih =>
    cases xs with
    | nil => rw [strip_nil, strip_nil]
    | cons x xs =>
      have hrest := ih (Nat.le_of_succ_le_succ h)
      cases mark with
      | false => exact congrArg (x :: ·) hrest
      | true => exact hrest

/-- Missing marks may be made up for. -/
theorem strip_takeD (marks : List Bool) (xs : List α) :
    strip (marks.takeD xs.length false) xs = strip marks xs := by
  induction xs generalizing marks with
  | nil => rw [strip_nil, strip_nil]
  | cons x xs ih =>
    cases marks with
    | nil => exact congrArg (x :: ·) ((ih []).trans (strip_nil_left xs))
    | cons mark marks =>
      cases mark with
      | false => exact congrArg (x :: ·) (ih marks)
      | true => exact ih marks

theorem length_strip_le (marks : List Bool) (xs : List α) :
    (strip marks xs).length ≤ xs.length := by
  fun_induction strip marks xs with
  | case1 marks x xs ih => exact Nat.le_succ_of_le ih
  | case2 marks x xs ih => exact Nat.succ_le_succ ih
  | case3 => exact Nat.le_refl _

end

namespace Feed

variable (f : Feed)

/-- How many signals are on their way. -/
def load : Nat :=
  f.queue.length + f.stream.length

/-- A feed without the signals that are marked, those in the queue first. -/
def without (line : List Bool) : Feed :=
  { f with
    queue := strip line f.queue
    stream := strip (line.drop f.queue.length) f.stream }

variable {f} {line marks : List Bool}

theorem load_forward {signal : Signal} {rest : List Signal} (hs : f.stream = signal :: rest) :
    (f.forward signal rest).load = f.load := by
  simp only [load, forward, hs, List.length_append, List.length_cons, List.length_nil]
  omega

/-- The marks of what has passed the pump, of what comes next and of the rest. -/
theorem exists_mark (h : line.length = f.load) {signal : Signal} {rest : List Signal}
    (hs : f.stream = signal :: rest) :
    ∃ queued mark stream, line = queued ++ mark :: stream ∧ queued.length = f.queue.length := by
  have hlen : line.length = f.queue.length + (rest.length + 1) := by rw [h, load, hs]; rfl
  cases hd : line.drop f.queue.length with
  | nil =>
    have hzero : (line.drop f.queue.length).length = 0 := by rw [hd]; rfl
    rw [List.length_drop] at hzero
    omega
  | cons mark stream =>
    refine ⟨line.take f.queue.length, mark, stream, ?_, ?_⟩
    · rw [← hd, List.take_append_drop]
    · rw [List.length_take]
      omega

section

variable {queued stream : List Bool} (hq : queued.length = f.queue.length) {signal : Signal}
  {rest : List Signal} (hs : f.stream = signal :: rest)
include hq hs

/-- The pump moves an extra signal. -/
theorem without_forward_marked :
    (f.forward signal rest).without (queued ++ true :: stream) =
      f.without (queued ++ true :: stream) := by
  have hqueue : strip (queued ++ true :: stream) (f.queue ++ [signal]) =
      strip (queued ++ true :: stream) f.queue := by
    rw [strip_append hq, strip_append_left (Nat.le_of_eq hq.symm), strip, strip_nil,
      List.append_nil]
  have hstream : (queued ++ true :: stream).drop (f.queue ++ [signal]).length = stream := by
    rw [List.length_append, ← hq, ← List.drop_drop, List.drop_left]
    rfl
  unfold without forward
  rw [hqueue, hstream, hs, ← hq, List.drop_left]
  rfl

/-- The pump moves another signal. -/
theorem without_forward :
    (f.without (queued ++ false :: stream)).stream = signal :: strip stream rest ∧
      (f.forward signal rest).without (queued ++ false :: stream) =
        (f.without (queued ++ false :: stream)).forward signal (strip stream rest) := by
  have hqueue : strip (queued ++ false :: stream) (f.queue ++ [signal]) =
      strip (queued ++ false :: stream) f.queue ++ [signal] := by
    rw [strip_append hq, strip_append_left (Nat.le_of_eq hq.symm), strip, strip_nil]
  have hstream : (queued ++ false :: stream).drop (f.queue ++ [signal]).length = stream := by
    rw [List.length_append, ← hq, ← List.drop_drop, List.drop_left]
    rfl
  unfold without forward
  rw [hqueue, hstream, hs, ← hq, List.drop_left]
  exact ⟨rfl, rfl⟩

end

theorem pumping_emit (signals : List Signal) : (f.emit signals).pumping = f.pumping := by
  unfold emit
  split <;> rfl

theorem load_le_emit (signals : List Signal) : f.load ≤ (f.emit signals).load := by
  unfold emit
  split
  · refine Nat.add_le_add_left ?_ f.queue.length
    rw [List.length_append]
    exact Nat.le_add_right ..
  · exact Nat.le_refl _

theorem emit_nil : f.emit [] = f := by
  unfold emit
  rw [List.append_nil, ite_self]

/-- Signals enter the stream. -/
theorem without_emit (h : line.length = f.load) (marks : List Bool) (signals : List Signal) :
    (f.emit signals).without (line ++ marks.takeD ((f.emit signals).load - f.load) false) =
        (f.without line).emit (strip marks signals) ∧
      (line ++ marks.takeD ((f.emit signals).load - f.load) false).length =
        (f.emit signals).load := by
  have haccepts : (f.without line).accepts = f.accepts := rfl
  have hle : f.queue.length ≤ line.length := by rw [h]; exact Nat.le_add_right ..
  unfold emit
  rw [haccepts]
  split
  · have hload : f.queue.length + (f.stream ++ signals).length - f.load = signals.length := by
      rw [load, List.length_append]
      omega
    rw [show ({ f with stream := f.stream ++ signals } : Feed).load = f.queue.length +
      (f.stream ++ signals).length from rfl, hload]
    refine ⟨?_, ?_⟩
    · unfold without
      rw [strip_append_left hle, List.drop_append_of_le_length hle, strip_append, strip_takeD]
      rw [List.length_drop, h, load]
      omega
    · rw [List.length_append, List.takeD_length, h, load, List.length_append, Nat.add_assoc]
  · rw [Nat.sub_self]
    refine ⟨?_, ?_⟩
    · rw [List.takeD_zero, List.append_nil]
    · rw [List.takeD_zero, List.append_nil, h]

end Feed

/-- Which signals are extra. -/
structure Strewn where
  /-- The marks of the signals in the queue and of those in the stream. -/
  line : List Bool := []
  /-- The marks of the signals that a call sets off, by its number. -/
  before : Nat → List Bool := fun _ => []
  /-- Whether the end of a call has made pump and listener stop. -/
  finished : Bool := false

namespace Strewn

/-- The marks on their way, when signals leave the queue or enter the stream. -/
def flow (f f' : Feed) (entering line : List Bool) : List Bool :=
  line.drop (f.load - f'.load) ++ entering.takeD (f'.load - f.load) false

section

variable {f f' : Feed} (entering line : List Bool)

theorem flow_of_load_eq (h : f'.load = f.load) : flow f f' entering line = line := by
  rw [flow, h, Nat.sub_self, List.drop_zero, List.takeD_zero, List.append_nil]

theorem flow_of_load_eq_succ (h : f.load = f'.load + 1) :
    flow f f' entering line = line.tail := by
  have hmore : f.load - f'.load = 1 := by omega
  have hless : f'.load - f.load = 0 := by omega
  rw [flow, hmore, hless, List.takeD_zero, List.append_nil, List.drop_one]

theorem flow_of_load_le (h : f.load ≤ f'.load) :
    flow f f' entering line = line ++ entering.takeD (f'.load - f.load) false := by
  rw [flow, Nat.sub_eq_zero_of_le h, List.drop_zero]

end

variable (m : Strewn) (s s' : Dispatcher)

/-- The marks after a call of the interface, with those of its signals. -/
def act (marks : List Bool) : Strewn :=
  { m with
    line := flow s.feed s'.feed marks m.line
    before := Function.update m.before s.begun marks }

variable {s s'} in
/-- A call that moves no signal. -/
theorem act_of_load_eq (marks : List Bool) (h : s'.feed.load = s.feed.load) :
    m.act s s' marks = { m with before := Function.update m.before s.begun marks } := by
  rw [act, flow_of_load_eq _ _ h]

/-- The marks after a step. -/
def step : Strewn :=
  { m with
    line := flow s.feed s'.feed
      (match s.agenda.next? with
        | some (.call number) => m.before number
        | _ => [])
      m.line
    finished := m.finished || !s.stopping && s'.stopping }

end Strewn

/-! ## Smooth steps -/

namespace Dispatcher

variable (s : Dispatcher)

/-- Whether someone has nothing to do until it is asked to stop. -/
def idle : Actor → Bool
  | .pump => s.feed.pumping && !s.feed.ended && s.feed.stream.isEmpty
  | .listener => s.listener = .ready && s.feed.pumping && s.feed.queue.isEmpty
  | .call _ | .wait _ => false

/-- It is the turn of the pump, and a signal would find the queue full. -/
def overflows : Bool :=
  s.agenda.next? = some .pump && s.listener ≠ .stopped && s.feed.pumping &&
    !s.feed.stream.isEmpty && s.feed.size ≤ s.feed.queue.length

/-- The signal that the listener takes now. -/
def taking? : Option Signal :=
  match s.agenda.next?, s.listener with
  | some .listener, .ready => s.feed.queue.head?
  | _, _ => none

/-- Whether a signal changes nothing when the listener takes it: it cannot be decoded, or it is
handled at once and no registration awaits it. -/
def ignores : Signal → Bool
  | .undecodable _ => true
  | .removed event => s.gateFree && (s.table.resolve event.jobPath event.result).1 ≠ .delivered

/-- It changes nothing if its path was never registered, or has its result already. -/
theorem ignores_removed {s : Dispatcher} (hg : s.gateFree = true) {event : JobRemoved}
    (h : ∀ e ∈ s.table.entries, e.ticket.path = event.jobPath → e.slot = .resolved) :
    s.ignores (.removed event) = true := by
  refine Bool.and_eq_true_iff.2 ⟨hg, decide_eq_true fun hd => ?_⟩
  unfold JobTable.resolve at hd
  split at hd
  · cases hd
  · split at hd
    · cases hd
    · cases hd
    · rename_i hentry
      have hslot := h _ (List.mem_of_find?_eq_some hentry) (by simpa using List.find?_some hentry)
      cases hslot

end Dispatcher

namespace Strewn

variable (m : Strewn) (s s' : Dispatcher)

/-- Whether the listener would have nothing to do without the extra signals. -/
def vain : Bool :=
  { s with feed := s.feed.without m.line }.idle .listener

/-- What is asked of a step. -/
structure Smooth : Prop where
  /-- No signal is lost. -/
  room : s.overflows = false
  /-- The listener takes only such extra signals as change nothing. -/
  taken : m.line.head? = some true → s.taking?.all s.ignores = true
  /-- The listener does not have a turn for extra signals only when it is asked to stop. -/
  stop : s.stopping = false → s'.stopping = true → .listener ∈ s.agenda.toList → m.vain s = false

instance : Decidable (m.Smooth s s') :=
  decidable_of_iff (s.overflows = false ∧
      (m.line.head? = some true → s.taking?.all s.ignores = true) ∧
      (s.stopping = false → s'.stopping = true → .listener ∈ s.agenda.toList → m.vain s = false))
    ⟨fun h => ⟨h.1, h.2.1, h.2.2⟩, fun h => ⟨h.room, h.taken, h.stop⟩⟩

/-- The marks after at most `n` steps, if these are smooth. -/
def steps? (now : Nat) : Nat → Dispatcher → Strewn → Option Strewn
  | 0, _, m => some m
  | n + 1, s, m =>
    match s.step? now with
    | none => some m
    | some s' => if m.Smooth s s' then steps? now n s' (m.step s s') else none

end Strewn

end SystemdControl
