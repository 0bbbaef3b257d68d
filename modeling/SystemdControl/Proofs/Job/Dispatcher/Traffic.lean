import SystemdControl.Proofs.Job.Dispatcher.Effects
import SystemdControl.Proofs.Job.Sound
import SystemdControl.Proofs.Text.Labelled

/-!
# Signals and registrations in an act

* `Feed.Pumped` is all that a move of the pump can be;
* `Core.line` are the signals on their way: the one that the listener sits with, the queue, and the
  stream that the pump has not reached. `Core.Traffic` is all that an act can do to it
  (`Core.Effect.traffic`);
* `Core.deeds` is what can be seen to happen to the table in an act. Every live waiter belongs to
  one handle or wait, and the deeds are steps of the table (`Core.Effect.doesAll`).
-/

namespace SystemdControl

open JobTable

namespace Feed

/-- All that a move of the pump can be. -/
inductive Pumped (f : Feed) (stopping listening : Bool) : Feed → Prop
  | forward {signal : Signal} {rest : List Signal} (hs : f.stream = signal :: rest)
      (hl : listening = true) (hq : f.queue.length < f.size) :
      Pumped f stopping listening { f with stream := rest, queue := f.queue ++ [signal] }
  | lose {signal : Signal} {rest : List Signal} (hs : f.stream = signal :: rest)
      (hl : listening = true) (hq : f.size ≤ f.queue.length) :
      Pumped f stopping listening { f with stream := rest }
  | dismiss (hl : listening = false) :
      Pumped f stopping listening { f with stream := [], pumping := false }
  | finish (hs : f.stream = []) (he : f.ended = true ∨ stopping = true) :
      Pumped f stopping listening { f with pumping := false }

theorem pump?_cases {f g : Feed} {stopping listening : Bool}
    (h : f.pump? stopping listening = some g) :
    f.pumping = true ∧ f.Pumped stopping listening g := by
  unfold Feed.pump? at h
  split at h
  · cases h
  · rename_i hp
    refine ⟨by simpa using hp, ?_⟩
    split at h
    · rename_i signal rest hs
      split at h
      · rename_i hl
        cases h
        exact .dismiss (by simpa using hl)
      · rename_i hl
        replace hl : listening = true := by simpa using hl
        split at h
        · rename_i hq
          cases h
          exact .forward hs hl hq
        · rename_i hq
          cases h
          exact .lose hs hl (Nat.le_of_not_lt hq)
    · rename_i hs
      split at h
      · rename_i he
        cases h
        exact .finish hs (Bool.or_eq_true_iff.1 he)
      · cases h

end Feed

namespace Core

/-- The signal that the listener sits with. -/
def hand (c : Core) : List Signal :=
  match c.listener with
  | .seated event => [.removed event]
  | _ => []

/-- The signals that the pump has passed on and the listener is not done with. -/
def front (c : Core) : List Signal :=
  c.hand ++ c.feed.queue

/-- The signals on their way, the first one first. -/
def line (c : Core) : List Signal :=
  c.front ++ c.feed.stream

/-- How many signals the listener is done with from one state to another. -/
def passed (c c' : Core) : Nat :=
  c.front.length - c'.front.length

/-- How many signals have left the stream and not come to the listener. -/
def missed (c c' : Core) : Nat :=
  c.line.length - c'.line.length - c.passed c'

/-- The signals that have entered the stream. -/
def fresh (c c' : Core) : List Signal :=
  c'.feed.stream.drop c.feed.stream.length

/-- The event that the listener has handled. -/
def classified? (c c' : Core) : Option JobRemoved :=
  if c'.front.length < c.front.length then
    match c.front.head? with
    | some (.removed event) => some event
    | _ => none
  else none

/-- All that an act can do to the signals on their way. -/
inductive Traffic (c c' : Core) : Prop
  | stay (hf : c'.front = c.front) (hs : c'.feed.stream = c.feed.stream)
  | emit (signals : List Signal) (hf : c'.front = c.front)
    (hs : c'.feed.stream = c.feed.stream ++ signals)
  | forward (signal : Signal) (hf : c'.front = c.front ++ [signal])
    (hs : c.feed.stream = signal :: c'.feed.stream)
  /-- A signal found the queue full. -/
  | lose (signal : Signal) (hf : c'.front = c.front) (hs : c.feed.stream = signal :: c'.feed.stream)
    (hl : c.listener ≠ .stopped) (hq : c.feed.size ≤ c.feed.queue.length)
  /-- The pump ended because there was no listener any more. -/
  | dismiss (hf : c'.front = c.front) (hs : c'.feed.stream = []) (hl : c.listener = .stopped)
  | skip (error : Error) (hf : c.front = .undecodable error :: c'.front)
    (hs : c'.feed.stream = c.feed.stream)
  | classify (event : JobRemoved) (hf : c.front = .removed event :: c'.front)
    (hs : c'.feed.stream = c.feed.stream) (hu : c.underWay = none) (hu' : c'.underWay = none)
    (ht : c'.table = (c.table.resolve event.jobPath event.result).2)

variable {c c' : Core}

theorem front_of_ready (h : c.listener = .ready) : c.front = c.feed.queue := by
  rw [front, hand, h]
  rfl

theorem front_of_seated {event : JobRemoved} (h : c.listener = .seated event) :
    c.front = .removed event :: c.feed.queue := by
  rw [front, hand, h]
  rfl

theorem queue_of_take? {f g : Feed} {signal : Signal} (h : f.take? = some (signal, g)) :
    f.queue = signal :: g.queue ∧ g.stream = f.stream := by
  unfold Feed.take? at h
  split at h
  · cases h
  · rename_i hq
    cases h
    exact ⟨hq, rfl⟩

theorem emit_traffic {signals : List Signal} (hf : c'.feed = c.feed.emit signals)
    (hl : c'.listener = c.listener) : c.Traffic c' := by
  have hfront : c'.front = c.front := by rw [front, front, hand, hand, hf, hl, Feed.queue_emit]
  unfold Feed.emit at hf
  split at hf
  · exact .emit signals hfront (by rw [hf])
  · exact .stay hfront (by rw [hf])

theorem pump_traffic {stopping : Bool} {feed : Feed}
    (hf : c.feed.pump? stopping (c.listener ≠ .stopped) = some feed) :
    c.Traffic { c with feed } := by
  cases (Feed.pump?_cases hf).2 with
  | forward hs hl hq => exact .forward _ (by rw [front, front, List.append_assoc]; rfl) hs
  | lose hs hl hq => exact .lose _ rfl hs (by simpa using hl) hq
  | dismiss hl => exact .dismiss rfl rfl (by simpa using hl)
  | finish hs he => exact .stay rfl rfl

/-- Every act has one of these effects on the signals on their way. -/
theorem Effect.traffic (e : c.Effect c') : c.Traffic c' := by
  cases e with
  | issue => exact emit_traffic rfl rfl
  | emit => exact emit_traffic rfl rfl
  | pump hf => exact pump_traffic hf
  | @skip error feed hl ht =>
    obtain ⟨hq, hs⟩ := queue_of_take? ht
    have hl' : { c with feed }.listener = .ready := hl
    exact .skip error (by rw [front_of_ready hl, hq, front_of_ready hl']) hs
  | sit hl ht =>
    obtain ⟨hq, hs⟩ := queue_of_take? ht
    exact .stay (by rw [front_of_ready hl, hq, front_of_seated rfl]) hs
  | take hl hu ht =>
    obtain ⟨hq, hs⟩ := queue_of_take? ht
    exact .classify _ (by rw [front_of_ready hl, hq, front_of_ready rfl]) hs hu hu rfl
  | rise hl hu => exact .classify _ (by rw [front_of_seated hl, front_of_ready rfl]) rfl hu hu rfl
  | stop hl hq => exact .stay (by rw [front_of_ready hl]; rfl) rfl
  | _ => exact .stay rfl rfl

/-- A pump that has ended leaves nothing in the stream. -/
theorem Effect.drained (e : c.Effect c') (h : c.feed.pumping = false → c.feed.stream = []) :
    c'.feed.pumping = false → c'.feed.stream = [] := by
  have hemit : ∀ signals, (c.feed.emit signals).pumping = false →
      (c.feed.emit signals).stream = [] := fun signals hp => by
    unfold Feed.emit at hp ⊢
    split at hp
    · rename_i ha
      simp [Feed.accepts, show c.feed.pumping = false from hp] at ha
    · rename_i ha
      rw [if_neg ha]
      exact h hp
  have htake : ∀ {signal feed}, c.feed.take? = some (signal, feed) →
      feed.pumping = false → feed.stream = [] := fun {signal feed} ht hp => by
    unfold Feed.take? at ht
    split at ht <;> cases ht
    exact h hp
  cases e with
  | issue | emit => exact hemit _
  | @pump stopping feed hf =>
    intro hp
    obtain ⟨hpump, hmove⟩ := Feed.pump?_cases hf
    cases hmove with
    | forward | lose => exact absurd hpump (by simp [show c.feed.pumping = false from hp])
    | dismiss => rfl
    | finish hs => exact hs
  | skip hl ht | sit hl ht => exact htake ht
  | take hl hu ht => exact htake ht
  | _ => exact h

/-- The listener keeps its signal as long as the gate is taken. -/
theorem Effect.seated (e : c.Effect c') {event : JobRemoved} (hl : c.listener = .seated event)
    (hu : c.underWay ≠ none) : c'.listener = .seated event := by
  cases e with
  | sit hl' | stop hl' => exact absurd (hl.symm.trans hl') (by simp)
  | take _ hu' | rise _ hu' => exact absurd hu' hu
  | _ => exact hl

end Core

/-! ## Registrations -/

namespace Core

/-- The registrations that someone has a handle of or waits for. -/
def tickets (c : Core) : List Ticket :=
  c.handles.map (·.2.ticket) ++ c.waits.map (·.ticket)

/-- What can be seen to happen to the table. -/
def deeds (c c' : Core) : List Deed :=
  c.table.deedsTo c'.table ((c.classified? c').map fun event => (event.jobPath, event.result))

variable {c c' : Core}

theorem classified?_eq_none (h : c.front.length ≤ c'.front.length) : c.classified? c' = none := by
  rw [classified?, if_neg (by omega)]

theorem classified?_eq_some {event : JobRemoved} (h : c.front = .removed event :: c'.front) :
    c.classified? c' = some event := by
  rw [classified?, h, if_pos (by simp)]
  rfl

/-- An act in which the listener handles a signal. -/
theorem Effect.classify (e : c.Effect c') {event : JobRemoved}
    (h : c.classified? c' = some event) :
    c.front = .removed event :: c'.front ∧ c'.feed.stream = c.feed.stream ∧
      (c.underWay = none ∧ c'.underWay = none) ∧
      c.deeds c' = [.signalled event.jobPath event.result] := by
  cases e.traffic with
  | classify event' hf hs hu hu' ht =>
    have he := classified?_eq_some hf
    rw [h] at he
    cases he
    refine ⟨hf, hs, ⟨hu, hu'⟩, ?_⟩
    rw [deeds, h, ht]
    exact Tidy.deedsTo_resolve ..
  | skip error hf =>
    rw [classified?, hf] at h
    simp at h
  | stay hf | emit _ hf | lose _ hf | dismiss hf =>
    rw [classified?_eq_none (Nat.le_of_eq (by rw [hf]))] at h
    cases h
  | forward _ hf =>
    rw [classified?_eq_none (by simp [hf])] at h
    cases h

/-- The signals among the deeds are those that the listener handled. -/
theorem signalled_mem_deeds {path : JobPath} {result : JobResult} :
    .signalled path result ∈ c.deeds c' ↔
      ∃ event, c.classified? c' = some event ∧ event.jobPath = path ∧ event.result = result := by
  unfold deeds deedsTo
  cases c.classified? c' with
  | none => split <;> simp
  | some event => split <;> simp [eq_comm]

/-- A new waiter is among the deeds. -/
theorem registered_mem_deeds {ticket : Ticket} (h : ticket ∈ c'.table.tickets)
    (hn : ticket ∉ c.table.tickets) : .registered ticket ∈ c.deeds c' := by
  have hw : ticket ∈ without c'.table.tickets c.table.tickets :=
    List.mem_filter.2 ⟨h, by simpa using hn⟩
  simp [deeds, deedsTo, hw]

/-- The deeds of an act in which the listener handles nothing. -/
theorem doesAll_of_classified?_eq_none (hn : c.classified? c' = none)
    (h : DoesAll c.table (c.table.deedsTo c'.table none) c'.table) :
    DoesAll c.table (c.deeds c') c'.table := by
  rwa [deeds, hn]

/-- As that, and the table stays as it was. -/
theorem doesAll_of_table_eq (hn : c.classified? c' = none) (h : c'.table = c.table) :
    DoesAll c.table (c.deeds c') c'.table := by
  refine doesAll_of_classified?_eq_none hn ?_
  rw [h]
  exact Tidy.doesAll_self c.table

/-- The deed of an act in which the listener handles a signal. -/
theorem doesAll_of_front_eq_cons {event : JobRemoved} (hf : c.front = .removed event :: c'.front)
    (ht : c'.table = (c.table.resolve event.jobPath event.result).2) :
    DoesAll c.table (c.deeds c') c'.table := by
  rw [deeds, classified?_eq_some hf, ht]
  exact Tidy.doesAll_resolve c.table event.jobPath event.result

theorem handles_perm {label : String} {handle : JobHandle}
    (h : c.handles.get? label = some handle) :
    c.tickets.Perm (handle.ticket ::
      ((c.handles.remove label).map (·.2.ticket) ++ c.waits.map (·.ticket))) :=
  ((Labelled.perm_of_get? h).map _).append_right _

theorem tickets_perm (c : Core) (label : String) :
    c.tickets.Perm (((c.handles.get? label).map (·.ticket)).toList ++
      ((c.handles.remove label).map (·.2.ticket) ++ c.waits.map (·.ticket))) := by
  cases h : c.handles.get? label with
  | none =>
    rw [Labelled.remove_of_get?_eq_none h]
    exact .refl _
  | some handle => exact handles_perm h

theorem waits_perm {w : Wait} (h : w ∈ c.waits) :
    c.tickets.Perm (w.ticket ::
      (c.handles.map (·.2.ticket) ++ (c.waits.erase w).map (·.ticket))) :=
  (((List.perm_cons_erase h).map _).append_left _).trans List.perm_middle

theorem queue_length_le_of_pump? {f g : Feed} {stopping listening : Bool}
    (h : f.pump? stopping listening = some g) : f.queue.length ≤ g.queue.length := by
  cases (Feed.pump?_cases h).2 with
  | forward => simp
  | lose | dismiss | finish => exact Nat.le_refl _

/-- Every act leaves each live waiter to one handle or wait, and its deeds are steps of the
table. -/
theorem Effect.doesAll (e : c.Effect c') (h : Holds c.table c.tickets) :
    Holds c'.table c'.tickets ∧ DoesAll c.table (c.deeds c') c'.table := by
  have hsame : c'.front = c.front → c.classified? c' = none :=
    fun hf => classified?_eq_none (Nat.le_of_eq (by rw [hf]))
  cases e with
  | stay | answer | giveUp | finish => exact ⟨h, doesAll_of_table_eq (hsame rfl) rfl⟩
  | issue | emit =>
    exact ⟨h, doesAll_of_table_eq (classified?_eq_none (by simp [front, hand])) rfl⟩
  | pump hf =>
    refine ⟨h, doesAll_of_table_eq (classified?_eq_none ?_) rfl⟩
    simpa [front, hand] using queue_length_le_of_pump? hf
  | @skip error feed hl ht =>
    refine ⟨h, doesAll_of_table_eq ?_ rfl⟩
    simp [classified?, front_of_ready hl, (queue_of_take? ht).1]
  | sit hl ht =>
    refine ⟨h, doesAll_of_table_eq (hsame ?_) rfl⟩
    rw [front_of_ready hl, front_of_seated rfl, (queue_of_take? ht).1]
  | register hu label unit path ho =>
    have hh := h.congr (c.tickets_perm label)
    have hset := ((Labelled.set_perm c.handles label
      ⟨unit, ⟨path, c.table.registered⟩⟩).map (·.2.ticket)).append_right (c.waits.map (·.ticket))
    have he : ∀ t : JobTable, ((c.handles.get? label).elim t fun old => t.drop old.ticket) =
        ((c.handles.get? label).map (·.ticket)).elim t t.drop := fun t => by
      cases c.handles.get? label <;> rfl
    rw [he]
    exact ⟨(((hh.register path ho).congr List.perm_middle.symm).drop?).congr hset.symm,
      doesAll_of_classified?_eq_none (hsame rfl) (hh.doesAll_register_drop? path ho)⟩
  | await hg ht =>
    refine ⟨h.congr ((handles_perm hg).trans ?_), doesAll_of_table_eq (hsame rfl) rfl⟩
    simp only [tickets, List.map_append, List.map_cons, List.map_nil, ht]
    rw [← List.append_assoc]
    exact (List.perm_append_singleton _ _).symm
  | discard hg =>
    have hh := h.congr (handles_perm hg)
    exact ⟨hh.drop, doesAll_of_classified?_eq_none (hsame rfl)
      (hh.toTidy.doesAll_drop (hh.mem_tickets List.mem_cons_self))⟩
  | leave hw =>
    have hh := h.congr (waits_perm hw)
    exact ⟨hh.drop, doesAll_of_classified?_eq_none (hsame rfl)
      (hh.toTidy.doesAll_drop (hh.mem_tickets List.mem_cons_self))⟩
  | take hl hu ht =>
    refine ⟨h.resolve _ _, doesAll_of_front_eq_cons ?_ rfl⟩
    rw [front_of_ready hl, front_of_ready rfl, (queue_of_take? ht).1]
  | rise hl hu =>
    refine ⟨h.resolve _ _, doesAll_of_front_eq_cons ?_ rfl⟩
    rw [front_of_seated hl, front_of_ready rfl]
  | stop hl hq =>
    refine ⟨h.close, doesAll_of_classified?_eq_none (hsame ?_) h.toTidy.doesAll_close⟩
    rw [front_of_ready hl]
    rfl

end Core

end SystemdControl
