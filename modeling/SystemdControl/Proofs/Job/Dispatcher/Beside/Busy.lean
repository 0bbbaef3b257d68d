import SystemdControl.Proofs.Job.Dispatcher.Errands
import SystemdControl.Proofs.Job.Dispatcher.Stopping
import SystemdControl.Proofs.Job.Dispatcher.Tidings

/-!
# Who has something to do

Not everyone who has a turn has something to do in it. Where the listener has stopped signals do not
matter any more; and once the end of the last call has made pump and listener stop, no call sets off
a signal, so it does not matter then when an idle pump ends.

* `Dispatcher.busy` are those who have something to do;
* `Dispatcher.busy_of_move?`: whoever can go on has, except for a pump that may end now or later;
* `Dispatcher.Lively` is a state in which everybody has a turn who has to have one, when it comes to
  it, and has something to do then. It stays so (`Dispatcher.Lively.step?`).
-/

namespace SystemdControl

namespace Dispatcher

variable {s t s' t' : Dispatcher} {now : Nat}

/-- Whether someone has something to do. Where the listener has stopped signals do not matter, and
when all is over it does not matter when the pump ends. -/
def busy (s : Dispatcher) (finished : Bool) : Actor → Bool
  | .pump =>
    s.listener ≠ .stopped && s.feed.pumping && (s.stopping && !finished || !s.idle .pump)
  | .listener => s.listener ≠ .stopped && (s.stopping || !s.idle .listener)
  | .call _ | .wait _ => true

variable {finished : Bool}

/-- It depends on the listener, on the feed, and on whether they were asked to stop. -/
theorem busy_congr (hl : s'.listener = s.listener) (hf : s'.feed = s.feed)
    (hs : s'.stopping = s.stopping) : s'.busy finished = s.busy finished := by
  funext actor
  cases actor <;> simp only [busy, idle, hl, hf, hs]

theorem busy_pump_iff : s.busy finished .pump = true ↔
    s.listener ≠ .stopped ∧ s.feed.pumping = true ∧
      (s.feed.stream ≠ [] ∨ s.feed.ended = true ∨ s.stopping = true ∧ finished = false) := by
  simp only [busy, idle, Bool.and_eq_true, Bool.or_eq_true, Bool.not_eq_true',
    Bool.and_eq_false_iff, Bool.not_eq_false', decide_eq_true_eq, List.isEmpty_eq_false_iff]
  cases s.feed.pumping <;> simp
  tauto

theorem able_of_busy_pump (now : Nat) (h : s.busy finished .pump = true) : s.Able now .pump := by
  obtain ⟨-, hp, hwhy⟩ := busy_pump_iff.1 h
  exact ⟨hp, hwhy.imp_right fun hwhy => hwhy.imp_right And.left⟩

theorem busy_listener_iff (now : Nat) :
    s.busy finished .listener = true ↔ s.listener.isSeated = true ∨ s.Able now .listener := by
  simp only [busy, idle, Able, Bool.and_eq_true, Bool.or_eq_true, Bool.not_eq_true',
    Bool.and_eq_false_iff, decide_eq_true_eq, List.isEmpty_eq_false_iff]
  cases s.listener <;> simp [Listener.isSeated]
  tauto

/-- Where the listener has stopped the feed does not matter. -/
theorem busy_congr_of_stopped {finished' : Bool} (hl : s.listener = .stopped)
    (hl' : s'.listener = .stopped) : s'.busy finished' = s.busy finished := by
  funext actor
  cases actor <;> simp [busy, hl, hl']

/-- The pump ends. -/
def endPump (s : Dispatcher) : Dispatcher :=
  ({ s with feed := { s.feed with pumping := false } } : Dispatcher).rouseListener

/-- A listener that has been asked to stop has a turn already. -/
theorem Steady.endPump_eq (h : Steady now s) (hstop : s.stopping = true) :
    s.endPump = { s with feed := { s.feed with pumping := false } } := by
  unfold endPump rouseListener
  split
  · rename_i hready
    have hmem : .listener ∈ s.agenda.toList :=
      h.attended .listener (.inl ⟨hready, .inr (.inl hstop)⟩)
    unfold rouse
    rw [show ({ s with feed := { s.feed with pumping := false } } : Dispatcher).agenda = s.agenda
      from rfl, Agenda.rouse_of_mem hmem]
  · rfl

/-- Who can go on has something to do, except for a pump that may end now or later. -/
theorem busy_of_move? {actor : Actor} (hl : s.listener ≠ .stopped)
    (hm : s.move? now actor = some s') : s.busy finished actor = true ∨
      actor = .pump ∧ finished = true ∧ s.feed.pumping = true ∧ s.feed.stream = [] ∧
        s.feed.ended = false ∧ s.stopping = true ∧ s' = s.endPump := by
  cases actor with
  | pump =>
    obtain ⟨feed, hf, rfl⟩ := Option.map_eq_some_iff.1 hm
    obtain ⟨hp, hcases⟩ := Feed.pump?_cases hf
    cases hcases with
    | forward hs | lose hs => exact .inl (busy_pump_iff.2 ⟨hl, hp, .inl (by simp [hs])⟩)
    | dismiss hd => simp [hl] at hd
    | finish hs he =>
      by_cases hend : s.feed.ended = true
      · exact .inl (busy_pump_iff.2 ⟨hl, hp, .inr (.inl hend)⟩)
      · have hstop := he.resolve_left hend
        cases hfin : finished with
        | false => exact .inl (busy_pump_iff.2 ⟨hl, hp, .inr (.inr ⟨hstop, rfl⟩)⟩)
        | true => exact .inr ⟨rfl, rfl, hp, hs, by simpa using hend, hstop, rfl⟩
  | listener =>
    refine .inl ((busy_listener_iff now).2 ?_)
    have hqueue : ∀ {signal : Signal} {feed : Feed},
        s.feed.take? = some (signal, feed) → s.feed.queue ≠ [] := fun ht hq => by
      simp [Feed.take?, hq] at ht
    cases moveListener?_cases hm with
    | skip hl ht | take hl _ ht | sit hl _ ht => exact .inr ⟨hl, .inl (hqueue ht)⟩
    | rise hl =>
      rw [hl]
      exact .inl rfl
    | stop hl _ hs => exact .inr ⟨hl, .inr hs⟩
  | call | wait => exact .inl rfl

/-- Where the listener has stopped only the pump can go on of the two, and it rouses nobody. -/
theorem eq_of_move?_stopped {actor : Actor} (hl : s.listener = .stopped)
    (hm : s.move? now actor = some s') (ha : s.busy finished actor = false) :
    ∃ feed, s' = { s with feed } := by
  cases actor with
  | pump =>
    obtain ⟨feed, -, rfl⟩ := Option.map_eq_some_iff.1 hm
    refine ⟨feed, ?_⟩
    unfold rouseListener
    simp only [hl]
  | listener =>
    rw [move?, moveListener?, hl] at hm
    cases hm
  | call | wait => cases ha

/-- A listener that has stopped does not start again. -/
theorem stopped_step? (hs : s.step? now = some s') (hl : s.listener = .stopped) :
    s'.listener = .stopped := by
  obtain ⟨actor, -, ⟨hm, -⟩ | ⟨-, rfl⟩⟩ := step?_cases hs
  · cases actor with
    | pump =>
      obtain ⟨feed, -, rfl⟩ := Option.map_eq_some_iff.1 hm
      exact (apart_rouseListener _).listener.trans hl
    | listener =>
      rw [move?, moveListener?, hl] at hm
      cases hm
    | call number => exact (apart_moveCall? hm).listener.trans hl
    | wait ticket => exact (apart_moveWait? hm).listener.trans hl
  · exact hl

/-- Of those who wait for the gate everybody has something to do. -/
theorem Steady.busy_of_mem_guests (h : Steady now s) {party : Party} (hp : party ∈ s.room.guests) :
    s.busy finished party.actor = true := by
  cases party with
  | call => rfl
  | listener => exact (busy_listener_iff now).2 (.inl (h.distinct.listener_mem_iff.1 hp))

/-- The turn of someone who does not wait for the gate is over. -/
theorem pause_eq {actor : Actor} (h : ∀ party ∈ s.room.guests, party.actor ≠ actor) :
    s.pause actor = { s with agenda := s.agenda.dismiss } := by
  have hfind : s.room.guests.find? (·.actor = actor) = none :=
    List.find?_eq_none.2 fun party hp => by simpa using h party hp
  unfold pause
  rw [hfind]

theorem step?_eq {actor : Actor} (h : s.agenda.next? = some actor) :
    s.step? now = some ((s.move? now actor).getD (s.pause actor)) := by
  rw [step?, h, Option.map_some]

/-- A signal changes nothing that no registration awaits, if nobody holds the gate. -/
theorem handle_eq_self {event : JobRemoved} {feed : Feed} (hl : s.listener = .ready)
    (h : s.Served) (hu : s.underWay = none)
    (hr : (s.table.resolve event.jobPath event.result).1 ≠ .delivered) :
    ({ s with feed } : Dispatcher).handle event = { s with feed } := by
  have hself : ({ s with
      feed
      table := (s.table.resolve event.jobPath event.result).2
      listener := .ready } : Dispatcher) = { s with feed } := by
    rw [JobTable.resolve_of_not_delivered hr, ← hl]
  have hserved : ({ s with feed } : Dispatcher).Served := h
  unfold handle
  dsimp only
  rw [rouseAnswered_of_ne _ hr, hself, openGate_eq_self hserved hu]

/-- Everybody has a turn who has to have one, when it comes to it, and has something to do then. -/
structure Lively (now : Nat) (s : Dispatcher) : Prop extends Steady now s, Ordered s where
  purposeful : s.Purposeful

theorem Lively.step? (h : Lively now s) (hs : s.step? now = some s') : Lively now s' :=
  { h.toSteady.step? hs, h.toOrdered.step? h.toSteady hs with
    purposeful := h.purposeful.step? h.toSteady hs }

/-- In the turn of a call the pump has no turn. -/
theorem Lively.pump_not_mem (h : Lively now s) {call : Call} (hm : .call call ∈ s.room.guests)
    (hnext : s.agenda.next? = some (.call call.number)) : .pump ∉ s.agenda.toList := fun hp =>
  h.calls call hm (Agenda.before_of_next? hnext hp nofun)
end Dispatcher

end SystemdControl
