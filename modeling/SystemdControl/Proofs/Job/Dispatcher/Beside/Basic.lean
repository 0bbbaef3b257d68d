import SystemdControl.Proofs.Job.Dispatcher.Beside.Busy
import SystemdControl.Proofs.Job.Dispatcher.Twins

/-!
# Beside a dispatcher without the extra signals

Two dispatchers of which the second one has extra signals to move. Those who have something to do in
both have their turns in the same order, so each goes on as the other does; in between the second
one moves an extra signal, or ends a turn in which there was nothing else to do.

* `Dispatcher.Beside` are two such states;
* `Strewn.Ending` says what the end of the last call means, and that it lasts;
* `Beside.left`, `Beside.right_pause`, `Beside.right_stopped` and `Beside.right_endPump` are turns
  of one of them in which there was nothing to do;
* `Beside.right_forward` and `Beside.right_take` are what the second one does with extra signals.
-/

namespace SystemdControl

namespace Dispatcher

variable {m : Strewn} {s t s' t' : Dispatcher} {now : Nat}

/-- The second state has extra signals to move in addition. Those who have something to do in the
first one have their turns in the same order. -/
structure Beside (m : Strewn) (s t : Dispatcher) : Prop where
  twins : Twins m.before (s.busy m.finished) s t
  feed : s.listener ≠ .stopped →
    s.feed = { t.feed.without m.line with pumping := s.feed.pumping } ∧ m.line.length = t.feed.load
  /-- One pump may have ended before the other one, with nothing left to move. -/
  pumping : s.listener ≠ .stopped → s.feed.pumping = t.feed.pumping ∨
    m.finished = true ∧ s.feed.stream = [] ∧ s.feed.ended = false

/-- The first feed is the second one without the signals that are marked. -/
theorem Beside.of_feed_eq (htwins : Twins m.before (s.busy m.finished) s t)
    (hf : s.listener ≠ .stopped →
      s.feed = t.feed.without m.line ∧ m.line.length = t.feed.load) : Beside m s t where
  twins := htwins
  feed hl := by
    obtain ⟨hfeed, hlength⟩ := hf hl
    refine ⟨?_, hlength⟩
    rw [hfeed]
  pumping hl := .inl (by rw [(hf hl).1]; rfl)

end Dispatcher

namespace Strewn

open Dispatcher

variable {m : Strewn} {s t t' : Dispatcher}

theorem step_of_load_eq (h : t'.feed.load = t.feed.load) :
    m.step t t' = { m with finished := (m.step t t').finished } := by
  rw [step, flow_of_load_eq _ _ h]

theorem finished_step (h : t'.stopping = t.stopping) : (m.step t t').finished = m.finished := by
  rw [step, h]
  cases t.stopping <;> simp

theorem step_of_keeps (hf : t'.feed.load = t.feed.load) (hs : t'.stopping = t.stopping) :
    m.step t t' = m := by
  rw [step_of_load_eq hf, finished_step hs]

theorem step_of_load_eq_succ (hf : t.feed.load = t'.feed.load + 1)
    (hs : t'.stopping = t.stopping) : m.step t t' = { m with line := m.line.tail } := by
  have hfin := finished_step (m := m) hs
  rw [step] at hfin ⊢
  rw [flow_of_load_eq_succ _ _ hf]
  exact congrArg (fun finished => { m with line := m.line.tail, finished }) hfin

/-- When the end of a call has made pump and listener stop, nobody can make a call any more, or the
listener has stopped already. -/
def Ending (m : Strewn) (t : Dispatcher) : Prop :=
  m.finished = true → t.listener = .stopped ∨ t.stopping = true ∧ t.abandoned = true

/-- It is so from then on. -/
theorem Ending.step {now : Nat} (h : m.Ending t) (hs : t.step? now = some t') :
    (m.step t t').Ending t' := by
  have hcoasts := step?_coasts hs
  intro hfin
  by_cases hfin' : m.finished = true
  · exact (h hfin').imp (stopped_step? hs) fun ⟨hstop, ha⟩ =>
      ⟨hcoasts.stays_stopping hstop, hcoasts.stays_abandoned ha⟩
  · have hnew : t.stopping = false ∧ t'.stopping = true := by
      rw [Bool.not_eq_true] at hfin'
      rw [Strewn.step, hfin'] at hfin
      simpa using hfin
    refine .inr ⟨hnew.2, (hcoasts.stopping hnew.2).resolve_left fun hstop => ?_⟩
    rw [hnew.1] at hstop
    cases hstop

/-- Nobody makes a call when it is over. -/
theorem Ending.finished_eq_false (h : m.Ending t) (hl : t.listener ≠ .stopped) {call : Call}
    (hc : .call call ∈ t.room.guests) : m.finished = false :=
  Bool.eq_false_iff.2 fun hfin =>
    nomatch ((h hfin).resolve_left hl).2.symm.trans (not_abandoned_of_call hc)

end Strewn

namespace Dispatcher

namespace Beside

variable {m : Strewn} {s t s' t' : Dispatcher} {now : Nat}

section

variable (h : Beside m s t)
include h

/-- Until the end of the last call both pumps end together. -/
theorem pumping_eq (hl : s.listener ≠ .stopped) (ho : m.finished = false) :
    s.feed.pumping = t.feed.pumping :=
  (h.pumping hl).resolve_right fun ⟨hfin, _⟩ => nomatch ho.symm.trans hfin

theorem feed_eq (hl : s.listener ≠ .stopped) (ho : m.finished = false) :
    s.feed = t.feed.without m.line := by
  have hfeed := (h.feed hl).1
  rwa [h.pumping_eq hl ho] at hfeed

/-- If the listener has nothing to do in the first state it would have nothing to do in the second
one. -/
theorem vain_eq (hl : s.listener ≠ .stopped) (ho : m.finished = false) :
    m.vain t = s.idle .listener := by
  rw [Strewn.vain, ← h.feed_eq hl ho]
  simp only [idle, h.twins.listener_eq]

/-- Both have moved, but no signal. -/
theorem of_twins (htwins : Twins m.before (s'.busy (m.step t t').finished) s' t')
    (hl : s'.listener = s.listener) (hf : s'.feed = s.feed) (hf' : t'.feed = t.feed) :
    Beside (m.step t t') s' t' := by
  rw [Strewn.step_of_load_eq (by rw [hf'])]
  refine ⟨htwins, fun hl' => ?_, fun hl' => ?_⟩
  · rw [hf, hf']
    exact h.feed (hl ▸ hl')
  · rw [hf, hf']
    refine (h.pumping (hl ▸ hl')).imp_right (And.imp_left fun hfin => ?_)
    show (m.finished || _) = true
    rw [hfin, Bool.true_or]

/-- Both have moved, but no signal, and nobody was asked to stop. -/
theorem of_twins_same (htwins : Twins m.before (s.busy m.finished) s' t')
    (hl : s'.listener = s.listener) (hf : s'.feed = s.feed) (hf' : t'.feed = t.feed)
    (hs : s'.stopping = s.stopping) (hs' : t'.stopping = t.stopping) :
    Beside (m.step t t') s' t' := by
  refine h.of_twins ?_ hl hf hf'
  rw [busy_congr hl hf hs, Strewn.finished_step hs']
  exact htwins

/-! ### Turns in which there is nothing to do -/

/-- The pump of the first one ends, when all is over. -/
theorem left_endPump (hs : Steady now s) (hl : s.listener ≠ .stopped) (hfin : m.finished = true)
    (hstream : s.feed.stream = []) (hended : s.feed.ended = false) (hstop : s.stopping = true) :
    Beside m s.endPump t := by
  rw [hs.endPump_eq hstop]
  have hbusy : ({ s with feed := { s.feed with pumping := false } } : Dispatcher).busy m.finished =
      s.busy m.finished := by
    funext actor
    cases actor with
    | pump => simp [busy, idle, hfin, hstream, hended]
    | listener => simp [busy, hstop]
    | call | wait => rfl
  refine ⟨?_, fun _ => ?_, fun _ => .inr ⟨hfin, hstream, hended⟩⟩
  · rw [hbusy]
    exact h.twins.withFeed _ t.feed
  · obtain ⟨hfeed, hlength⟩ := h.feed hl
    refine ⟨?_, hlength⟩
    rw [hfeed]

/-- The first one has such a turn. -/
theorem left (hs : Steady now s) {actor : Actor} (hnext : s.agenda.next? = some actor)
    (hb : s.busy m.finished actor = false) : ∃ s', s.step? now = some s' ∧ Beside m s' t := by
  refine ⟨_, step?_eq hnext, ?_⟩
  cases hm : s.move? now actor with
  | none =>
    have hroom : ∀ party ∈ s.room.guests, party.actor ≠ actor := fun party hp he => by
      rw [← he, hs.busy_of_mem_guests hp] at hb
      cases hb
    have ha := h.twins.agenda_eq
    rw [Agenda.toList_eq_cons hnext, List.filter_cons_of_neg (by simp [hb])] at ha
    rw [Option.getD_none, pause_eq hroom]
    exact ⟨h.twins.withAgenda s.feed t.feed ha, h.feed, h.pumping⟩
  | some s' =>
    rw [Option.getD_some]
    by_cases hl : s.listener = .stopped
    · obtain ⟨feed, rfl⟩ := eq_of_move?_stopped hl hm hb
      refine ⟨?_, fun hl' => absurd hl hl', fun hl' => absurd hl hl'⟩
      rw [show ({ s with feed } : Dispatcher).busy m.finished = s.busy m.finished from
        busy_congr_of_stopped hl hl]
      exact h.twins.withFeed feed t.feed
    · rcases busy_of_move? hl hm with hb' | ⟨-, hfin, -, hstream, hended, hstop, rfl⟩
      · exact nomatch hb.symm.trans hb'
      · exact h.left_endPump hs hl hfin hstream hended hstop

/-- The second one has such a turn, and cannot move. -/
theorem right_pause (hs : Steady now s) {actor : Actor} (hnext : t.agenda.next? = some actor)
    (hb : s.busy m.finished actor = false) :
    Beside (m.step t (t.pause actor)) s (t.pause actor) := by
  have hroom : ∀ party ∈ t.room.guests, party.actor ≠ actor := fun party hp he => by
    have hmem : party.without m.before ∈ s.room.guests :=
      h.twins.guests_eq ▸ List.mem_map_of_mem hp
    have hbusy : s.busy m.finished (party.without m.before).actor = true :=
      hs.busy_of_mem_guests hmem
    rw [Party.actor_without, he, hb] at hbusy
    cases hbusy
  have ha := h.twins.agenda_eq
  rw [Agenda.toList_eq_cons hnext, List.filter_cons_of_neg (by simp [hb])] at ha
  rw [pause_eq hroom]
  exact h.of_twins_same (h.twins.withAgenda s.feed t.feed ha) rfl rfl rfl rfl rfl

/-- The second one has such a turn and can move, as the listener has stopped. -/
theorem right_stopped (hl : s.listener = .stopped) {actor : Actor}
    (hb : s.busy m.finished actor = false) (hm : t.move? now actor = some t') :
    Beside (m.step t t') s t' := by
  have hl' : t.listener = .stopped := h.twins.listener_eq ▸ hl
  have hb' : t.busy m.finished actor = false := busy_congr_of_stopped hl hl' ▸ hb
  obtain ⟨feed, rfl⟩ := eq_of_move?_stopped hl' hm hb'
  refine ⟨?_, fun hne => absurd hl hne, fun hne => absurd hl hne⟩
  have hfin : (m.step t { t with feed }).finished = m.finished := Strewn.finished_step rfl
  rw [hfin]
  exact h.twins.withFeed s.feed feed

/-- The pump of the second one ends, when all is over. -/
theorem right_endPump (ht : Steady now t) (hfin : m.finished = true) (hstream : s.feed.stream = [])
    (hended : s.feed.ended = false) (hstop : t.stopping = true) :
    Beside (m.step t t.endPump) s t.endPump := by
  have hstep : m.step t { t with feed := { t.feed with pumping := false } } = m :=
    Strewn.step_of_keeps rfl rfl
  rw [ht.endPump_eq hstop, hstep]
  exact ⟨h.twins.withFeed s.feed _, h.feed, fun _ => .inr ⟨hfin, hstream, hended⟩⟩

/-! ### Extra signals -/

/-- The second one moves an extra signal into the queue. -/
theorem right_forward (hs : Steady now s) (hl : s.listener ≠ .stopped) {signal : Signal}
    {rest : List Signal} (hstream : t.feed.stream = signal :: rest) {queued stream : List Bool}
    (hline : m.line = queued ++ true :: stream) (hqueued : queued.length = t.feed.queue.length) :
    let t' := { t with feed := t.feed.forward signal rest }.rouseListener
    Beside (m.step t t') s t' := by
  intro t'
  have hfeed' : t'.feed = t.feed.forward signal rest := congrArg Core.feed (core_rouseListener _)
  have hload : t'.feed.load = t.feed.load := hfeed' ▸ Feed.load_forward hstream
  obtain ⟨hfeed, hlength⟩ := h.feed hl
  rw [Strewn.step_of_keeps hload (stopping_rouseListener _)]
  refine ⟨?_, fun _ => ⟨?_, hlength.trans hload.symm⟩, fun _ => hfeed' ▸ h.pumping hl⟩
  · have htwins : Twins m.before (s.busy m.finished) s
        { t with feed := t.feed.forward signal rest } := h.twins.withFeed s.feed _
    show Twins m.before (s.busy m.finished) s (rouseListener _)
    unfold rouseListener
    split
    · rename_i hready
      refine htwins.rouse_right fun hb => hs.attended .listener (.inl ?_)
      have hsready : s.listener = .ready := h.twins.listener_eq.trans hready
      refine ((busy_listener_iff now).1 hb).resolve_left fun hseated => ?_
      rw [hsready] at hseated
      cases hseated
    · exact htwins
  · rw [hfeed', hline, Feed.without_forward_marked hqueued hstream, ← hline]
    exact hfeed

/-- The second one takes an extra signal from the queue. -/
theorem right_take (ht : Steady now t) (hl : s.listener = .ready)
    (hnext : t.agenda.next? = some .listener) {signal : Signal} {rest : List Signal}
    (hqueue : t.feed.queue = signal :: rest) {line : List Bool} (hline : m.line = true :: line)
    (hsm : m.Smooth t t') :
    t.moveListener? = some { t with feed := { t.feed with queue := rest } } ∧
      Beside (m.step t { t with feed := { t.feed with queue := rest } }) s
        { t with feed := { t.feed with queue := rest } } := by
  have hready : t.listener = .ready := h.twins.listener_eq ▸ hl
  have hignores : t.ignores signal = true := by
    have htaken := hsm.taken (by rw [hline]; rfl)
    rwa [taking?, hnext, hready, hqueue, List.head?_cons, Option.all_some] at htaken
  refine ⟨?_, ?_⟩
  · rw [moveListener?_take hready hqueue]
    cases signal with
    | undecodable => rfl
    | removed event =>
      obtain ⟨hfree, hres⟩ := Bool.and_eq_true_iff.1 hignores
      unfold takeSignal
      dsimp only
      rw [if_pos hfree]
      refine congrArg some (handle_eq_self hready ht.served (gateFree_iff.1 hfree) ?_)
      simpa using hres
  · have hne : s.listener ≠ .stopped := by rw [hl]; exact nofun
    obtain ⟨hfeed, hlength⟩ := h.feed hne
    have hload : t.feed.load = ({ t.feed with queue := rest } : Feed).load + 1 := by
      simp only [Feed.load, hqueue, List.length_cons]
      omega
    have hstep : m.step t { t with feed := { t.feed with queue := rest } } =
        { m with line := m.line.tail } := Strewn.step_of_load_eq_succ hload rfl
    rw [hstep, hline]
    refine ⟨h.twins.withFeed s.feed _, fun _ => ⟨?_, ?_⟩, fun _ => h.pumping hne⟩
    · rw [Feed.without, hline, hqueue] at hfeed
      exact hfeed
    · rw [hline, hload] at hlength
      exact Nat.succ.inj hlength

end

end Beside

end Dispatcher

end SystemdControl
