import SystemdControl.Proofs.Job.Dispatcher.Traffic

/-!
# How pump and listener come to an end

Callers can do no more than ask them to stop, or end the stream. Either ends by a move of its own,
and the listener closes the table with its last one.

* `Dispatcher.act_apart`: what an act leaves alone that is not a move of pump or listener;
* `Dispatcher.Winding`: both run until someone asks them to stop or the stream ends;
* `Core.Drained`: the table is closed when the listener has ended, and nothing is queued then;
* `Dispatcher.act_closes`: the move that closes the table.
-/

namespace SystemdControl

open JobTable

namespace Dispatcher

/-! ## What callers leave alone -/

/-- Pump and listener are as they were, apart from what they have been asked. -/
structure Apart (s s' : Dispatcher) : Prop where
  listener : s'.listener = s.listener
  pumping : s'.feed.pumping = s.feed.pumping
  ended : s.feed.ended = true → s'.feed.ended = true
  stopping : s.stopping = true → s'.stopping = true

namespace Apart

variable {s s' s'' : Dispatcher}

@[refl] theorem refl (s : Dispatcher) : Apart s s :=
  ⟨rfl, rfl, id, id⟩

theorem trans (h : Apart s s') (h' : Apart s' s'') : Apart s s'' where
  listener := h'.listener.trans h.listener
  pumping := h'.pumping.trans h.pumping
  ended he := h'.ended (h.ended he)
  stopping hs := h'.stopping (h.stopping hs)

end Apart

section

variable (s : Dispatcher)

theorem apart_note (label : String) (event : JobEvent) : Apart s (s.note label event) :=
  ⟨rfl, rfl, id, id⟩

theorem apart_rouseListener : Apart s s.rouseListener := by
  unfold rouseListener
  split
  · exact ⟨rfl, rfl, id, id⟩
  · exact .refl s

theorem apart_openGate : Apart s s.openGate := by
  unfold openGate
  split
  · exact ⟨rfl, rfl, id, id⟩
  · exact .refl s

theorem apart_giveUpSeat (party : Party) : Apart s (s.giveUpSeat party) := by
  unfold giveUpSeat
  have hleave : Apart s { s with room := s.room.leave party } := ⟨rfl, rfl, id, id⟩
  split
  · exact hleave.trans (apart_openGate _)
  · exact hleave

theorem apart_requestStop : Apart s s.requestStop := by
  unfold requestStop
  split
  · exact .refl s
  · have hstop : Apart s ({ s with stopping := true }.rouse .pump) := ⟨rfl, rfl, id, fun _ => rfl⟩
    exact hstop.trans (apart_rouseListener _)

theorem apart_stopIfAbandoned : Apart s s.stopIfAbandoned := by
  unfold stopIfAbandoned
  split
  · exact apart_requestStop s
  · exact .refl s

theorem apart_emitSignals (signals : List Signal) : Apart s (s.emitSignals signals) := by
  have hemit : Apart s { s with feed := s.feed.emit signals } := by
    unfold Feed.emit
    split
    · exact ⟨rfl, rfl, id, id⟩
    · exact .refl s
  unfold emitSignals
  split
  · exact hemit
  · exact hemit.trans ⟨rfl, rfl, id, id⟩

theorem apart_keepHandle (label : String) (handle : JobHandle) :
    Apart s (s.keepHandle label handle) := by
  unfold keepHandle
  split <;> exact ⟨rfl, rfl, id, id⟩

end

variable {s : Dispatcher}

theorem apart_start (label : String) (request : Except Error JobRequest) (before : List Signal)
    (held : Bool) (reply : Reply) : Apart s (s.start label request before held reply) := by
  unfold start
  cases request <;> exact ⟨rfl, rfl, id, id⟩

theorem apart_kill (label : String) (request : Except Error KillRequest) (held : Bool)
    (fail : Option Error) : Apart s (s.kill label request held fail) := by
  unfold kill
  cases request <;> cases held <;> exact ⟨rfl, rfl, id, id⟩

theorem apart_release (label : String) : Apart s (s.release label).2 := by
  generalize hr : (s.release label).2 = s'
  cases release_cases hr with
  | answer => exact ⟨rfl, rfl, id, id⟩
  | @kill fail =>
    have hnote : Apart s ({ s with kills := s.kills.remove label }.note label (killEvent fail)) :=
      ⟨rfl, rfl, id, id⟩
    exact hnote.trans (apart_stopIfAbandoned _)
  | missing => exact .refl s

theorem apart_wait (now : Nat) (label : String) (limit : Option Duration) :
    Apart s (s.wait now label limit).2 := by
  generalize hw : (s.wait now label limit).2 = s'
  cases wait_cases hw <;> exact ⟨rfl, rfl, id, id⟩

theorem apart_drop (label : String) : Apart s (s.drop label).2 := by
  generalize hd : (s.drop label).2 = s'
  cases drop_cases hd with
  | handle | wait => exact ⟨rfl, rfl, id, id⟩
  | underWay =>
    have hover : Apart s { s with underWay := none } := ⟨rfl, rfl, id, id⟩
    exact (hover.trans (apart_openGate _)).trans (apart_stopIfAbandoned _)
  | seat => exact (apart_giveUpSeat s _).trans (apart_stopIfAbandoned _)
  | kill =>
    have hkill : Apart s { s with kills := s.kills.remove label } := ⟨rfl, rfl, id, id⟩
    exact hkill.trans (apart_stopIfAbandoned _)
  | missing => exact .refl s

theorem apart_issue (call : Call) : Apart s (s.issue call) := by
  unfold issue
  split
  · exact ((apart_note s ..).trans (apart_openGate _)).trans (apart_stopIfAbandoned _)
  · have hunder : Apart s { s with
        sent := s.sent ++ [ManagerCall.job call.request]
        underWay := some ⟨call, !call.held⟩ } := ⟨rfl, rfl, id, id⟩
    exact hunder.trans (apart_emitSignals _ _)

theorem apart_takeUp (call : Call) : Apart s (s.takeUp call) := by
  refine takeUp_cases (motive := Apart s) s call (fun e _ => ?fail) fun path _ _ => ?register
  case fail =>
    have hfail : Apart s ({ s with underWay := none, numbered := (s.answer call.reply).2 }.note
        call.label (.failed e)) :=
      ⟨rfl, rfl, id, id⟩
    exact (hfail.trans (apart_openGate _)).trans (apart_stopIfAbandoned _)
  case register =>
    have hmade : Apart s ({ s with
        underWay := none
        numbered := (s.answer call.reply).2
        table := (s.table.register path).2 } : Dispatcher).rouseDecided :=
      ⟨rfl, rfl, id, id⟩
    have hkept := (hmade.trans (apart_openGate _)).trans
      (apart_keepHandle _ call.label ⟨call.request.unit, ⟨path, s.table.registered⟩⟩)
    exact (hkept.trans (apart_note ..)).trans (apart_stopIfAbandoned _)

theorem apart_moveCall? {number : Nat} {s' : Dispatcher} (h : s.moveCall? number = some s') :
    Apart s s' := by
  cases moveCall?_cases h with
  | takeUp => exact apart_takeUp _
  | @issue call =>
    have hleave : Apart s { s with room := s.room.leave (.call call) } := ⟨rfl, rfl, id, id⟩
    exact hleave.trans (apart_issue call)

theorem apart_moveWait? {now : Nat} {ticket : Ticket} {s' : Dispatcher}
    (h : s.moveWait? now ticket = some s') : Apart s s' := by
  obtain ⟨w, -, -, outcome, -, rfl⟩ := moveWait?_cases h
  exact ⟨rfl, rfl, id, id⟩

/-- Only moves of pump and listener change what these are doing. -/
theorem act_apart {x : Act} (hp : ∀ now, x ≠ .move now .pump)
    (hl : ∀ now, x ≠ .move now .listener) : Apart s (s.act x) := by
  cases x with
  | start label request before held reply => exact apart_start ..
  | kill label request held fail => exact apart_kill ..
  | release label => exact apart_release label
  | wait now label limit => exact apart_wait ..
  | drop label => exact apart_drop label
  | emit signals => exact apart_emitSignals s signals
  | disconnect => exact ⟨rfl, rfl, fun _ => rfl, id⟩
  | requestStop => exact apart_requestStop s
  | dropHolder label =>
    have hgone : Apart s { s with holders := s.holders.remove label } := ⟨rfl, rfl, id, id⟩
    exact hgone.trans (apart_stopIfAbandoned _)
  | withGuests guests =>
    have hguests : Apart s { s with guests } := ⟨rfl, rfl, id, id⟩
    exact hguests.trans (apart_stopIfAbandoned _)
  | move now actor =>
    rw [act]
    cases h : s.move? now actor with
    | none => exact .refl s
    | some s' =>
      cases actor with
      | pump => exact absurd rfl (hp now)
      | listener => exact absurd rfl (hl now)
      | call number => exact apart_moveCall? h
      | wait ticket => exact apart_moveWait? h
  | addHolder | alarm | pause | clear => exact ⟨rfl, rfl, id, id⟩

/-- As `act_apart`, for an act of which it is not known who moves. -/
theorem act_cases (s : Dispatcher) (x : Act) :
    Apart s (s.act x) ∨ (∃ now, x = .move now .pump) ∨ ∃ now, x = .move now .listener := by
  by_cases hp : ∃ now, x = .move now .pump
  · exact .inr (.inl hp)
  · by_cases hl : ∃ now, x = .move now .listener
    · exact .inr (.inr hl)
    · exact .inl (act_apart (fun now he => hp ⟨now, he⟩) fun now he => hl ⟨now, he⟩)

/-! ## Until they end -/

/-- Pump and listener run until someone asks them to stop or the stream ends. -/
structure Winding (s : Dispatcher) : Prop where
  pump : s.feed.pumping = false → s.stopping = true ∨ s.feed.ended = true
  listener : s.listener = .stopped → s.stopping = true ∨ s.feed.ended = true

namespace Winding

theorem start (capacity : Nat) : Winding { feed := { capacity } } :=
  ⟨nofun, nofun⟩

theorem apart {s' : Dispatcher} (h : Winding s) (a : Apart s s') : Winding s' where
  pump hp := (h.pump (a.pumping ▸ hp)).imp a.stopping a.ended
  listener hl := (h.listener (a.listener ▸ hl)).imp a.stopping a.ended

theorem movePump? {s' : Dispatcher} (h : Winding s) (hm : s.movePump? = some s') : Winding s' := by
  obtain ⟨feed, hf, rfl⟩ := Option.map_eq_some_iff.1 hm
  have hfeed : Winding { s with feed } := by
    cases (Feed.pump?_cases hf).2 with
    | forward | lose => exact ⟨h.pump, h.listener⟩
    | dismiss hl => exact ⟨fun _ => h.listener (by simpa using hl), h.listener⟩
    | finish hs he => exact ⟨fun _ => he.symm, h.listener⟩
  exact hfeed.apart (apart_rouseListener _)

theorem handle (h : Winding s) (event : JobRemoved) : Winding (s.handle event) := by
  obtain ⟨waits, hwaits⟩ := s.handle_eq event
  have hready : Winding ({ s with
      table := (s.table.resolve event.jobPath event.result).2
      listener := .ready }.rouseWaits waits) := ⟨h.pump, nofun⟩
  rw [hwaits]
  exact hready.apart (apart_openGate _)

theorem moveListener? {s' : Dispatcher} (h : Winding s) (hm : s.moveListener? = some s') :
    Winding s' := by
  have htake : ∀ {signal feed}, s.feed.take? = some (signal, feed) → Winding { s with feed } :=
    fun {signal feed} ht => by
      unfold Feed.take? at ht
      split at ht <;> cases ht
      exact ⟨h.pump, h.listener⟩
  cases moveListener?_cases hm with
  | skip hl ht => exact htake ht
  | take hl hu ht => exact (htake ht).handle _
  | sit hl hu ht => exact ⟨(htake ht).pump, nofun⟩
  | rise hl hu =>
    have hleave : Winding { s with room := s.room.leave .listener } := ⟨h.pump, h.listener⟩
    exact hleave.handle _
  | stop hl hq hs =>
    have hasked : s.stopping = true ∨ s.feed.ended = true := hs.elim .inl h.pump
    exact ⟨fun _ => hasked, fun _ => hasked⟩

theorem act (h : Winding s) (x : Act) : Winding (s.act x) := by
  rcases s.act_cases x with a | ⟨now, rfl⟩ | ⟨now, rfl⟩
  · exact h.apart a
  · cases hm : s.movePump? with
    | none => simpa [Dispatcher.act, move?, hm] using h
    | some s' => simpa [Dispatcher.act, move?, hm] using h.movePump? hm
  · cases hm : s.moveListener? with
    | none => simpa [Dispatcher.act, move?, hm] using h
    | some s' => simpa [Dispatcher.act, move?, hm] using h.moveListener? hm

end Winding

end Dispatcher

/-! ## The closing -/

namespace Core

variable {c c' : Core}

/-- The table is closed when the listener has ended, and nothing is queued then. -/
structure Drained (c : Core) : Prop where
  closed_iff : c.table.closed = true ↔ c.listener = .stopped
  queue : c.listener = .stopped → c.feed.queue = []

theorem Drained.front_eq_nil (h : c.Drained) (hc : c.table.closed = true) : c.front = [] := by
  have hl : c.listener = .stopped := h.closed_iff.1 hc
  rw [front, hand, hl, h.queue hl]
  rfl

theorem Drained.effect (h : c.Drained) (e : c.Effect c') : c'.Drained := by
  cases e with
  | register hu label unit path ho =>
    refine ⟨?_, h.queue⟩
    cases hg : c.handles.get? label <;> exact h.closed_iff
  | issue | emit => exact ⟨h.closed_iff, fun hl => by rw [Feed.queue_emit]; exact h.queue hl⟩
  | @pump stopping feed hf =>
    refine ⟨h.closed_iff, fun hl => ?_⟩
    cases (Feed.pump?_cases hf).2 with
    | forward hs hl' => exact absurd hl (by simpa using hl')
    | lose | dismiss | finish => exact h.queue hl
  | skip hl ht =>
    have hne : c.listener ≠ .stopped := by simp [hl]
    exact ⟨h.closed_iff, fun hs => absurd hs hne⟩
  | sit hl ht =>
    have hopen : c.table.closed ≠ true := fun hc => by simpa [hl] using h.closed_iff.1 hc
    exact ⟨⟨fun hc => absurd hc hopen, nofun⟩, nofun⟩
  | take hl hu ht | rise hl hu =>
    have hopen : c.table.closed ≠ true := fun hc => by simpa [hl] using h.closed_iff.1 hc
    refine ⟨⟨fun hc => absurd ?_ hopen, nofun⟩, nofun⟩
    rwa [← closed_resolve]
  | stop hl hq => exact ⟨⟨fun _ => rfl, fun _ => rfl⟩, fun _ => hq⟩
  | _ => exact ⟨h.closed_iff, h.queue⟩

/-- The one effect that closes the table. -/
theorem Effect.closes (e : c.Effect c') (ho : c.table.closed = false)
    (hc : c'.table.closed = true) :
    c.listener = .ready ∧ c.feed.queue = [] ∧ c'.listener = .stopped := by
  have hno : c.table.closed ≠ true := by simp [ho]
  cases e with
  | stop hl hq => exact ⟨hl, hq, rfl⟩
  | register hu label unit path =>
    cases hg : c.handles.get? label <;> simp only [hg] at hc <;> exact absurd hc hno
  | take | rise => exact absurd (by rwa [← closed_resolve]) hno
  | _ => exact absurd hc hno

end Core

namespace Dispatcher

variable {s : Dispatcher}

/-- The pump leaves the listener as it was. -/
theorem listener_act_pump (now : Nat) : (s.act (.move now .pump)).listener = s.listener := by
  rw [act, move?]
  cases hm : s.movePump? with
  | none => rfl
  | some s' =>
    obtain ⟨feed, -, rfl⟩ := Option.map_eq_some_iff.1 hm
    exact (apart_rouseListener { s with feed }).listener

theorem stopping_handle (event : JobRemoved) : (s.handle event).stopping = s.stopping := by
  obtain ⟨waits, hwaits⟩ := s.handle_eq event
  rw [hwaits]
  unfold openGate
  split <;> rfl

theorem listener_handle (event : JobRemoved) : (s.handle event).listener = .ready := by
  obtain ⟨waits, hwaits⟩ := s.handle_eq event
  rw [hwaits]
  exact (apart_openGate _).listener

/-- The listener sits down only while a call holds the gate. -/
theorem act_seats {x : Act} {event : JobRemoved} (hs : (s.act x).listener = .seated event)
    (hn : s.listener ≠ .seated event) : s.underWay ≠ none := by
  rcases s.act_cases x with a | ⟨now, rfl⟩ | ⟨now, rfl⟩
  · exact absurd (a.listener ▸ hs) hn
  · exact absurd (listener_act_pump now ▸ hs) hn
  · rw [act, move?] at hs
    cases hm : s.moveListener? with
    | none =>
      rw [hm] at hs
      exact absurd hs hn
    | some s' =>
      rw [hm, Option.getD_some] at hs
      cases moveListener?_cases hm with
      | skip => exact absurd hs hn
      | sit hl hu => exact hu
      | take | rise => exact absurd ((listener_handle _).symm.trans hs) (by simp)
      | stop => cases hs

/-- The table is closed by a move of the listener, which was done with everything and had been asked
to stop or had no pump any more. -/
theorem act_closes {x : Act} (ho : s.table.closed = false) (hc : (s.act x).table.closed = true) :
    (∃ now, x = .move now .listener) ∧ s.core.front = [] ∧
      (s.stopping = true ∨ s.feed.pumping = false) := by
  obtain ⟨hl, hq, hl'⟩ := (s.act_effect x).closes ho hc
  replace hl' : (s.act x).listener = .stopped := hl'
  replace hl : s.listener = .ready := hl
  have hne : (s.act x).listener ≠ s.listener := by simp [hl, hl']
  have hx : ∃ now, x = .move now .listener := by
    rcases s.act_cases x with a | ⟨now, rfl⟩ | hx
    · exact absurd a.listener hne
    · exact absurd (listener_act_pump now) hne
    · exact hx
  refine ⟨hx, (Core.front_of_ready hl).trans hq, ?_⟩
  obtain ⟨now, rfl⟩ := hx
  rw [act, move?] at hne hl'
  cases hm : s.moveListener? with
  | none =>
    rw [hm] at hne
    exact absurd rfl hne
  | some s' =>
    rw [hm, Option.getD_some] at hl'
    cases moveListener?_cases hm with
    | skip => exact absurd (hl.symm.trans hl') (by simp)
    | take | rise => exact absurd ((listener_handle _).symm.trans hl') (by simp)
    | sit => cases hl'
    | stop _ _ hs => exact hs

end Dispatcher

end SystemdControl
