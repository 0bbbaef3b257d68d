import SystemdControl.Proofs.Job.Dispatcher.Beside.Basic

/-!
# Turns that both have

Of two dispatchers that are beside each other, both have the same turn and something to do in it.

* `Beside.both_wait` and `Beside.both_call` are turns of a wait and of a call. A call may be the last
  one, at the end of which pump and listener are asked to stop (`Beside.twins_of_stopping`);
* `Beside.both_pump`, `Beside.both_take`, `Beside.both_stop` and `Beside.both_seated` are turns of
  pump and listener.
-/

namespace SystemdControl

namespace Dispatcher

namespace Beside

variable {m : Strewn} {s t s' t' : Dispatcher} {now : Nat}

section

variable (h : Beside m s t)
include h

/-! ### Waits and calls -/

theorem both_pause (hn : (t.room.guests.map Party.actor).Nodup) {actor : Actor}
    (hs : s.agenda.next? = some actor) (ht : t.agenda.next? = some actor) :
    Beside (m.step t (t.pause actor)) (s.pause actor) (t.pause actor) :=
  h.of_twins_same (h.twins.pause hn hs ht) rfl rfl rfl rfl rfl

theorem both_wait (ht : Steady now t) {ticket : Ticket}
    (hs : s.agenda.next? = some (.wait ticket)) (hnext : t.agenda.next? = some (.wait ticket)) :
    let s' := (s.moveWait? now ticket).getD (s.pause (.wait ticket))
    let t' := (t.moveWait? now ticket).getD (t.pause (.wait ticket))
    Beside (m.step t t') s' t' := by
  have hkeep : ∀ {r r' : Dispatcher}, r.moveWait? now ticket = some r' →
      r'.feed = r.feed ∧ r'.listener = r.listener ∧ r'.stopping = r.stopping := fun hm => by
    obtain ⟨w, -, -, outcome, -, rfl⟩ := moveWait?_cases hm
    exact ⟨rfl, rfl, rfl⟩
  have hrel := h.twins.moveWait? now ticket
  cases hms : s.moveWait? now ticket with
  | none =>
    cases hmt : t.moveWait? now ticket with
    | none => exact h.both_pause ht.actors hs hnext
    | some t' =>
      rw [hms, hmt] at hrel
      cases hrel
  | some s' =>
    cases hmt : t.moveWait? now ticket with
    | none =>
      rw [hms, hmt] at hrel
      cases hrel
    | some t' =>
      rw [hms, hmt] at hrel
      cases hrel with
      | some htwins =>
        obtain ⟨hf, hl, hstop⟩ := hkeep hms
        exact h.of_twins_same htwins hl hf (hkeep hmt).1 hstop (hkeep hmt).2.2

/-- A call may be the last one, at the end of which pump and listener are asked to stop. The
listener does not have a turn for extra signals only then, and it does not matter when the pump
ends. -/
theorem twins_of_stopping (hs : s.Purposeful) (ho : m.Ending t) {number : Nat}
    (hnext : s.agenda.next? = some (.call number)) (hsm : m.Smooth t t')
    (hkeep : t.stopping = true → t'.stopping = true) (hstop : s'.stopping = t'.stopping)
    (hl : s'.listener = s.listener) (hf : s'.feed = s.feed) :
    Twins m.before (s'.busy (m.step t t').finished) s t := by
  have hsame := h.twins.stopping_eq
  by_cases hstopped : s.listener = .stopped
  · have hbusy : s'.busy (m.step t t').finished = s.busy m.finished :=
      busy_congr_of_stopped hstopped (hl.trans hstopped)
    rw [hbusy]
    exact h.twins
  by_cases he : t'.stopping = t.stopping
  · rw [busy_congr hl hf ((hstop.trans he).trans hsame.symm), Strewn.finished_step he]
    exact h.twins
  have hf0 : t.stopping = false := Bool.eq_false_iff.2 fun ht => he ((hkeep ht).trans ht.symm)
  have hf1 : t'.stopping = true := by
    by_contra ht
    exact he ((Bool.eq_false_iff.2 ht).trans hf0.symm)
  have hfin : m.finished = false := Bool.eq_false_iff.2 fun hfin => by
    rcases ho hfin with hlt | ⟨ht, -⟩
    · exact hstopped (h.twins.listener_eq.trans hlt)
    · exact absurd (hf0.symm.trans ht) Bool.false_ne_true
  have hfin' : (m.step t t').finished = true := by simp [Strewn.step, hf0, hf1]
  -- to have been asked to stop makes a difference for an idle listener only
  have hbusy : ∀ actor, (actor = .listener → s.idle .listener = false) →
      s'.busy (m.step t t').finished actor = s.busy m.finished actor := fun actor hi => by
    have hi' : s'.idle actor = s.idle actor := by cases actor <;> simp only [idle, hl, hf]
    rw [hfin', hfin]
    cases actor with
    | pump => simp [busy, hl, hf, hi', hsame, hf0]
    | listener => simp [busy, hl, hi', hi rfl]
    | call | wait => rfl
  refine h.twins.congr_mem (fun actor hm => hbusy actor ?_) fun actor hm => hbusy actor ?_
  · rintro rfl
    exact hs (hsame.trans hf0) .listener hm fun hn => by cases hnext.symm.trans hn
  · rintro rfl
    rw [← h.vain_eq hstopped hfin]
    exact hsm.stop hf0 hf1 hm

/-- The reply of the same call is taken up in both. -/
theorem both_takeUp (hs : s.Purposeful) (ho : m.Ending t) (call : Call)
    (hnext : s.agenda.next? = some (.call call.number)) (hsm : m.Smooth t (t.takeUp call))
    (hkeep : t.stopping = true → (t.takeUp call).stopping = true) :
    Beside (m.step t (t.takeUp call)) (s.takeUp (call.without m.before)) (t.takeUp call) := by
  obtain ⟨hl, hf⟩ := s.takeUp_keeps (call.without m.before)
  have htwins := h.twins_of_stopping hs ho hnext hsm hkeep (h.twins.takeUp call).stopping_eq hl hf
  exact h.of_twins (htwins.takeUp call) hl hf (t.takeUp_keeps call).2

/-- The manager emits signals, of which the first state gets those that are not marked. The pump had
nothing to do and no turn. -/
theorem emitSignals (hfeed : s.listener ≠ .stopped → s.feed = t.feed.without m.line)
    (hs : s.busy m.finished .pump = false) (hps : .pump ∉ s.agenda.toList)
    (hpt : .pump ∉ t.agenda.toList) (marks : List Bool) (signals : List Signal) :
    Beside { m with line := Strewn.flow t.feed (t.emitSignals signals).feed marks m.line }
      (s.emitSignals (strip marks signals)) (t.emitSignals signals) := by
  obtain ⟨hl, hf⟩ := s.emitSignals_keeps (strip marks signals)
  rw [(t.emitSignals_keeps signals).2, Strewn.flow_of_load_le _ _ (Feed.load_le_emit signals)]
  refine .of_feed_eq ?_ fun hl' => ?_
  · let s₁ : Dispatcher := { s with feed := s.feed.emit (strip marks signals) }
    let t₁ : Dispatcher := { t with feed := t.feed.emit signals }
    have hsame : ∀ actor, actor ≠ .pump →
        s₁.busy m.finished actor = s.busy m.finished actor := fun actor hne => by
      cases actor with
      | pump => exact absurd rfl hne
      | listener => simp only [busy, idle, Feed.queue_emit, Feed.pumping_emit, s₁]
      | call | wait => rfl
    have htwins : Twins m.before (s₁.busy m.finished) s₁ t₁ := by
      refine Twins.withFeed (h.twins.congr_mem (fun actor hm => ?_) fun actor hm => ?_) _ _
      · exact hsame actor fun he => hps (he ▸ hm)
      · exact hsame actor fun he => hpt (he ▸ hm)
    have hstopping : (s.emitSignals (strip marks signals)).stopping = s₁.stopping :=
      s.stopping_emitSignals _
    rw [busy_congr (s := s₁) hl hf hstopping]
    show Twins m.before (s₁.busy m.finished)
      (if (strip marks signals).isEmpty then s₁ else s₁.rouse .pump)
      (if signals.isEmpty then t₁ else t₁.rouse .pump)
    by_cases hsignals : signals = []
    · rw [hsignals, strip_nil]
      exact htwins
    · rw [if_neg (show ¬ signals.isEmpty = true by simpa using hsignals)]
      by_cases hstrip : strip marks signals = []
      · -- the first one gets no signal, so the pump has nothing to do there that it had not before
        rw [if_pos (by rw [hstrip]; rfl)]
        refine htwins.rouse_right fun hb => ?_
        have hself : s₁ = s := by
          show { s with feed := s.feed.emit (strip marks signals) } = s
          rw [hstrip, Feed.emit_nil]
        rw [hself] at hb ⊢
        rw [hs] at hb
        cases hb
      · rw [if_neg (by simpa using hstrip)]
        exact htwins.rouse .pump
  · obtain ⟨hwithout, hlength'⟩ := Feed.without_emit (h.feed (hl ▸ hl')).2 marks signals
    rw [hf, (t.emitSignals_keeps signals).2, hfeed (hl ▸ hl')]
    exact ⟨hwithout.symm, hlength'⟩

/-- The same call gets the gate in both. -/
theorem both_issue (hs : Lively now s) (ht : Lively now t) (ho : m.Ending t) {call : Call}
    (hm : .call call ∈ t.room.guests) (hnext : s.agenda.next? = some (.call call.number))
    (hnext' : t.agenda.next? = some (.call call.number)) :
    let s' := ({ s with room := s.room.leave (.call (call.without m.before)) } :
      Dispatcher).issue (call.without m.before)
    let t' := ({ t with room := t.room.leave (.call call) } : Dispatcher).issue call
    (t.stopping = true → t'.stopping = true) → m.Smooth t t' → Beside (m.step t t') s' t' := by
  intro s' t' hkeep hsm
  let s₁ : Dispatcher := { s with room := s.room.leave (.call (call.without m.before)) }
  let t₁ : Dispatcher := { t with room := t.room.leave (.call call) }
  by_cases hc : t.table.closed = true
  · have hs' :
        s' = ((s₁.note call.label (.failed .listenerUnavailable)).openGate).stopIfAbandoned :=
      if_pos (h.twins.table_eq ▸ hc)
    have ht' :
        t' = ((t₁.note call.label (.failed .listenerUnavailable)).openGate).stopIfAbandoned :=
      if_pos hc
    have hstop : s'.stopping = t'.stopping := by
      rw [hs', ht']
      exact ((h.twins.leave ht.actors hm).fail _ _).stopping_eq
    obtain ⟨hl, hf⟩ : s'.listener = s.listener ∧ s'.feed = s.feed := hs' ▸ s₁.fail_keeps _ _
    have htwins := h.twins_of_stopping hs.purposeful ho hnext hsm hkeep hstop hl hf
    refine h.of_twins ?_ hl hf (ht' ▸ (t₁.fail_keeps _ _).2)
    have hfail : Twins m.before (s'.busy (m.step t t').finished)
        ((s₁.note call.label (.failed .listenerUnavailable)).openGate).stopIfAbandoned
        ((t₁.note call.label (.failed .listenerUnavailable)).openGate).stopIfAbandoned :=
      (htwins.leave ht.actors hm).fail _ _
    rwa [← hs', ← ht'] at hfail
  · have hs' : s' = ({ s₁ with
        sent := s.sent ++ [ManagerCall.job call.request]
        underWay := some ⟨call.without m.before, !call.held⟩ } : Dispatcher).emitSignals
          (strip (m.before call.number) call.before) :=
      if_neg (h.twins.table_eq ▸ hc)
    have ht' : t' = ({ t₁ with
        sent := t.sent ++ [ManagerCall.job call.request]
        underWay := some ⟨call, !call.held⟩ } : Dispatcher).emitSignals call.before :=
      if_neg hc
    have hkeeps : t'.stopping = t.stopping := ht' ▸ stopping_emitSignals _ call.before
    have hstep : m.step t t' =
        { m with line := Strewn.flow t.feed t'.feed (m.before call.number) m.line } := by
      have hfin := Strewn.finished_step (m := m) hkeeps
      rw [Strewn.step, hnext'] at hfin ⊢
      exact congrArg (Strewn.mk _ _) hfin
    have hbeside : Beside m
        { s₁ with
          sent := s.sent ++ [ManagerCall.job call.request]
          underWay := some ⟨call.without m.before, !call.held⟩ }
        { t₁ with
          sent := t.sent ++ [ManagerCall.job call.request]
          underWay := some ⟨call, !call.held⟩ } :=
      ⟨(h.twins.leave ht.actors hm).withCall call (!call.held) (.job call.request), h.feed,
        h.pumping⟩
    have hms : .call (call.without m.before) ∈ s.room.guests :=
      h.twins.guests_eq ▸ List.mem_map_of_mem hm
    have hpump := hs.pump_not_mem hms hnext
    have hidle : s.busy m.finished .pump = false := Bool.eq_false_iff.2 fun hb =>
      hpump (hs.attended .pump (.inl (able_of_busy_pump now hb)))
    have hfeed : s.listener ≠ .stopped → s.feed = t.feed.without m.line := fun hl =>
      h.feed_eq hl (ho.finished_eq_false (h.twins.listener_eq ▸ hl) hm)
    rw [hstep, hs', ht']
    exact hbeside.emitSignals hfeed hidle hpump (ht.pump_not_mem hm hnext') _ _

theorem both_call (hs : Lively now s) (ht : Lively now t) (ho : m.Ending t) {number : Nat}
    (hnext : s.agenda.next? = some (.call number))
    (hnext' : t.agenda.next? = some (.call number)) :
    let s' := (s.moveCall? number).getD (s.pause (.call number))
    let t' := (t.moveCall? number).getD (t.pause (.call number))
    (t.stopping = true → t'.stopping = true) → m.Smooth t t' → Beside (m.step t t') s' t' := by
  have hpause := h.both_pause ht.actors hnext hnext'
  have hunder := h.twins.underWay_eq
  cases hu : t.underWay with
  | some u =>
    obtain ⟨call, answered⟩ := u
    rw [hu] at hunder
    have hmove : s.moveCall? number = if call.number = number && answered then
        some (s.takeUp (call.without m.before)) else none := moveCall?_of_taken hunder number
    rw [hmove, moveCall?_of_taken hu]
    by_cases hc : (decide (call.number = number) && answered) = true
    · rw [if_pos hc, if_pos hc]
      obtain rfl : call.number = number := of_decide_eq_true (Bool.and_eq_true_iff.1 hc).1
      exact fun hkeep hsm => h.both_takeUp hs.purposeful ho call hnext hsm hkeep
    · rw [if_neg hc, if_neg hc]
      exact fun _ _ => hpause
  | none =>
    rw [hu] at hunder
    rw [moveCall?_of_free hu, moveCall?_of_free hunder, h.twins.seatedCall?_eq]
    cases hc : t.seatedCall? number with
    | none => exact fun _ _ => hpause
    | some call =>
      obtain ⟨hm, rfl⟩ := mem_of_seatedCall? hc
      exact h.both_issue hs ht ho hm hnext hnext'

/-! ### Pump and listener -/

/-- The pump has something to do, and the listener has. Then everybody has. -/
theorem all_of_busy (hb : s.busy m.finished .pump = true)
    (hl : s.busy m.finished .listener = true) : Twins m.before (fun _ => true) s t :=
  h.twins.mono fun actor _ => by
    cases actor with
    | pump => exact hb
    | listener => exact hl
    | call | wait => rfl

/-- In its turn the pump rouses a listener that is ready. -/
theorem twins_rouse_listener (hs : Lively now s) (ht : Lively now t)
    (hb : s.busy m.finished .pump = true) (hready : s.listener = .ready)
    (hnext : s.agenda.next? = some .pump) (hnext' : t.agenda.next? = some .pump) :
    Twins m.before (fun _ => true) (s.rouse .listener) (t.rouse .listener) := by
  by_cases hbl : s.busy m.finished .listener = true
  · exact (h.all_of_busy hb hbl).rouse .listener
  · -- the listener alone has nothing to do, and it comes last in both
    have hready' : t.listener = .ready := h.twins.listener_eq ▸ hready
    have hstop : s.stopping = false := Bool.eq_false_iff.2 fun hstop =>
      hbl ((busy_listener_iff now).2 (.inr ⟨hready, .inr (.inl hstop)⟩))
    have hstop' : t.stopping = false := h.twins.stopping_eq ▸ hstop
    have hothers : ∀ l : List Actor,
        l.filter (· ≠ .listener) = l.filter (s.busy m.finished) := fun l =>
      List.filter_congr fun actor _ => by
        cases actor with
        | pump => simp [hb]
        | listener => simp [Bool.eq_false_iff.2 hbl]
        | call | wait => rfl
    refine h.twins.withAgenda s.feed t.feed ?_
    rw [Agenda.toList_rouse_of_getLast? fun hm =>
        (hs.listener hready hstop (Agenda.before_of_next? hnext hm nofun)).2,
      Agenda.toList_rouse_of_getLast? fun hm =>
        (ht.listener hready' hstop' (Agenda.before_of_next? hnext' hm nofun)).2,
      hothers, hothers, h.twins.agenda_eq]

/-- The pump moves in both, and rouses the listener. -/
theorem both_pump (hs : Lively now s) (ht : Lively now t) (hb : s.busy m.finished .pump = true)
    (hnext : s.agenda.next? = some .pump) (hnext' : t.agenda.next? = some .pump) {f f' : Feed}
    (hf : f = f'.without m.line) (hload : f'.load = t.feed.load) :
    let s' := ({ s with feed := f } : Dispatcher).rouseListener
    let t' := ({ t with feed := f' } : Dispatcher).rouseListener
    Beside (m.step t t') s' t' := by
  intro s' t'
  have hl : s.listener ≠ .stopped := (busy_pump_iff.1 hb).1
  obtain ⟨-, hsf⟩ := keeps_of_core (core_rouseListener { s with feed := f })
  obtain ⟨-, htf⟩ := keeps_of_core (core_rouseListener { t with feed := f' })
  have hstep : m.step t t' = m :=
    Strewn.step_of_keeps ((congrArg Feed.load htf).trans hload) (stopping_rouseListener _)
  have htwins : Twins m.before (fun _ => true) s' t' := by
    by_cases hready : s.listener = .ready
    · have hrouse := h.twins_rouse_listener hs ht hb hready hnext hnext'
      rw [show s' = _ from rouseListener_of_ready hready,
        show t' = _ from rouseListener_of_ready (h.twins.listener_eq ▸ hready)]
      exact hrouse.withFeed f f'
    · have hseated : s.listener.isSeated = true := by
        cases hlistener : s.listener with
        | ready => exact absurd hlistener hready
        | seated => rfl
        | stopped => exact absurd hlistener hl
      have hall := h.all_of_busy hb ((busy_listener_iff now).2 (.inl hseated))
      rw [show s' = _ from rouseListener_of_not_ready hready,
        show t' = _ from rouseListener_of_not_ready (h.twins.listener_eq ▸ hready)]
      exact hall.withFeed f f'
  rw [hstep]
  refine .of_feed_eq (htwins.mono fun _ _ => rfl) fun _ => ?_
  rw [hsf, htf]
  exact ⟨hf, (h.feed hl).2.trans hload.symm⟩

/-- The listener had something to do, so it does not matter whether it has now. -/
theorem twins_of_listener (hb : s.busy m.finished .listener = true) (hl : s.listener ≠ .stopped)
    (hf : ∃ queue, s'.feed = { s.feed with queue }) (hs : s'.stopping = s.stopping) :
    Twins m.before (s'.busy m.finished) s t := by
  obtain ⟨queue, hf⟩ := hf
  refine h.twins.mono fun actor hactor => ?_
  cases actor with
  | pump =>
    obtain ⟨-, hwhy⟩ := busy_pump_iff.1 hactor
    rw [hf, hs] at hwhy
    exact busy_pump_iff.2 ⟨hl, hwhy⟩
  | listener => exact hb
  | call | wait => rfl

/-- The listener takes the same signal in both. -/
theorem both_take (hb : s.busy m.finished .listener = true) (hl : s.listener ≠ .stopped)
    {signal : Signal} {rest : List Signal} (hqueue : t.feed.queue = signal :: rest) {line : List Bool}
    (hline : m.line = false :: line) :
    Beside (m.step t (t.takeSignal signal rest)) (s.takeSignal signal (strip line rest))
      (t.takeSignal signal rest) := by
  obtain ⟨hfeed, hlength⟩ := h.feed hl
  obtain ⟨-, hsf, hss⟩ := s.takeSignal_keeps hl signal (strip line rest)
  obtain ⟨-, htf, hts⟩ := t.takeSignal_keeps (h.twins.listener_eq ▸ hl) signal rest
  have hload : t.feed.load = (t.takeSignal signal rest).feed.load + 1 := by
    simp only [htf, Feed.load, hqueue, List.length_cons]
    omega
  rw [Strewn.step_of_load_eq_succ hload hts, hline]
  have htwins := h.twins_of_listener hb hl ⟨_, hsf⟩ hss
  refine ⟨htwins.takeSignal _ _ _, fun _ => ⟨?_, ?_⟩, fun _ => ?_⟩
  · rw [Feed.without, hline, hqueue] at hfeed
    rw [hsf, htf]
    exact congrArg (fun f : Feed => { f with queue := strip line rest }) hfeed
  · rw [hline, hload] at hlength
    exact Nat.succ.inj hlength
  · rw [hsf, htf]
    exact h.pumping hl

/-- The listener ends in both. -/
theorem both_stop : Beside (m.step t t.stopListener) s.stopListener t.stopListener := by
  have hfeed : t.stopListener.feed = t.feed := congrArg Core.feed (core_rouseDecided _)
  have hstep : m.step t t.stopListener = m :=
    Strewn.step_of_keeps (congrArg Feed.load hfeed) rfl
  rw [hstep]
  refine ⟨(h.twins.mono fun actor hactor => ?_).stopListener, fun hl => absurd rfl hl,
    fun hl => absurd rfl hl⟩
  cases actor with
  | pump | listener => cases hactor
  | call | wait => rfl

/-- The listener handles in both what it has waited with, or its turn ends in both. -/
theorem both_seated (ht : Steady now t) {event : JobRemoved} (hl : s.listener = .seated event)
    (hnext : s.agenda.next? = some .listener) (hnext' : t.agenda.next? = some .listener) :
    let s' := s.moveListener?.getD (s.pause .listener)
    let t' := t.moveListener?.getD (t.pause .listener)
    Beside (m.step t t') s' t' := by
  have hl' : t.listener = .seated event := h.twins.listener_eq ▸ hl
  have hseated : t.ledger.seated = true := by
    show t.listener.isSeated = true
    rw [hl']
    rfl
  have hm : .listener ∈ t.room.guests := ht.distinct.listener_mem_iff.2 hseated
  have hne : s.listener ≠ .stopped := by rw [hl]; exact nofun
  have hb : s.busy m.finished .listener = true := (busy_listener_iff 0).2 (.inl (by rw [hl]; rfl))
  rw [moveListener?_rise hl, moveListener?_rise hl', h.twins.gateFree_eq]
  by_cases hfree : t.gateFree = true
  · rw [if_pos hfree, if_pos hfree]
    let s₁ : Dispatcher := { s with room := s.room.leave .listener }
    let t₁ : Dispatcher := { t with room := t.room.leave .listener }
    show Beside (m.step t (t₁.handle event)) (s₁.handle event) (t₁.handle event)
    have htwins : Twins m.before ((s₁.handle event).busy m.finished) s t :=
      h.twins_of_listener hb hne ⟨s.feed.queue, s₁.feed_handle event⟩ (stopping_handle event)
    have hload : (t₁.handle event).feed.load = t.feed.load :=
      congrArg Feed.load (t₁.feed_handle event)
    rw [Strewn.step_of_keeps hload (stopping_handle event)]
    refine ⟨(htwins.leave ht.actors hm).handle event, fun _ => ?_, fun _ => ?_⟩
    · rw [s₁.feed_handle event, t₁.feed_handle event]
      exact h.feed hne
    · rw [s₁.feed_handle event, t₁.feed_handle event]
      exact h.pumping hne
  · rw [if_neg hfree, if_neg hfree]
    exact h.both_pause ht.actors hnext hnext'

end

end Beside

end Dispatcher

end SystemdControl
