import SystemdControl.Proofs.Job.Dispatcher.Beside.Both

/-!
# A step beside a dispatcher without the extra signals

Of two dispatchers that are beside each other the second one makes a step. The first one makes it too
if it has something to do in that turn.

* `Beside.next?_eq`: then both have the same turn;
* `Beside.step_pump` is a step of the pump, by what it does: `Beside.step_forward` and
  `Beside.step_finish`;
* `Beside.step_listener` is a step of the listener, by what there is for it: `Beside.step_take` and
  `Beside.step_drained`.
-/

namespace SystemdControl

namespace Dispatcher

namespace Beside

variable {m : Strewn} {s t s' t' : Dispatcher} {now : Nat}

section

variable (h : Beside m s t)
include h

/-! ### Who can go on -/

/-- If the first one has something to do in the turn that it has, both have the same turn. -/
theorem next?_eq (hhead : ∀ actor, s.agenda.next? = some actor → s.busy m.finished actor = true)
    {actor : Actor} (hnext : t.agenda.next? = some actor) (hb : s.busy m.finished actor = true) :
    s.agenda.next? = some actor := by
  have ha := h.twins.agenda_eq
  rw [Agenda.toList_eq_cons hnext, List.filter_cons_of_pos hb] at ha
  cases hn : s.agenda.next? with
  | none =>
    rw [(Agenda.next?_eq_none_iff _).1 hn] at ha
    cases ha
  | some other =>
    rw [Agenda.toList_eq_cons hn, List.filter_cons_of_pos (hhead other hn)] at ha
    exact congrArg some (List.cons.inj ha).1

/-- If the pump of the first one has something to do, both pumps are still there. -/
theorem pumping_eq_of_busy (hl : s.listener ≠ .stopped) (hb : s.busy m.finished .pump = true) :
    s.feed.pumping = t.feed.pumping := by
  obtain ⟨-, -, hwhy⟩ := busy_pump_iff.1 hb
  refine (h.pumping hl).resolve_right fun ⟨hfin, hstream, hended⟩ => ?_
  rcases hwhy with hne | he | ⟨-, ho⟩
  · exact hne hstream
  · exact nomatch hended.symm.trans he
  · exact nomatch ho.symm.trans hfin

/-- It has something to do only if the pump of the second one can go on. -/
theorem able_pump (now : Nat) (hb : s.busy m.finished .pump = true) : t.Able now .pump := by
  have hl : s.listener ≠ .stopped := (busy_pump_iff.1 hb).1
  obtain ⟨hp, hwhy⟩ := able_of_busy_pump now hb
  have hpumping := h.pumping_eq_of_busy hl hb
  rw [(h.feed hl).1, h.twins.stopping_eq] at hwhy
  refine ⟨hpumping ▸ hp, hwhy.imp_left fun hne he => hne ?_⟩
  show strip _ t.feed.stream = []
  rw [he, strip_nil]

/-- As long as the listener is there the end of one pump makes it stop only if it was asked to. -/
theorem stop_iff (ho : m.Ending t) (hl : s.listener ≠ .stopped) :
    (s.stopping = true ∨ s.feed.pumping = false) ↔
      (t.stopping = true ∨ t.feed.pumping = false) := by
  rw [h.twins.stopping_eq]
  rcases h.pumping hl with hp | ⟨hfin, -⟩
  · rw [hp]
  · have hstop : t.stopping = true :=
      ((ho hfin).resolve_left fun hlt => hl (h.twins.listener_eq.trans hlt)).1
    exact ⟨fun _ => .inl hstop, fun _ => .inl hstop⟩

/-- The listener of the first one can go on only if that of the second one can. -/
theorem able_listener (ho : m.Ending t) (hl : s.listener ≠ .stopped)
    (ha : s.Able now .listener) : t.Able now .listener := by
  obtain ⟨hr, hwhy⟩ := ha
  refine ⟨h.twins.listener_eq ▸ hr, hwhy.imp (fun hne he => hne ?_) (h.stop_iff ho hl).1⟩
  rw [(h.feed hl).1]
  show strip _ t.feed.queue = []
  rw [he, strip_nil]

/-! ### The pump -/

/-- The pump of the second one moves a signal, and that of the first one too unless it is an extra
one. -/
theorem step_forward (hs : Lively now s) (ht : Lively now t) (hl : s.listener ≠ .stopped)
    (hnext : t.agenda.next? = some .pump)
    (hhead : s.busy m.finished .pump = true → s.agenda.next? = some .pump)
    (hp : t.feed.pumping = true) {signal : Signal} {rest : List Signal}
    (hstream : t.feed.stream = signal :: rest) (hroom : t.feed.queue.length < t.feed.size) :
    let s' := (s.move? now .pump).getD (s.pause .pump)
    let t' := { t with feed := t.feed.forward signal rest }.rouseListener
    Beside (m.step t t') s t' ∨ s.agenda.next? = some .pump ∧ Beside (m.step t t') s' t' := by
  intro s' t'
  obtain ⟨hfeed, hlength⟩ := h.feed hl
  obtain ⟨queued, mark, stream, hline, hqueued⟩ := Feed.exists_mark hlength hstream
  cases mark with
  | true => exact .inl (h.right_forward hs.toSteady hl hstream hline hqueued)
  | false =>
    obtain ⟨hss, hwithout⟩ :=
      @Feed.without_forward t.feed queued stream hqueued signal rest hstream
    rw [← hline] at hss hwithout
    -- there is a signal to move in both, so neither pump has ended
    have hps : s.feed.pumping = t.feed.pumping :=
      (h.pumping hl).resolve_right fun ⟨_, hnone, _⟩ => by
        rw [hfeed] at hnone
        exact nomatch hnone.symm.trans hss
    rw [hps] at hfeed
    replace hfeed : s.feed = t.feed.without m.line := hfeed
    rw [← hfeed] at hss hwithout
    have hb : s.busy m.finished .pump = true :=
      busy_pump_iff.2 ⟨hl, hps.trans hp, .inl (by simp [hss])⟩
    have hroom' : s.feed.queue.length < s.feed.size := by
      rw [hfeed]
      exact Nat.lt_of_le_of_lt (length_strip_le _ _) hroom
    have hs' : s' = ({ s with feed := s.feed.forward signal (strip stream rest) } :
        Dispatcher).rouseListener := by
      simp only [s', move?, movePump?_forward (hps.trans hp) hl hss hroom', Option.getD_some]
    rw [hs']
    exact .inr ⟨hhead hb, h.both_pump hs ht hb (hhead hb) hnext hwithout.symm
      (Feed.load_forward hstream)⟩

/-- The pump of the second one ends, and that of the first one too unless all is over. -/
theorem step_finish (hs : Lively now s) (ht : Lively now t) (hl : s.listener ≠ .stopped)
    (hnext : t.agenda.next? = some .pump)
    (hhead : s.busy m.finished .pump = true → s.agenda.next? = some .pump)
    (hp : t.feed.pumping = true) (hstream : t.feed.stream = [])
    (he : t.feed.ended = true ∨ t.stopping = true) :
    let s' := (s.move? now .pump).getD (s.pause .pump)
    Beside (m.step t t.endPump) s t.endPump ∨
      s.agenda.next? = some .pump ∧ Beside (m.step t t.endPump) s' t.endPump := by
  intro s'
  obtain ⟨hfeed, -⟩ := h.feed hl
  have hss : s.feed.stream = [] := by
    rw [hfeed]
    show strip _ t.feed.stream = []
    rw [hstream, strip_nil]
  have hended : s.feed.ended = t.feed.ended := by rw [hfeed]; rfl
  by_cases hb : s.busy m.finished .pump = true
  · have hps := h.pumping_eq_of_busy hl hb
    rw [hps] at hfeed
    have he' : s.feed.ended = true ∨ s.stopping = true := by
      rw [hended, h.twins.stopping_eq]
      exact he
    have hs' : s' = s.endPump := by
      simp only [s', move?, movePump?_finish (hps.trans hp) hss he', Option.getD_some, endPump]
    rw [hs']
    refine .inr ⟨hhead hb, h.both_pump hs ht hb (hhead hb) hnext ?_ rfl⟩
    rw [hfeed]
    rfl
  · -- only one pump has ended yet, or will have
    have hstops : s.feed.ended = false → t.stopping = true := fun hends =>
      he.resolve_left fun he => absurd (hends.symm.trans (hended.trans he)) Bool.false_ne_true
    obtain ⟨hfin, hends⟩ : m.finished = true ∧ s.feed.ended = false := by
      rcases h.pumping hl with hps | ⟨hfin, -, hends⟩
      · have hidle : ¬ (s.feed.ended = true ∨ s.stopping = true ∧ m.finished = false) :=
          fun hwhy => hb (busy_pump_iff.2 ⟨hl, hps.trans hp, .inr hwhy⟩)
        have hends : s.feed.ended = false := Bool.eq_false_iff.2 fun he => hidle (.inl he)
        have hstop : s.stopping = true := by
          rw [h.twins.stopping_eq]
          exact hstops hends
        refine ⟨?_, hends⟩
        by_contra hfin
        exact hidle (.inr ⟨hstop, Bool.eq_false_iff.2 hfin⟩)
      · exact ⟨hfin, hends⟩
    exact .inl (h.right_endPump ht.toSteady hfin hss hends (hstops hends))

/-- The pump goes on in the second one, and in the first one too unless it is about an extra signal
or all is over. -/
theorem step_pump (hs : Lively now s) (ht : Lively now t) (hnext : t.agenda.next? = some .pump)
    (hhead : s.busy m.finished .pump = true → s.agenda.next? = some .pump) :
    let s' := (s.move? now .pump).getD (s.pause .pump)
    let t' := (t.move? now .pump).getD (t.pause .pump)
    m.Smooth t t' → Beside (m.step t t') s t' ∨
      s.agenda.next? = some .pump ∧ Beside (m.step t t') s' t' := by
  intro s' t' hsm
  have hpause (hb : s.busy m.finished .pump = false) (hm : t.move? now .pump = none) :
      Beside (m.step t t') s t' := by
    rw [show t' = t.pause .pump by simp only [t', hm, Option.getD_none]]
    exact h.right_pause hs.toSteady hnext hb
  by_cases hl : s.listener = .stopped
  · have hb : s.busy m.finished .pump = false := by simp [busy, hl]
    cases hm : t.move? now .pump with
    | none => exact .inl (hpause hb hm)
    | some t₁ =>
      rw [show t' = t₁ by simp only [t', hm, Option.getD_some]]
      exact .inl (h.right_stopped hl hb hm)
  · have hl' : t.listener ≠ .stopped := h.twins.listener_eq ▸ hl
    cases hm : t.move? now .pump with
    | none =>
      refine .inl (hpause (Bool.eq_false_iff.2 fun hb => ?_) hm)
      have hsome := isSome_move?_of_able ht.holds (h.able_pump now hb)
      rw [hm] at hsome
      cases hsome
    | some t₁ =>
      rw [show t' = t₁ by simp only [t', hm, Option.getD_some]]
      obtain ⟨feed, hf, rfl⟩ := Option.map_eq_some_iff.1 hm
      obtain ⟨hp, hcases⟩ := Feed.pump?_cases hf
      cases hcases with
      | dismiss hd => simp [hl'] at hd
      | @lose signal rest hstream _ hfull =>
        have hroom := hsm.room
        simp [overflows, hnext, hl', hp, hstream] at hroom
        omega
      | forward hstream _ hroom => exact h.step_forward hs ht hl hnext hhead hp hstream hroom
      | finish hstream he => exact h.step_finish hs ht hl hnext hhead hp hstream he

/-! ### The listener -/

/-- The listener of the second one takes a signal, and that of the first one too unless it is an
extra one. -/
theorem step_take (ht : Steady now t) (hl : s.listener = .ready)
    (hnext : t.agenda.next? = some .listener)
    (hhead : s.busy m.finished .listener = true → s.agenda.next? = some .listener)
    {signal : Signal} {rest : List Signal} (hqueue : t.feed.queue = signal :: rest) :
    let s' := s.moveListener?.getD (s.pause .listener)
    let t' := t.moveListener?.getD (t.pause .listener)
    m.Smooth t t' → Beside (m.step t t') s t' ∨
      s.agenda.next? = some .listener ∧ Beside (m.step t t') s' t' := by
  intro s' t' hsm
  have hl' : t.listener = .ready := h.twins.listener_eq ▸ hl
  have hne : s.listener ≠ .stopped := by rw [hl]; exact nofun
  obtain ⟨hfeed, hlength⟩ := h.feed hne
  have hsqueue : s.feed.queue = strip m.line t.feed.queue := by rw [hfeed]; rfl
  cases hline : m.line with
  | nil =>
    rw [hline, Feed.load, hqueue, List.length_cons, List.length_nil] at hlength
    omega
  | cons mark line =>
    rw [hline, hqueue] at hsqueue
    cases mark with
    | true =>
      obtain ⟨hm, hbeside⟩ := h.right_take ht hl hnext hqueue hline hsm
      rw [show t' = _ by simp only [t', hm, Option.getD_some]; rfl]
      exact .inl hbeside
    | false =>
      replace hsqueue : s.feed.queue = signal :: strip line rest := hsqueue
      have hb : s.busy m.finished .listener = true :=
        (busy_listener_iff now).2 (.inr ⟨hl, .inl (by simp [hsqueue])⟩)
      have hs' : s' = s.takeSignal signal (strip line rest) := by
        simp only [s', moveListener?_take hl hsqueue, Option.getD_some]
      have ht' : t' = t.takeSignal signal rest := by
        simp only [t', moveListener?_take hl' hqueue, Option.getD_some]
      rw [hs', ht']
      exact .inr ⟨hhead hb, h.both_take hb hne hqueue hline⟩

/-- The listener has no signal in either. -/
theorem step_drained (hs : Steady now s) (ho : m.Ending t) (hl : s.listener = .ready)
    (hnext : t.agenda.next? = some .listener)
    (hhead : s.busy m.finished .listener = true → s.agenda.next? = some .listener)
    (hqueue : t.feed.queue = []) :
    let s' := s.moveListener?.getD (s.pause .listener)
    let t' := t.moveListener?.getD (t.pause .listener)
    Beside (m.step t t') s t' ∨ s.agenda.next? = some .listener ∧ Beside (m.step t t') s' t' := by
  intro s' t'
  have hl' : t.listener = .ready := h.twins.listener_eq ▸ hl
  have hne : s.listener ≠ .stopped := by rw [hl]; exact nofun
  have hsqueue : s.feed.queue = [] := by
    rw [(h.feed hne).1]
    show strip _ t.feed.queue = []
    rw [hqueue, strip_nil]
  by_cases hend : t.stopping = true ∨ t.feed.pumping = false
  · have hend' := (h.stop_iff ho hne).2 hend
    have hb : s.busy m.finished .listener = true :=
      (busy_listener_iff now).2 (.inr ⟨hl, .inr hend'⟩)
    have hs' : s' = s.stopListener := by
      simp only [s', moveListener?_stop hl hsqueue, if_pos hend', Option.getD_some]
    have ht' : t' = t.stopListener := by
      simp only [t', moveListener?_stop hl' hqueue, if_pos hend, Option.getD_some]
    rw [hs', ht']
    exact .inr ⟨hhead hb, h.both_stop⟩
  · have hb : s.busy m.finished .listener = false := Bool.eq_false_iff.2 fun hb => by
      rcases (busy_listener_iff now).1 hb with hseated | hable
      · rw [hl] at hseated
        cases hseated
      · obtain ⟨-, hq | he⟩ := h.able_listener ho hne hable
        · exact hq hqueue
        · exact hend he
    have ht' : t' = t.pause .listener := by
      simp only [t', moveListener?_stop hl' hqueue, if_neg hend, Option.getD_none]
    rw [ht']
    exact .inl (h.right_pause hs hnext hb)

/-- The listener goes on in the second one, and in the first one too unless it is about an extra
signal. -/
theorem step_listener (hs : Lively now s) (ht : Lively now t) (ho : m.Ending t)
    (hnext : t.agenda.next? = some .listener)
    (hhead : s.busy m.finished .listener = true → s.agenda.next? = some .listener) :
    let s' := s.moveListener?.getD (s.pause .listener)
    let t' := t.moveListener?.getD (t.pause .listener)
    m.Smooth t t' → Beside (m.step t t') s t' ∨
      s.agenda.next? = some .listener ∧ Beside (m.step t t') s' t' := by
  intro s' t' hsm
  cases hl : s.listener with
  | stopped =>
    have hb : s.busy m.finished .listener = false := by simp [busy, hl]
    have hm : t.moveListener? = none := by
      unfold moveListener?
      rw [← h.twins.listener_eq, hl]
    rw [show t' = t.pause .listener by simp only [t', hm, Option.getD_none]]
    exact .inl (h.right_pause hs.toSteady hnext hb)
  | seated event =>
    have hb : s.busy m.finished .listener = true :=
      (busy_listener_iff now).2 (.inl (by rw [hl]; rfl))
    exact .inr ⟨hhead hb, h.both_seated ht.toSteady hl (hhead hb) hnext⟩
  | ready =>
    cases hqueue : t.feed.queue with
    | cons signal rest => exact h.step_take ht.toSteady hl hnext hhead hqueue hsm
    | nil => exact h.step_drained hs.toSteady ho hl hnext hhead hqueue

end

end Beside

end Dispatcher

end SystemdControl
