import SystemdControl.Proofs.Job.Dispatcher.Steady
import SystemdControl.Proofs.Job.Dispatcher.Use

/-!
# Whose turn comes before whose

Those who can go on have their turns in the order in which they were roused. While everything goes
on the calls come to the gate one at a time, and the signals that one of them sets off are moved
before the next one has its turn.

* `Dispatcher.Marshalled`: of those in the waiting room only one is on the agenda at a time, and the
  pump never stands behind it;
* `Dispatcher.Orderly`: nor does a listener that is ready stand behind the pump, unless both were
  asked to stop. In the turn of the pump it comes last (`Dispatcher.Ordered`);
* `Orderly.act` is what the calls of the interface bring about when all wait, and `Ordered.step?`
  what a step keeps.
-/

namespace SystemdControl

namespace Party

theorem actor_ne_pump (party : Party) : party.actor ≠ .pump := by
  cases party <;> exact nofun

theorem actor_ne_wait (party : Party) (ticket : Ticket) : party.actor ≠ .wait ticket := by
  cases party <;> exact nofun

theorem eq_listener {party : Party} (h : party.actor = .listener) : party = .listener := by
  cases party with
  | call => cases h
  | listener => rfl

end Party

/-- Whoever is called to the gate waits for it. -/
theorem Room.mem_guests_of_callFirst {α : Type} {r room : Room α} {guest : α}
    (h : r.callFirst = (some guest, room)) : guest ∈ r.guests := by
  unfold callFirst at h
  split at h
  · rename_i hs
    cases h
    rw [guests, hs]
    exact List.mem_cons_self
  · cases h

namespace Dispatcher

variable {s s' : Dispatcher} {now : Nat}

/-- Nobody who waits for the gate is on the agenda. -/
def Unroused (s : Dispatcher) : Prop :=
  ∀ party ∈ s.room.guests, party.actor ∉ s.agenda.toList

/-- The call that holds the gate has been answered. -/
def Answered (s : Dispatcher) : Prop :=
  ∃ call, s.underWay = some ⟨call, true⟩

/-- How those who wait for the gate stand on the agenda. -/
structure Marshalled (s : Dispatcher) : Prop where
  calls : ∀ call, .call call ∈ s.room.guests → ¬ s.agenda.Before (.call call.number) .pump
  alone : s.underWay = none → ∀ p ∈ s.room.guests, ∀ q ∈ s.room.guests,
    p.actor ∈ s.agenda.toList → q.actor ∈ s.agenda.toList → p = q
  /-- A call that was answered has its turn. -/
  answered : ∀ call, s.underWay = some ⟨call, true⟩ →
    s.agenda.next? = some (.call call.number) ∧ s.Unroused

/-- The turns outside that of the pump. -/
structure Orderly (s : Dispatcher) : Prop extends Marshalled s where
  listener : s.listener = .ready → s.stopping = false → ¬ s.agenda.Before .pump .listener

/-- The turns at any moment. -/
structure Ordered (s : Dispatcher) : Prop extends Marshalled s where
  listener : s.listener = .ready → s.stopping = false → s.agenda.Before .pump .listener →
    s.agenda.next? = some .pump ∧ s.agenda.toList.getLast? = some .listener

theorem Orderly.ordered (h : s.Orderly) : s.Ordered :=
  ⟨h.toMarshalled, fun hl hs hb => absurd hb (h.listener hl hs)⟩

theorem Ordered.orderly (h : s.Ordered) (hn : s.agenda.next? ≠ some .pump) : s.Orderly :=
  ⟨h.toMarshalled, fun hl hs hb => hn (h.listener hl hs hb).1⟩

/-- A listener in the waiting room is not ready. -/
theorem Steady.not_ready (h : Steady now s) (hm : .listener ∈ s.room.guests) :
    s.listener ≠ .ready := fun hl => by
  have hseated : s.listener.isSeated = true := h.distinct.listener_mem_iff.1 hm
  rw [hl] at hseated
  cases hseated

/-! ## The number of the call that holds the gate -/

/-- No call that waits for the gate has the number of the one that holds it. -/
def Numbered (s : Dispatcher) : Prop :=
  ∀ u, s.underWay = some u → u.call.number < s.begun ∧
    ∀ call, .call call ∈ s.room.guests → call.number ≠ u.call.number

theorem numbered_act (h : s.Numbered) (hd : s.ledger.Distinct)
    (ha : (s.room.guests.map Party.actor).Nodup) (x : Act) : (s.act x).Numbered := by
  have hcut : ∀ party, ∀ u, s.underWay = some u → u.call.number < s.begun ∧
      ∀ call, .call call ∈ s.room.guests.erase party → call.number ≠ u.call.number :=
    fun party u hu => (h u hu).imp_right fun hne call hm => hne call (List.mem_of_mem_erase hm)
  suffices hledger : ∀ {l : Ledger}, Exchange s x l → ∀ u, l.underWay = some u →
      u.call.number < l.begun ∧ ∀ call, .call call ∈ l.guests → call.number ≠ u.call.number from
    hledger (s.act_exchange x)
  intro l e
  cases e with
  | submit label request before held reply hg =>
    intro u hu
    obtain ⟨hlt, hne⟩ := h u hu
    refine ⟨Nat.lt_succ_of_lt hlt, fun call hm => ?_⟩
    rcases List.mem_cons.1 (hg.mem_iff.1 hm) with he | hm
    · cases he
      exact Nat.ne_of_gt hlt
    · exact hne call hm
  | sit now hl hu hg =>
    intro u hu
    refine (h u hu).imp_right fun hne call hm => hne call ?_
    exact (List.mem_cons.1 (hg.mem_iff.1 hm)).resolve_left nofun
  | answer label hu =>
    intro u hu'
    obtain rfl := Option.some.inj hu'
    exact h ⟨_, false⟩ hu
  | @issue now call hg hu ho =>
    intro u hu'
    obtain rfl := Option.some.inj hu'
    refine ⟨hd.number_lt call hg, fun other hm he => ?_⟩
    have hm' : .call other ∈ s.room.guests.erase (.call call) := hm
    have heq : Party.call other = .call call :=
      List.inj_on_of_nodup_map ha (List.mem_of_mem_erase hm') hg (congrArg Actor.call he)
    have hnodup : s.room.guests.Nodup := hd.nodup
    exact hnodup.not_mem_erase (heq ▸ hm')
  | @turnAway now call => exact hcut (.call call)
  | @giveUp call => exact hcut (.call call)
  | rise => exact hcut .listener
  | fail | register | abandon =>
    intro u hu'
    cases (show none = some u from hu')
  | _ => exact h

/-! ## What keeps the turns orderly -/

section

variable (h : s.Orderly)
include h

/-- Whatever else changes. -/
theorem Orderly.frame (ha : s'.agenda = s.agenda) (hg : s'.room.guests = s.room.guests)
    (hu : s'.underWay = s.underWay) (hl : s'.listener = s.listener)
    (hs : s'.stopping = s.stopping) : s'.Orderly where
  calls := by
    rw [hg, ha]
    exact h.calls
  alone := by
    rw [hu, hg, ha]
    exact h.alone
  answered := by
    rw [hu, Unroused, hg, ha]
    exact h.answered
  listener := by
    rw [hl, hs, ha]
    exact h.listener

theorem Orderly.rouse_wait (ticket : Ticket) : (s.rouse (.wait ticket)).Orderly where
  calls call hm hb := (Agenda.Before.of_rouse hb).elim (h.calls call hm) fun hw => nomatch hw.1
  alone hu p hp q hq hpa hqa := h.alone hu p hp q hq
    ((Agenda.mem_rouse.1 hpa).resolve_right (p.actor_ne_wait ticket))
    ((Agenda.mem_rouse.1 hqa).resolve_right (q.actor_ne_wait ticket))
  answered call hu := by
    obtain ⟨hn, hroom⟩ := h.answered call hu
    refine ⟨(s.rouses_rouse _).next? hn, fun p hp hpa => ?_⟩
    exact hroom p hp ((Agenda.mem_rouse.1 hpa).resolve_right (p.actor_ne_wait ticket))
  listener hl hs hb := (Agenda.Before.of_rouse hb).elim (h.listener hl hs) fun hw => nomatch hw.1

theorem Orderly.rouseWaits (ws : List Wait) : (s.rouseWaits ws).Orderly := by
  induction ws generalizing s with
  | nil => exact h
  | cons w ws ih => exact ih (h.rouse_wait w.ticket)

theorem Orderly.rouseDecided : s.rouseDecided.Orderly :=
  h.rouseWaits _

/-- The pump is roused. -/
theorem Orderly.rouse_pump (hn : s.Unroused) : (s.rouse .pump).Orderly where
  calls call hm hb := (Agenda.Before.of_rouse hb).elim (h.calls call hm) fun hp =>
    hn _ hm hp.2.2
  alone _ p hp _ _ hpa _ := absurd
    ((Agenda.mem_rouse.1 hpa).resolve_right p.actor_ne_pump) (hn p hp)
  answered call hu := ⟨(s.rouses_rouse _).next? (h.answered call hu).1, fun p hp hpa =>
    hn p hp ((Agenda.mem_rouse.1 hpa).resolve_right p.actor_ne_pump)⟩
  listener hl hs hb := (Agenda.Before.of_rouse hb).elim (h.listener hl hs) fun hp => nomatch hp.1

/-- The first one in the waiting room is called, while nobody of it is on the agenda. -/
theorem Orderly.openGate (hn : s.Unroused) (ha : ¬ s.Answered)
    (hactors : (s.room.guests.map Party.actor).Nodup)
    (hready : .listener ∈ s.room.guests → s.listener ≠ .ready) : s.openGate.Orderly := by
  have hguests := s.room.guests_callFirst
  unfold Dispatcher.openGate
  split
  · rename_i party room hc
    rw [hc] at hguests
    have hparty : party ∈ s.room.guests := Room.mem_guests_of_callFirst hc
    have hnew : ∀ p ∈ s.room.guests, p.actor ∈ (s.agenda.rouse party.actor).toList →
        p.actor = party.actor := fun p hp hpa => (Agenda.mem_rouse.1 hpa).resolve_left (hn p hp)
    refine ⟨⟨fun call hm hb => ?_, fun _ p hp q hq hpa hqa => ?_, fun call hu => ?_⟩,
      fun hl hs hb => ?_⟩
    · exact (Agenda.Before.of_rouse hb).elim (h.calls call (hguests ▸ hm)) fun hp =>
        party.actor_ne_pump hp.1.symm
    · replace hp : p ∈ s.room.guests := hguests ▸ hp
      replace hq : q ∈ s.room.guests := hguests ▸ hq
      exact List.inj_on_of_nodup_map hactors hp hq ((hnew p hp hpa).trans (hnew q hq hqa).symm)
    · exact absurd ⟨call, hu⟩ ha
    · refine (Agenda.Before.of_rouse hb).elim (h.listener hl hs) fun hp => ?_
      exact hready (Party.eq_listener hp.1.symm ▸ hparty) hl
  · exact h

/-- Where nobody needs them any more no call waits. -/
theorem Orderly.stopIfAbandoned : s.stopIfAbandoned.Orderly := by
  unfold Dispatcher.stopIfAbandoned
  split
  · rename_i hab
    have huse := abandoned_iff.1 hab
    have hcalls : ∀ call, .call call ∉ s.room.guests := fun call hm =>
      huse (.inr (.inr (.inr (.inr ⟨call, hm⟩))))
    have hguests : s.requestStop.room.guests = s.room.guests := congrArg Room.guests
      s.room_requestStop
    have hunder : s.requestStop.underWay = s.underWay := congrArg Core.underWay s.core_requestStop
    have honly : ∀ p ∈ s.requestStop.room.guests, p = .listener := fun p hp => by
      cases p with
      | call call => exact absurd (hguests ▸ hp) (hcalls call)
      | listener => rfl
    refine ⟨⟨fun call hm => absurd (hguests ▸ hm) (hcalls call), fun _ p hp q hq _ _ => ?_,
      fun call hu => ?_⟩, fun _ hs => ?_⟩
    · exact (honly p hp).trans (honly q hq).symm
    · rw [hunder] at hu
      exact absurd (.inr (.inr (.inr (.inl (by simp [hu]))))) huse
    · rw [s.stopping_requestStop] at hs
      cases hs
  · exact h

end

/-- Pump and listener are asked to stop while nobody of the waiting room is on the agenda. -/
theorem orderly_requestStop (h : s.Orderly) (hn : s.Unroused)
    (hready : .listener ∈ s.room.guests → s.listener ≠ .ready) : s.requestStop.Orderly := by
  unfold requestStop
  split
  · exact h
  · have hpump : (({ s with stopping := true } : Dispatcher).rouse .pump).Orderly := by
      have hframe : ({ s with stopping := true } : Dispatcher).Orderly :=
        ⟨⟨h.calls, h.alone, h.answered⟩, fun _ hs => nomatch hs⟩
      exact hframe.rouse_pump hn
    unfold rouseListener
    split
    · rename_i hl
      have hnew : ∀ p ∈ s.room.guests, p.actor ∉ ((s.agenda.rouse .pump).rouse .listener).toList :=
        fun p hp hpa => by
          rcases Agenda.mem_rouse.1 hpa with hpa | hpa
          · exact hn p hp ((Agenda.mem_rouse.1 hpa).resolve_right p.actor_ne_pump)
          · exact hready (Party.eq_listener hpa ▸ hp) hl
      refine ⟨⟨fun call hm hb => hnew _ hm hb.mem_left, fun _ p hp _ _ hpa _ =>
        absurd hpa (hnew p hp), fun call hu => ⟨?_, hnew⟩⟩, fun _ hs => nomatch hs⟩
      exact (rouses_rouse _ _).next? (hpump.answered call hu).1
    · exact hpump

/-! ## Moves -/

/-- At a free gate the first one in the waiting room has been called already. -/
theorem openGate_eq_self (h : s.Served) (hu : s.underWay = none) : s.openGate = s := by
  unfold openGate Room.callFirst
  cases hs : s.room.seats with
  | nil => rfl
  | cons seat rest =>
    obtain ⟨place, guest, called⟩ := seat
    obtain rfl : called = true := h hu ⟨place, guest, called⟩ (by simp [hs])
    rfl

/-- In its turn the pump rouses the listener, which comes last. -/
theorem ordered_movePump? (h : s.Ordered) (hst : Steady now s)
    (hnext : s.agenda.next? = some .pump) (hm : s.movePump? = some s') : s'.Ordered := by
  obtain ⟨feed, -, rfl⟩ := Option.map_eq_some_iff.1 hm
  unfold rouseListener
  split
  · rename_i hl
    replace hl : s.listener = .ready := hl
    have hn : ∀ p ∈ s.room.guests, p.actor ∈ (s.agenda.rouse .listener).toList →
        p.actor ∈ s.agenda.toList := fun p hp hpa => (Agenda.mem_rouse.1 hpa).resolve_right
      fun he => hst.not_ready (Party.eq_listener he ▸ hp) hl
    have hnext' : (s.agenda.rouse .listener).next? = some .pump :=
      (s.rouses_rouse .listener).next? hnext
    refine ⟨⟨fun call hm hb => ?_, fun hu p hp q hq hpa hqa => ?_, fun call hu => ?_⟩,
      fun _ hs hb => ⟨hnext', ?_⟩⟩
    · exact (Agenda.Before.of_rouse hb).elim (h.calls call hm) fun he => nomatch he.1
    · exact h.alone hu p hp q hq (hn p hp hpa) (hn q hq hqa)
    · exact nomatch hnext.symm.trans (h.answered call hu).1
    · by_cases hmem : .listener ∈ s.agenda.toList
      · have hb : s.agenda.Before .pump .listener := Agenda.before_of_next? hnext hmem nofun
        show (s.agenda.rouse .listener).toList.getLast? = _
        rw [Agenda.rouse_of_mem hmem]
        exact (h.listener hl hs hb).2
      · show (s.agenda.rouse .listener).toList.getLast? = _
        rw [Agenda.toList_rouse_of_not_mem hmem, List.getLast?_concat]
  · exact ⟨⟨h.calls, h.alone, h.answered⟩, h.listener⟩

/-- Whoever has left the waiting room for the gate leaves nobody there who is on the agenda. -/
theorem Marshalled.unroused_leave (h : s.Marshalled) (hd : s.ledger.Distinct)
    (hu : s.underWay = none) {party : Party} (hp : party ∈ s.room.guests)
    (hmem : party.actor ∈ s.agenda.toList) :
    ({ s with room := s.room.leave party } : Dispatcher).Unroused := by
  intro other ho hother
  have ho' : other ∈ s.room.guests.erase party := s.room.guests_leave party ▸ ho
  obtain rfl : other = party :=
    h.alone hu other (List.mem_of_mem_erase ho') party hp hother hmem
  have hnodup : s.room.guests.Nodup := hd.nodup
  exact hnodup.not_mem_erase ho'

/-- A state without anybody of the waiting room on the agenda. -/
theorem Orderly.of_unroused {s' : Dispatcher} (hn : s'.Unroused) (ha : ¬ s'.Answered)
    (hl : s'.listener = .ready → s'.stopping = false → ¬ s'.agenda.Before .pump .listener) :
    s'.Orderly :=
  ⟨⟨fun _ hm hb => hn _ hm hb.mem_left, fun _ p hp _ _ hpa _ => absurd hpa (hn p hp),
    fun call hu => absurd ⟨call, hu⟩ ha⟩, hl⟩

theorem unroused_rouseWaits (hn : s.Unroused) (ws : List Wait) : (s.rouseWaits ws).Unroused := by
  intro p hp hpa
  rcases Agenda.mem_rouseAll.1 hpa with hpa | hpa
  · exact hn p hp hpa
  · obtain ⟨w, -, hw⟩ := List.mem_map.1 hpa
    exact p.actor_ne_wait w.ticket hw.symm

/-- A signal is handled in the turn of the listener. -/
theorem orderly_handle (event : JobRemoved) (hnext : s.agenda.next? = some .listener)
    (hn : s.room.callFirst.1 ≠ none → s.Unroused) (h : s.Marshalled) (ha : ¬ s.Answered)
    (hactors : (s.room.guests.map Party.actor).Nodup) (hroom : .listener ∉ s.room.guests) :
    (s.handle event).Orderly := by
  let t : Dispatcher := { s with
    table := (s.table.resolve event.jobPath event.result).2
    listener := .ready }
  obtain ⟨waits, hwaits⟩ := s.handle_eq event
  have hready : t.Orderly :=
    ⟨⟨h.calls, h.alone, h.answered⟩, fun _ _ hb => Agenda.not_before_next? hnext hb⟩
  have ht : (t.rouseWaits waits).Orderly := hready.rouseWaits waits
  rw [hwaits]
  by_cases hc : s.room.callFirst.1 = none
  · have hself : (t.rouseWaits waits).openGate = t.rouseWaits waits := by
      unfold openGate
      split
      · rename_i party room hcall
        replace hcall : s.room.callFirst = (some party, room) := hcall
        rw [hcall] at hc
        cases hc
      · rfl
    rw [hself]
    exact ht
  · exact ht.openGate (unroused_rouseWaits (s := t) (hn hc) _) ha hactors fun hm => absurd hm hroom

theorem ordered_moveListener? (h : s.Ordered) (hst : Steady now s)
    (hnext : s.agenda.next? = some .listener) (hm : s.moveListener? = some s') : s'.Ordered := by
  have hs : s.Orderly := h.orderly (by simp [hnext])
  have hfree : s.underWay = none → ¬ s.Answered := fun hu ⟨call, hc⟩ => by
    rw [hu] at hc
    cases hc
  have hroom : s.listener = .ready → .listener ∉ s.room.guests := fun hl hm =>
    hst.not_ready hm hl
  refine Orderly.ordered ?_
  cases moveListener?_cases hm with
  | skip => exact hs.frame rfl rfl rfl rfl rfl
  | @take event feed hl hu ht =>
    refine orderly_handle (s := { s with feed }) event hnext (fun hc => ?_)
      ⟨h.calls, h.alone, h.answered⟩ (hfree hu) hst.actors (hroom hl)
    -- the first one in the waiting room, if there is one, was called when the gate became free
    refine absurd ?_ hc
    show s.room.callFirst.1 = none
    unfold Room.callFirst
    split
    · rename_i place guest rest hs
      exact absurd (hst.served hu ⟨place, guest, false⟩ (by simp [hs])) (by simp)
    · rfl
  | sit hl hu ht =>
    have ha : ¬ s.Answered := fun ⟨call, hc⟩ => by
      have hn := (h.answered call hc).1
      rw [hnext] at hn
      cases hn
    refine ⟨⟨fun call hm hb => ?_, fun hu' => absurd hu' hu, fun call hc => absurd ⟨call, hc⟩ ha⟩,
      fun hl' => nomatch hl'⟩
    exact h.calls call ((s.room.mem_guests_enter.1 hm).resolve_left nofun) hb
  | @rise event hl hu =>
    have hmem : .listener ∈ s.room.guests := hst.distinct.listener_mem_iff.2 (by
      show s.listener.isSeated = true
      rw [hl]
      rfl)
    have hguests := s.room.guests_leave .listener
    have hsub : ∀ p ∈ (s.room.leave .listener).guests, p ∈ s.room.guests := fun p hp =>
      List.mem_of_mem_erase (hguests ▸ hp)
    have hnodup : s.room.guests.Nodup := hst.distinct.nodup
    refine orderly_handle (s := { s with room := s.room.leave .listener }) event hnext
      (fun _ => h.unroused_leave hst.distinct hu hmem (Agenda.mem_of_next? hnext)) ?_ (hfree hu)
      ?_ ?_
    · refine ⟨fun call hm => h.calls call (hsub _ hm), fun _ p hp q hq => ?_, fun call hc =>
        absurd ⟨call, hc⟩ (hfree hu)⟩
      exact h.alone hu p (hsub p hp) q (hsub q hq)
    · exact hguests ▸ hst.actors.sublist (List.erase_sublist.map _)
    · rw [hguests]
      exact hnodup.not_mem_erase
  | stop =>
    refine Orderly.rouseDecided ⟨⟨h.calls, h.alone, h.answered⟩, fun hl => nomatch hl⟩

/-- A call ends without a job, and the gate is free. -/
theorem orderly_fail (hn : s.Unroused) (ha : ¬ s.Answered)
    (hl : s.listener = .ready → s.stopping = false → ¬ s.agenda.Before .pump .listener)
    (hactors : (s.room.guests.map Party.actor).Nodup)
    (hready : .listener ∈ s.room.guests → s.listener ≠ .ready) (label : String) (e : Error) :
    ((s.note label (.failed e)).openGate).stopIfAbandoned.Orderly := by
  have hs : (s.note label (.failed e)).Orderly := .of_unroused hn ha hl
  exact (hs.openGate hn ha hactors hready).stopIfAbandoned

theorem orderly_takeUp (h : s.Orderly) (hst : Steady now s) {call : Call}
    (hu : s.underWay = some ⟨call, true⟩) : (s.takeUp call).Orderly := by
  have hn := (h.answered call hu).2
  have hready : .listener ∈ s.room.guests → s.listener ≠ .ready := hst.not_ready
  have ha : ∀ t : Dispatcher, t.underWay = none → ¬ t.Answered := fun t ht ⟨call, hc⟩ => by
    rw [ht] at hc
    cases hc
  refine takeUp_cases (motive := Orderly) s call (fun e _ => ?fail) fun path _ _ => ?register
  case fail =>
    exact orderly_fail (s := { s with underWay := none, numbered := (s.answer call.reply).2 }) hn
      (ha _ rfl) h.listener hst.actors hready _ _
  case register =>
    let t : Dispatcher := { s with
      underWay := none
      numbered := (s.answer call.reply).2
      table := (s.table.register path).2 }
    have ht : t.Orderly := .of_unroused hn (ha _ rfl) h.listener
    have hgate : t.rouseDecided.openGate.Orderly :=
      ht.rouseDecided.openGate (unroused_rouseWaits (s := t) hn _) (ha _ rfl) hst.actors hready
    have hkeep : (t.rouseDecided.openGate.keepHandle call.label
        ⟨call.request.unit, ⟨path, s.table.registered⟩⟩).Orderly := by
      unfold keepHandle
      split <;> exact hgate.frame rfl rfl rfl rfl rfl
    exact Orderly.stopIfAbandoned (hkeep.frame rfl rfl rfl rfl rfl)

theorem orderly_issue (call : Call) (hnext : s.agenda.next? = some (.call call.number))
    (hn : s.Unroused) (hu : s.underWay = none)
    (hl : s.listener = .ready → s.stopping = false → ¬ s.agenda.Before .pump .listener)
    (hactors : (s.room.guests.map Party.actor).Nodup)
    (hready : .listener ∈ s.room.guests → s.listener ≠ .ready) : (s.issue call).Orderly := by
  have ha : ¬ s.Answered := fun ⟨call, hc⟩ => by
    rw [hu] at hc
    cases hc
  unfold issue
  split
  · exact orderly_fail hn ha hl hactors hready _ _
  · let t : Dispatcher := { s with
      sent := s.sent ++ [ManagerCall.job call.request]
      underWay := some ⟨call, !call.held⟩
      feed := s.feed.emit call.before }
    have ht : t.Orderly := by
      refine ⟨⟨fun _ hm hb => hn _ hm hb.mem_left, (fun hu => nomatch hu), fun other ho => ?_⟩, hl⟩
      obtain rfl : call = other := congrArg CallUnderWay.call (Option.some.inj ho)
      exact ⟨hnext, hn⟩
    unfold emitSignals
    dsimp only
    split
    · exact ht
    · exact ht.rouse_pump hn

theorem ordered_moveCall? (h : s.Ordered) (hst : Steady now s) {number : Nat}
    (hnext : s.agenda.next? = some (.call number)) (hm : s.moveCall? number = some s') :
    s'.Ordered := by
  have hs : s.Orderly := h.orderly (by simp [hnext])
  refine Orderly.ordered ?_
  cases moveCall?_cases hm with
  | takeUp hu => exact orderly_takeUp hs hst hu
  | @issue call hu hcall =>
    obtain ⟨hmem, rfl⟩ := mem_of_seatedCall? hcall
    have hguests := s.room.guests_leave (.call call)
    refine orderly_issue (s := { s with room := s.room.leave (.call call) }) call hnext
      (h.unroused_leave hst.distinct hu hmem (Agenda.mem_of_next? hnext)) hu hs.listener ?_ ?_
    · exact hguests ▸ hst.actors.sublist (List.erase_sublist.map _)
    · exact fun hm => hst.not_ready (List.mem_of_mem_erase (hguests ▸ hm))

theorem Ordered.move? (h : s.Ordered) (hst : Steady now s) {actor : Actor}
    (hnext : s.agenda.next? = some actor) (hm : s.move? now actor = some s') : s'.Ordered := by
  cases actor with
  | pump => exact ordered_movePump? h hst hnext hm
  | listener => exact ordered_moveListener? h hst hnext hm
  | call number => exact ordered_moveCall? h hst hnext hm
  | wait ticket =>
    obtain ⟨w, -, -, outcome, -, rfl⟩ := moveWait?_cases hm
    have hs : s.Orderly := h.orderly (by simp [hnext])
    exact Orderly.ordered (hs.frame rfl rfl rfl rfl rfl)

theorem Ordered.pause (h : s.Ordered) {actor : Actor} (hnext : s.agenda.next? = some actor)
    (hm : s.move? now actor = none) : (s.pause actor).Ordered := by
  have hguests := s.room_guests_pause actor
  have hsub : (s.pause actor).agenda.toList ⊆ s.agenda.toList := List.tail_subset _
  have hunder : (s.pause actor).underWay = s.underWay := rfl
  have ha : ¬ s.Answered := fun ⟨call, hc⟩ => by
    obtain rfl : actor = .call call.number :=
      Option.some.inj (hnext.symm.trans (h.answered call hc).1)
    have hsome := isSome_move?_answered hc now
    rw [hm] at hsome
    cases hsome
  refine Orderly.ordered ⟨⟨fun call hc hb => ?_, fun hu p hp q hq hpa hqa => ?_, fun call hc => ?_⟩,
    fun hl hs hb => ?_⟩
  · exact h.calls call (hguests ▸ hc) hb.of_dismiss
  · exact h.alone hu p (hguests ▸ hp) q (hguests ▸ hq) (hsub hpa) (hsub hqa)
  · exact absurd ⟨call, hc⟩ ha
  · -- the pump has left the agenda if the listener stood behind it
    obtain ⟨hpump, -⟩ := h.listener hl hs hb.of_dismiss
    have hnodup := s.agenda.nodup
    rw [Agenda.toList_eq_cons hpump, List.nodup_cons] at hnodup
    exact hnodup.1 hb.mem_left

theorem Ordered.step? (h : s.Ordered) (hst : Steady now s) (hs : s.step? now = some s') :
    s'.Ordered := by
  obtain ⟨actor, hnext, ⟨hm, -⟩ | ⟨hm, rfl⟩⟩ := step?_cases hs
  · exact h.move? hst hnext hm
  · exact h.pause hnext hm

/-! ## Calls of the interface -/

namespace Rest

section

variable (h : Rest now s)
include h

theorem unroused : s.Unroused := fun _ _ hp => by
  rw [h.idle] at hp
  cases hp

theorem not_answered : ¬ s.Answered := fun ⟨call, hu⟩ =>
  h.not_needs (.call call.number) (.inl ⟨call, hu, rfl⟩)

theorem orderly : s.Orderly :=
  .of_unroused h.unroused h.not_answered fun _ _ hb => by
    have hm := hb.mem_left
    rw [h.idle] at hm
    cases hm

/-- Only the one who is roused is on the agenda. -/
theorem eq_of_mem_rouse {actor other : Actor} (hm : other ∈ (s.agenda.rouse actor).toList) :
    other = actor :=
  (Agenda.mem_rouse.1 hm).resolve_left fun hm => by
    rw [h.idle] at hm
    cases hm

theorem orderly_start (label : String) (request : Except Error JobRequest) (before : List Signal)
    (held : Bool) (reply : Reply) : (s.start label request before held reply).Orderly := by
  have hst : Steady now (s.start label request before held reply) :=
    h.toSteady.act (x := .start label request before held reply) rfl
  cases request with
  | error e => exact h.orderly.frame rfl rfl rfl rfl rfl
  | ok request =>
    refine ⟨⟨fun call _ hb => ?_, fun _ p hp q hq hpa hqa => ?_, fun call hu => ?_⟩,
      fun _ _ hb => ?_⟩
    · exact (Agenda.Before.of_rouse hb).elim (fun hb => by
        have hm := hb.mem_left
        rw [h.idle] at hm
        cases hm) fun he => nomatch he.1
    · exact List.inj_on_of_nodup_map hst.actors hp hq
        ((h.eq_of_mem_rouse hpa).trans (h.eq_of_mem_rouse hqa).symm)
    · exact absurd ⟨call, hu⟩ h.not_answered
    · exact nomatch (h.eq_of_mem_rouse hb.mem_left)

/-- The manager answers the call under way, which has its turn then. -/
theorem orderly_release (hn : s.Numbered) (label : String) : (s.release label).2.Orderly := by
  generalize hr : (s.release label).2 = s'
  cases release_cases hr with
  | @answer call hu =>
    have hunroused : ({ s with underWay := some ⟨call, true⟩ }.rouse (.call call.number) :
        Dispatcher).Unroused := fun p hp hpa => by
      cases p with
      | listener => exact nomatch h.eq_of_mem_rouse hpa
      | call other => exact (hn _ hu).2 other hp (Actor.call.inj (h.eq_of_mem_rouse hpa))
    refine ⟨⟨fun _ hm hb => hunroused _ hm hb.mem_left, (fun hu => nomatch hu),
      fun other ho => ?_⟩, fun _ _ hb => nomatch h.eq_of_mem_rouse hb.mem_left⟩
    obtain rfl : call = other := congrArg CallUnderWay.call (Option.some.inj ho)
    refine ⟨?_, hunroused⟩
    have hnot : .call call.number ∉ s.agenda.toList := by simp [h.idle]
    show (s.agenda.rouse _).toList.head? = _
    rw [Agenda.toList_rouse_of_not_mem hnot, h.idle]
    rfl
  | kill => exact Orderly.stopIfAbandoned (h.orderly.frame rfl rfl rfl rfl rfl)
  | missing => exact h.orderly

theorem orderly_wait (clock : Nat) (label : String) (limit : Option Duration) :
    (s.wait clock label limit).2.Orderly := by
  generalize hw : (s.wait clock label limit).2 = s'
  cases wait_cases hw with
  | missing => exact h.orderly
  | refuse => exact h.orderly.frame rfl rfl rfl rfl rfl
  | @enter handle =>
    have hframe : ({ s with
        handles := s.handles.remove label
        waits := s.waits ++ [⟨label, handle.ticket, limit.map fun d =>
          ⟨d, clock + d.toNanos⟩⟩] } : Dispatcher).Orderly := h.orderly.frame rfl rfl rfl rfl rfl
    exact hframe.rouse_wait handle.ticket

theorem orderly_giveUpSeat (party : Party) : (s.giveUpSeat party).Orderly := by
  have hguests := s.room.guests_leave party
  have hsub : ∀ p ∈ (s.room.leave party).guests, p ∈ s.room.guests := fun p hp =>
    List.mem_of_mem_erase (hguests ▸ hp)
  have hunroused : ({ s with room := s.room.leave party } : Dispatcher).Unroused := fun p hp =>
    h.unroused p (hsub p hp)
  have hleave : ({ s with room := s.room.leave party } : Dispatcher).Orderly :=
    .of_unroused hunroused h.not_answered h.orderly.listener
  unfold giveUpSeat
  split
  · refine hleave.openGate hunroused h.not_answered ?_ fun hm => h.not_ready (hsub _ hm)
    exact hguests ▸ h.actors.sublist (List.erase_sublist.map _)
  · exact hleave

theorem orderly_drop (label : String) : (s.drop label).2.Orderly := by
  generalize hd : (s.drop label).2 = s'
  cases drop_cases hd with
  | underWay =>
    have ha : ¬ ({ s with underWay := none } : Dispatcher).Answered := fun ⟨_, hu⟩ => nomatch hu
    have hfree : ({ s with underWay := none } : Dispatcher).Orderly :=
      .of_unroused h.unroused ha h.orderly.listener
    exact (hfree.openGate h.unroused ha h.actors h.not_ready).stopIfAbandoned
  | seat => exact (h.orderly_giveUpSeat _).stopIfAbandoned
  | kill => exact Orderly.stopIfAbandoned (h.orderly.frame rfl rfl rfl rfl rfl)
  | handle | wait => exact h.orderly.frame rfl rfl rfl rfl rfl
  | missing => exact h.orderly

/-- The calls of the interface find all waiting. -/
theorem orderly_act (hn : s.Numbered) {x : Act} (hx : x.isCall = true) : (s.act x).Orderly := by
  cases x with
  | start label request before held reply => exact h.orderly_start label request before held reply
  | kill label request held fail =>
    cases request <;> cases held <;> exact h.orderly.frame rfl rfl rfl rfl rfl
  | release label => exact h.orderly_release hn label
  | wait clock label limit => exact h.orderly_wait clock label limit
  | drop label => exact h.orderly_drop label
  | emit signals =>
    show (s.emitSignals signals).Orderly
    unfold emitSignals
    dsimp only
    split
    · exact h.orderly.frame rfl rfl rfl rfl rfl
    · exact Orderly.rouse_pump (h.orderly.frame rfl rfl rfl rfl rfl) h.unroused
  | disconnect => exact Orderly.rouse_pump (h.orderly.frame rfl rfl rfl rfl rfl) h.unroused
  | requestStop => exact orderly_requestStop h.orderly h.unroused h.not_ready
  | dropHolder | withGuests => exact Orderly.stopIfAbandoned (h.orderly.frame rfl rfl rfl rfl rfl)
  | addHolder | clear => exact h.orderly.frame rfl rfl rfl rfl rfl
  | alarm | move | pause => cases hx

end

end Rest

end Dispatcher

end SystemdControl
