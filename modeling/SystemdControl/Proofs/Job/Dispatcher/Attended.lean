import SystemdControl.Proofs.Job.Dispatcher.Settling
import SystemdControl.Proofs.Job.Dispatcher.Turns

/-!
# Nobody among the jobs is forgotten

Whoever can go on whoever else does, and whoever was called to the gate, has to have a turn. Every
change of a dispatcher rouses those who have to have one after it and had not before.

* `Dispatcher.Needs` says who has to have a turn, and `Dispatcher.Attended` that all of them are on
  the agenda;
* `Dispatcher.Wakes` is what keeps that, one lemma a function: `Dispatcher.wakes_move?` for the one
  whose turn it is, `Dispatcher.wakes_act` for the calls of the interface.
-/

namespace SystemdControl

/-! ## The waiting room -/

namespace Room

variable {α : Type} {r : Room α} {guest : α}

/-- Who comes in is the only one who is new. -/
theorem mem_seats_enter {called : Bool} {seat : Seat α}
    (h : seat ∈ (r.enter guest called).seats) :
    seat ∈ r.seats ∨ seat = ⟨r.nextPlace, guest, called⟩ := by
  rcases List.mem_append.1 h with h | h
  · exact .inl ((List.takeWhile_prefix _).subset h)
  · rcases List.mem_cons.1 h with rfl | h
    · exact .inr rfl
    · exact .inl ((List.dropWhile_suffix _).subset h)

/-- Only the one who is called now has been called in addition. -/
theorem called_callFirst {seat : Seat α} (h : seat ∈ r.callFirst.2.seats)
    (hc : seat.called = true) :
    (seat ∈ r.seats) ∨ r.callFirst.1 = some seat.guest := by
  unfold callFirst at h ⊢
  split
  · rename_i place first rest hs
    simp only [hs] at h
    rcases List.mem_cons.1 h with rfl | h
    · exact .inr rfl
    · exact .inl (hs ▸ List.mem_cons_of_mem _ h)
  · rename_i hn
    split at h
    · rename_i place first rest hs
      exact absurd hs (hn place first rest)
    · exact .inl h

variable [DecidableEq α]

theorem mem_seats_leave {seat : Seat α} (h : seat ∈ (r.leave guest).seats) : seat ∈ r.seats := by
  unfold leave at h
  split at h
  · exact h
  · exact List.mem_of_mem_erase h

end Room

namespace Dispatcher

variable {s s' s'' : Dispatcher} {now : Nat}

/-! ## Who is called on -/

/-- Someone in the waiting room was called to the gate and has not come to it since. -/
def Called (s : Dispatcher) (actor : Actor) : Prop :=
  ∃ seat ∈ s.room.seats, seat.called = true ∧ seat.guest.actor = actor

/-- Someone can go on whoever holds the gate. -/
def Able (now : Nat) (s : Dispatcher) : Actor → Prop
  | .pump => s.feed.pumping = true ∧
      (s.feed.stream ≠ [] ∨ s.feed.ended = true ∨ s.stopping = true)
  | .listener => s.listener = .ready ∧
      (s.feed.queue ≠ [] ∨ s.stopping = true ∨ s.feed.pumping = false)
  | .call number => ∃ call, s.underWay = some ⟨call, true⟩ ∧ call.number = number
  | .wait ticket => ∃ w ∈ s.waits, w.ticket = ticket ∧
      (s.table.closed = true ∨ w.isOver now = true)

/-- Someone has to have a turn. -/
def Needs (now : Nat) (s : Dispatcher) (actor : Actor) : Prop :=
  s.Able now actor ∨ s.Called actor

/-- Whoever has to have a turn is on the agenda. -/
def Attended (now : Nat) (s : Dispatcher) : Prop :=
  ∀ actor, s.Needs now actor → actor ∈ s.agenda.toList

/-- Nobody has left the agenda, and whoever has to have a turn now and had not before is on it. -/
structure Wakes (now : Nat) (s s' : Dispatcher) : Prop where
  agenda : Rouses s s'
  needs : ∀ actor, s'.Needs now actor → actor ∈ s'.agenda.toList ∨ s.Needs now actor

theorem Attended.wakes (h : s.Attended now) (hw : Wakes now s s') : s'.Attended now :=
  fun actor hn => (hw.needs actor hn).elim id fun hn => hw.agenda.subset (h actor hn)

namespace Wakes

@[refl] theorem refl (now : Nat) (s : Dispatcher) : Wakes now s s :=
  ⟨.refl s, fun _ h => .inr h⟩

theorem trans (h : Wakes now s s') (h' : Wakes now s' s'') : Wakes now s s'' where
  agenda := h.agenda.trans h'.agenda
  needs actor hn := (h'.needs actor hn).elim .inl fun hn =>
    (h.needs actor hn).imp_left fun hm => h'.agenda.subset hm

/-- It is enough that nobody else has to have a turn. -/
theorem of_needs (ha : Rouses s s') (hn : ∀ actor, s'.Needs now actor → s.Needs now actor) :
    Wakes now s s' :=
  ⟨ha, fun actor h => .inr (hn actor h)⟩

/-- Who is roused does not have to be looked at. -/
theorem of_rouse (actor : Actor)
    (hn : ∀ other, other ≠ actor → s'.Needs now other → s.Needs now other)
    (ha : s'.agenda = s.agenda.rouse actor) : Wakes now s s' where
  agenda := by
    rw [Rouses, ha]
    exact Agenda.toList_prefix_rouse actor
  needs other h := by
    by_cases he : other = actor
    · rw [ha, he]
      exact .inl (Agenda.mem_rouse.2 (.inr rfl))
    · exact .inr (hn other he h)

end Wakes

section
variable (now : Nat) (s : Dispatcher)

theorem wakes_note (label : String) (event : JobEvent) : Wakes now s (s.note label event) :=
  .of_needs (.refl s) fun _ h => h

theorem wakes_rouse (actor : Actor) : Wakes now s (s.rouse actor) :=
  .of_needs (s.rouses_rouse actor) fun _ h => h

theorem wakes_rouseWaits (waits : List Wait) : Wakes now s (s.rouseWaits waits) :=
  .of_needs (s.rouses_rouseWaits waits) fun _ h => h

theorem wakes_rouseDecided : Wakes now s s.rouseDecided :=
  wakes_rouseWaits now s _

theorem wakes_rouseListener : Wakes now s s.rouseListener := by
  unfold rouseListener
  split
  · exact wakes_rouse now s .listener
  · exact .refl now s

theorem wakes_openGate : Wakes now s s.openGate := by
  unfold openGate
  split
  · rename_i party room hc
    refine .of_rouse party.actor (fun other hne hn => ?_) rfl
    refine hn.imp_right fun ⟨seat, hs, hcalled, ha⟩ => ?_
    rcases Room.called_callFirst (r := s.room) (hc ▸ hs) hcalled with hs | he
    · exact ⟨seat, hs, hcalled, ha⟩
    · rw [hc] at he
      cases he
      exact absurd ha.symm hne
  · exact .refl now s

omit now in
/-- The listener is roused if it waits for signals. -/
theorem mem_agenda_rouseListener (hl : s.listener = .ready) :
    .listener ∈ s.rouseListener.agenda.toList := by
  rw [rouseListener, hl]
  exact Agenda.mem_rouse.2 (.inr rfl)

theorem wakes_requestStop : Wakes now s s.requestStop := by
  unfold requestStop
  split
  · exact .refl now s
  · let s₁ := ({ s with stopping := true } : Dispatcher).rouse .pump
    have hlistener : Wakes now s₁ s₁.rouseListener := wakes_rouseListener now s₁
    refine ⟨(rouses_rouse { s with stopping := true } .pump).trans hlistener.agenda,
      fun actor hn => (hlistener.needs actor hn).elim .inl fun hn => ?_⟩
    cases actor with
    | pump => exact .inl (hlistener.agenda.subset (Agenda.mem_rouse.2 (.inr rfl)))
    | listener =>
      rcases hn with ⟨hl, -⟩ | hc
      · exact .inl (mem_agenda_rouseListener s₁ hl)
      · exact .inr (.inr hc)
    | call | wait => exact .inr hn

theorem wakes_stopIfAbandoned : Wakes now s s.stopIfAbandoned := by
  unfold stopIfAbandoned
  split
  · exact wakes_requestStop now s
  · exact .refl now s

theorem wakes_emitSignals (signals : List Signal) : Wakes now s (s.emitSignals signals) := by
  unfold emitSignals
  dsimp only
  split
  · rename_i h
    rw [List.isEmpty_iff.1 h]
    refine .of_needs (.refl s) fun actor hn => ?_
    have hfeed : s.feed.emit [] = s.feed := by
      unfold Feed.emit
      split
      · rw [List.append_nil]
      · rfl
    rw [hfeed] at hn
    exact hn
  · have hsame : (s.feed.emit signals).queue = s.feed.queue ∧
        (s.feed.emit signals).pumping = s.feed.pumping := by
      unfold Feed.emit
      split <;> exact ⟨rfl, rfl⟩
    refine .of_rouse .pump (fun other hne hn => hn.imp_left fun ha => ?_) rfl
    cases other with
    | pump => exact absurd rfl hne
    | listener => exact ⟨ha.1, hsame.1 ▸ hsame.2 ▸ ha.2⟩
    | call | wait => exact ha

theorem wakes_keepHandle (label : String) (handle : JobHandle) :
    Wakes now s (s.keepHandle label handle) := by
  refine .of_needs (rouses_keepHandle s label handle) fun actor hn => ?_
  unfold keepHandle at hn
  split at hn <;> exact hn

end

/-! ## Moves -/

theorem wakes_movePump? (h : s.movePump? = some s') : Wakes now s s' := by
  obtain ⟨feed, hf, rfl⟩ := Option.map_eq_some_iff.1 h
  obtain ⟨hp, hm⟩ := Feed.pump?_cases hf
  have hroused := wakes_rouseListener now { s with feed }
  refine ⟨hroused.agenda, fun actor hn => (hroused.needs actor hn).elim .inl fun hn => ?_⟩
  cases actor with
  | pump =>
    refine .inr (hn.imp_left fun ha => ⟨hp, ?_⟩)
    -- a pump that has ended needs no turn, and one that has not had a signal to move
    cases hm with
    | forward hs | lose hs => exact .inl (by simp [hs])
    | dismiss | finish => exact absurd ha.1 Bool.false_ne_true
  | listener =>
    rcases hn with ⟨hl, -⟩ | hc
    · exact .inl (mem_agenda_rouseListener { s with feed } hl)
    · exact .inr (.inr hc)
  | call | wait => exact .inr hn

/-- Who is on the agenda does not have to be looked at either. -/
theorem Wakes.of_mem {actor : Actor} (hm : actor ∈ s.agenda.toList) (ha : Rouses s s')
    (hn : ∀ other, other ≠ actor → s'.Needs now other → s.Needs now other) : Wakes now s s' where
  agenda := ha
  needs other h := by
    by_cases he : other = actor
    · exact .inl (ha.subset (he ▸ hm))
    · exact .inr (hn other he h)

/-- A listener that is called on handles a signal. -/
theorem wakes_handle (s : Dispatcher) (h : .listener ∈ s.agenda.toList) (event : JobRemoved) :
    Wakes now s (s.handle event) := by
  have htable : Wakes now s { s with
      table := (s.table.resolve event.jobPath event.result).2
      listener := .ready } := by
    refine .of_mem h (.refl s) fun other hne hn => hn.imp_left fun ha => ?_
    cases other with
    | listener => exact absurd rfl hne
    | wait ticket =>
      obtain ⟨w, hw, ht, hover⟩ := ha
      exact ⟨w, hw, ht, by simpa using hover⟩
    | pump | call => exact ha
  obtain ⟨waits, hwaits⟩ := s.handle_eq event
  rw [hwaits]
  exact (htable.trans (wakes_rouseWaits now _ waits)).trans (wakes_openGate now _)

theorem wakes_stopListener : Wakes now s s.stopListener := by
  have hroused := wakes_rouseDecided now { s with listener := .stopped, table := s.table.close }
  refine ⟨hroused.agenda, fun actor hn => ?_⟩
  cases actor with
  | listener => exact .inr (hn.imp_left fun ha => absurd ha.1 nofun)
  | wait ticket =>
    rcases hn with ⟨w, hw, rfl, -⟩ | hc
    · refine .inl (Agenda.mem_rouseAll.2 (.inr (List.mem_map.2 ⟨w, List.mem_filter.2 ⟨hw, ?_⟩, rfl⟩)))
      exact (JobTable.isSome_outcome?_iff ..).2 (.inr rfl)
    · exact .inr (.inr hc)
  | pump | call => exact .inr hn

/-- Who leaves the waiting room takes nobody else along. -/
theorem called_leave {party : Party} {actor : Actor}
    (h : ({ s with room := s.room.leave party } : Dispatcher).Called actor) : s.Called actor :=
  let ⟨seat, hs, hc⟩ := h
  ⟨seat, Room.mem_seats_leave hs, hc⟩

theorem wakes_moveListener? (h : .listener ∈ s.agenda.toList) (hm : s.moveListener? = some s') :
    Wakes now s s' := by
  have htake : ∀ {signal : Signal} {feed : Feed}, s.feed.take? = some (signal, feed) →
      feed.pumping = s.feed.pumping ∧ feed.stream = s.feed.stream ∧ feed.ended = s.feed.ended := by
    intro signal feed ht
    unfold Feed.take? at ht
    split at ht <;> cases ht
    exact ⟨rfl, rfl, rfl⟩
  have hfeed : ∀ {signal : Signal} {feed : Feed}, s.feed.take? = some (signal, feed) →
      Wakes now s { s with feed } := fun ht => by
    obtain ⟨hp, hs, he⟩ := htake ht
    refine .of_mem h (.refl s) fun other hne hn => hn.imp_left fun ha => ?_
    cases other with
    | pump => exact ⟨hp ▸ ha.1, hs ▸ he ▸ ha.2⟩
    | listener => exact absurd rfl hne
    | call | wait => exact ha
  cases moveListener?_cases hm with
  | skip hl ht => exact hfeed ht
  | take hl hu ht => exact (hfeed ht).trans (wakes_handle _ ((hfeed ht).agenda.subset h) _)
  | sit hl hu ht =>
    refine (hfeed ht).trans (.of_mem h (.refl _) fun other hne hn => ?_)
    rcases hn with ha | ⟨seat, hs, hc, rfl⟩
    · cases other with
      | listener => exact absurd rfl hne
      | pump | call | wait => exact .inl ha
    · rcases Room.mem_seats_enter hs with hs | rfl
      · exact .inr ⟨seat, hs, hc, rfl⟩
      · exact absurd rfl hne
  | rise hl hu =>
    have hleave : Wakes now s { s with room := s.room.leave .listener } :=
      .of_needs (.refl s) fun _ hn => hn.imp_right called_leave
    exact hleave.trans (wakes_handle _ (hleave.agenda.subset h) _)
  | stop => exact wakes_stopListener

/-- A call that ends without a job. -/
theorem wakes_fail (s : Dispatcher) (label : String) (e : Error) :
    Wakes now s ((s.note label (.failed e)).openGate).stopIfAbandoned :=
  ((wakes_note now s label (.failed e)).trans (wakes_openGate now _)).trans
    (wakes_stopIfAbandoned now _)

theorem wakes_issue (s : Dispatcher) {call : Call} (h : .call call.number ∈ s.agenda.toList) :
    Wakes now s (s.issue call) := by
  unfold issue
  split
  · exact wakes_fail s _ _
  · have hgate : Wakes now s { s with
        sent := s.sent ++ [ManagerCall.job call.request]
        underWay := some ⟨call, !call.held⟩ } := by
      refine .of_mem h (.refl s) fun other hne hn => hn.imp_left fun ha => ?_
      cases other with
      | call number =>
        obtain ⟨call', hu, rfl⟩ := ha
        obtain rfl : call = call' := congrArg CallUnderWay.call (Option.some.inj hu)
        exact absurd rfl hne
      | pump | listener | wait => exact ha
    exact hgate.trans (wakes_emitSignals now _ _)

/-- The gate is given up. -/
theorem wakes_withGate (s : Dispatcher) (numbered : Nat) :
    Wakes now s { s with underWay := none, numbered } := by
  refine .of_needs (.refl s) fun actor hn => hn.imp_left fun ha => ?_
  cases actor with
  | call number =>
    obtain ⟨call, hu, -⟩ := ha
    cases hu
  | pump | listener | wait => exact ha

theorem wakes_takeUp (call : Call) : Wakes now s (s.takeUp call) := by
  have hgate : Wakes now s { s with underWay := none, numbered := (s.answer call.reply).2 } :=
    wakes_withGate s _
  refine takeUp_cases (motive := Wakes now s) s call (fun e _ => hgate.trans (wakes_fail _ _ _))
    fun path _ _ => ?_
  have htable : Wakes now s { s with
      underWay := none
      numbered := (s.answer call.reply).2
      table := (s.table.register path).2 } :=
    hgate.trans (.of_needs (.refl _) fun _ hn => hn)
  exact ((((htable.trans (wakes_rouseDecided now _)).trans (wakes_openGate now _)).trans
    (wakes_keepHandle now _ _ _)).trans (wakes_note now _ _ _)).trans (wakes_stopIfAbandoned now _)

theorem wakes_moveCall? {number : Nat} (h : .call number ∈ s.agenda.toList)
    (hm : s.moveCall? number = some s') : Wakes now s s' := by
  cases moveCall?_cases hm with
  | takeUp => exact wakes_takeUp _
  | @issue call _ hcall =>
    obtain ⟨-, rfl⟩ := mem_of_seatedCall? hcall
    have hleave : Wakes now s { s with room := s.room.leave (.call call) } :=
      .of_needs (.refl s) fun _ hn => hn.imp_right called_leave
    exact hleave.trans (wakes_issue _ (hleave.agenda.subset h))

/-- Waits go away. -/
theorem wakes_withWaits {waits : List Wait} (hw : waits ⊆ s.waits) (ticket : Ticket) :
    Wakes now s { s with waits, table := s.table.drop ticket } := by
  refine .of_needs (.refl s) fun actor hn => hn.imp_left fun ha => ?_
  cases actor with
  | wait ticket =>
    obtain ⟨w, hm, ht⟩ := ha
    exact ⟨w, hw hm, ht⟩
  | pump | listener | call => exact ha

theorem wakes_moveWait? {ticket : Ticket} (hm : s.moveWait? now ticket = some s') :
    Wakes now s s' := by
  obtain ⟨w, -, -, outcome, -, rfl⟩ := moveWait?_cases hm
  exact (wakes_withWaits (fun _ hv => List.mem_of_mem_erase hv) w.ticket).trans
    (wakes_note now _ _ _)

/-- Whoever has the turn and makes a move rouses all who can go on after it. -/
theorem wakes_move? {actor : Actor} (h : actor ∈ s.agenda.toList)
    (hm : s.move? now actor = some s') : Wakes now s s' := by
  cases actor with
  | pump => exact wakes_movePump? hm
  | listener => exact wakes_moveListener? h hm
  | call number => exact wakes_moveCall? h hm
  | wait ticket => exact wakes_moveWait? hm

/-! ## Calls of the interface -/

theorem wakes_start (now : Nat) (s : Dispatcher) (label : String)
    (request : Except Error JobRequest) (before : List Signal) (held : Bool) (reply : Reply) :
    Wakes now s (s.start label request before held reply) := by
  cases request with
  | error e => exact wakes_note now s _ _
  | ok request =>
    refine .of_rouse (.call s.begun) (fun other hne hn => hn.imp_right fun hc => ?_) rfl
    obtain ⟨seat, hs, hcalled, rfl⟩ := hc
    rcases Room.mem_seats_enter hs with hs | rfl
    · exact ⟨seat, hs, hcalled, rfl⟩
    · exact absurd rfl hne

theorem wakes_kill (now : Nat) (s : Dispatcher) (label : String)
    (request : Except Error KillRequest) (held : Bool) (fail : Option Error) :
    Wakes now s (s.kill label request held fail) := by
  cases request with
  | error e => exact wakes_note now s _ _
  | ok request => cases held <;> exact .of_needs (.refl s) fun _ hn => hn

theorem wakes_release (now : Nat) (s : Dispatcher) (label : String) :
    Wakes now s (s.release label).2 := by
  generalize hr : (s.release label).2 = s'
  cases release_cases hr with
  | @answer call =>
    refine .of_rouse (.call call.number) (fun other hne hn => hn.imp_left fun ha => ?_) rfl
    cases other with
    | call number =>
      obtain ⟨call', hu', rfl⟩ := ha
      cases hu'
      exact absurd rfl hne
    | pump | listener | wait => exact ha
  | @kill fail =>
    have hnote : Wakes now s ({ s with kills := s.kills.remove label }.note label
        (killEvent fail)) :=
      .of_needs (.refl s) fun _ hn => hn
    exact hnote.trans (wakes_stopIfAbandoned now _)
  | missing => exact .refl now s

/-- A new wait is roused. -/
theorem wakes_addWait (now : Nat) (s : Dispatcher) (handles : Labelled JobHandle) (w : Wait) :
    Wakes now s ({ s with handles, waits := s.waits ++ [w] }.rouse (.wait w.ticket)) := by
  refine .of_rouse (.wait w.ticket) (fun other hne hn => hn.imp_left fun ha => ?_) rfl
  cases other with
  | wait ticket =>
    obtain ⟨v, hv, rfl, hover⟩ := ha
    rcases List.mem_append.1 hv with hv | hv
    · exact ⟨v, hv, rfl, hover⟩
    · exact absurd (congrArg (Actor.wait ·.ticket) (List.mem_singleton.1 hv)) hne
  | pump | listener | call => exact ha

theorem wakes_wait (now : Nat) (s : Dispatcher) (clock : Nat) (label : String)
    (limit : Option Duration) : Wakes now s (s.wait clock label limit).2 := by
  generalize hw : (s.wait clock label limit).2 = s'
  cases wait_cases hw with
  | missing => exact .refl now s
  | refuse => exact .of_needs (.refl s) fun _ hn => hn
  | enter => exact wakes_addWait now s _ _

theorem wakes_giveUpSeat (now : Nat) (s : Dispatcher) (party : Party) :
    Wakes now s (s.giveUpSeat party) := by
  have hleave : Wakes now s { s with room := s.room.leave party } :=
    .of_needs (.refl s) fun _ hn => hn.imp_right called_leave
  unfold giveUpSeat
  split
  · exact hleave.trans (wakes_openGate now _)
  · exact hleave

theorem wakes_drop (now : Nat) (s : Dispatcher) (label : String) :
    Wakes now s (s.drop label).2 := by
  generalize hd : (s.drop label).2 = s'
  cases drop_cases hd with
  | handle => exact .of_needs (.refl s) fun _ hn => hn
  | underWay =>
    exact ((wakes_withGate s s.numbered).trans (wakes_openGate now _)).trans
      (wakes_stopIfAbandoned now _)
  | seat => exact (wakes_giveUpSeat now s _).trans (wakes_stopIfAbandoned now _)
  | kill =>
    exact (show Wakes now s { s with kills := s.kills.remove label } from
      .of_needs (.refl s) fun _ hn => hn).trans (wakes_stopIfAbandoned now _)
  | @wait w => exact wakes_withWaits (fun _ hv => List.mem_of_mem_erase hv) w.ticket
  | missing => exact .refl now s

theorem wakes_disconnect (now : Nat) (s : Dispatcher) : Wakes now s s.disconnect := by
  refine .of_rouse .pump (fun other hne hn => hn.imp_left fun ha => ?_) rfl
  cases other with
  | pump => exact absurd rfl hne
  | listener | call | wait => exact ha

/-- Whether an act is a call of the interface. -/
def Act.isCall : Act → Bool
  | alarm _ | move .. | pause _ => false
  | _ => true

/-- Whoever can go on after a call of the interface, and could not before, is roused. -/
theorem wakes_act (now : Nat) {x : Act} (hx : x.isCall = true) : Wakes now s (s.act x) := by
  cases x with
  | start label request before held reply => exact wakes_start now s label request before held reply
  | kill label request held fail => exact wakes_kill now s label request held fail
  | release label => exact wakes_release now s label
  | wait clock label limit => exact wakes_wait now s clock label limit
  | drop label => exact wakes_drop now s label
  | emit signals => exact wakes_emitSignals now s signals
  | disconnect => exact wakes_disconnect now s
  | requestStop => exact wakes_requestStop now s
  | addHolder label access => exact .of_needs (.refl s) fun _ hn => hn
  | dropHolder label =>
    exact (show Wakes now s { s with holders := s.holders.remove label } from
      .of_needs (.refl s) fun _ hn => hn).trans (wakes_stopIfAbandoned now _)
  | withGuests guests =>
    exact (show Wakes now s { s with guests } from .of_needs (.refl s) fun _ hn => hn).trans
      (wakes_stopIfAbandoned now _)
  | clear => exact .of_needs (.refl s) fun _ hn => hn
  | alarm | move | pause => cases hx

end Dispatcher

end SystemdControl
