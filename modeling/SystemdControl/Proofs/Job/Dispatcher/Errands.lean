import SystemdControl.Proofs.Job.Dispatcher.Precedence
import SystemdControl.Proofs.Job.Dispatcher.Strewn

/-!
# Nobody has a turn in vain

Pump and listener are roused when there is something for them to do, and nobody else does it. So
until they are asked to stop, whoever is on the agenda and does not have its turn already has
something to do.

* `Dispatcher.Purposeful` says so, one lemma a function;
* `Purposeful.step?`: a step keeps it, by whosever turn it is; `Rest.purposeful_act`: the calls of
  the interface bring it about when all wait.
-/

namespace SystemdControl

namespace Dispatcher

variable {s s' : Dispatcher} {now : Nat}

/-- Whoever waits for its turn has something to do. -/
def Purposeful (s : Dispatcher) : Prop :=
  s.stopping = false → ∀ actor ∈ s.agenda.toList, s.agenda.next? ≠ some actor →
    s.idle actor = false

/-- Nobody has to do anything after everything has been asked to stop. -/
theorem purposeful_of_stopping (h : s.stopping = true) : s.Purposeful := fun hs => by
  rw [h] at hs
  cases hs

namespace Purposeful

section

variable (h : s.Purposeful)
include h

/-- Whatever else changes, those who had something to do have it still. -/
theorem frame (ha : s'.agenda = s.agenda) (hs : s'.stopping = s.stopping)
    (hi : ∀ actor, s.agenda.next? ≠ some actor → s.idle actor = false → s'.idle actor = false) :
    s'.Purposeful := by
  unfold Purposeful
  rw [ha, hs]
  exact fun hs actor hm hn => hi actor hn (h hs actor hm hn)

theorem rouse {actor : Actor} (hi : s.idle actor = false) : (s.rouse actor).Purposeful := by
  intro hs other hm hn
  rcases Agenda.mem_rouse.1 hm with hm | rfl
  · exact h hs other hm fun hnext => hn ((s.rouses_rouse actor).next? hnext)
  · exact hi

theorem rouseWaits (ws : List Wait) : (s.rouseWaits ws).Purposeful := by
  induction ws generalizing s with
  | nil => exact h
  | cons w ws ih =>
    have hwait : (s.rouse (.wait w.ticket)).Purposeful := h.rouse rfl
    exact ih hwait

theorem rouseDecided : s.rouseDecided.Purposeful :=
  h.rouseWaits _

/-- A listener in the waiting room is not ready, so it has something to do. -/
theorem openGate (hready : .listener ∈ s.room.guests → s.listener ≠ .ready) :
    s.openGate.Purposeful := by
  unfold Dispatcher.openGate
  split
  · rename_i party room hc
    refine rouse (s := { s with room }) h ?_
    cases party with
    | call => rfl
    | listener => simp [Party.actor, idle, hready (Room.mem_guests_of_callFirst hc)]
  · exact h

theorem stopIfAbandoned : s.stopIfAbandoned.Purposeful := by
  unfold Dispatcher.stopIfAbandoned
  split
  · exact purposeful_of_stopping s.stopping_requestStop
  · exact h

theorem note (label : String) (event : JobEvent) : (s.note label event).Purposeful :=
  h.frame rfl rfl fun actor _ hi => by cases actor <;> exact hi

theorem keepHandle (label : String) (handle : JobHandle) :
    (s.keepHandle label handle).Purposeful := by
  unfold Dispatcher.keepHandle
  split <;> exact h.frame rfl rfl fun actor _ hi => by cases actor <;> exact hi

/-- What enters the stream gives the pump something to do. -/
theorem emitSignals (signals : List Signal) : (s.emitSignals signals).Purposeful := by
  have hemit : ({ s with feed := s.feed.emit signals } : Dispatcher).Purposeful :=
    h.frame rfl rfl fun actor _ hi => by
      cases actor with
      | pump =>
        unfold Feed.emit
        split
        · simp_all [idle]
        · exact hi
      | listener =>
        unfold Feed.emit
        split <;> exact hi
      | call | wait => rfl
  unfold Dispatcher.emitSignals
  dsimp only
  split
  · exact hemit
  · rename_i hne
    refine hemit.rouse ?_
    unfold Feed.emit Feed.accepts
    split
    · simp_all [idle]
    · rename_i ha
      simp only [idle, Bool.and_eq_false_iff, Bool.not_eq_false']
      simp only [Bool.and_eq_true, Bool.not_eq_true', not_and, Bool.not_eq_true] at ha
      cases he : s.feed.ended with
      | true => exact .inl (.inr rfl)
      | false => exact .inl (.inl (ha he))

theorem fail (hready : .listener ∈ s.room.guests → s.listener ≠ .ready) (label : String)
    (e : Error) : ((s.note label (.failed e)).openGate).stopIfAbandoned.Purposeful :=
  ((h.note label (.failed e)).openGate hready).stopIfAbandoned

/-- In the turn of the listener it does not matter what it has to do. -/
theorem handle (event : JobRemoved) (hnext : s.agenda.next? = some .listener)
    (hroom : .listener ∉ s.room.guests) : (s.handle event).Purposeful := by
  let t : Dispatcher := { s with
    table := (s.table.resolve event.jobPath event.result).2
    listener := .ready }
  have ht : t.Purposeful := h.frame rfl rfl fun actor hn hi => by
    cases actor with
    | listener => exact absurd hnext hn
    | pump | call | wait => exact hi
  obtain ⟨waits, hwaits⟩ := s.handle_eq event
  rw [hwaits]
  exact (ht.rouseWaits waits).openGate fun hm => absurd hm hroom

theorem stopListener : s.stopListener.Purposeful := by
  refine rouseDecided (s := { s with listener := .stopped, table := s.table.close }) ?_
  refine h.frame rfl rfl fun actor _ hi => ?_
  cases actor with
  | listener => rfl
  | pump | call | wait => exact hi

end

/-! ## Steps -/

theorem movePump? (h : s.Purposeful) (hnext : s.agenda.next? = some .pump)
    (hm : s.movePump? = some s') : s'.Purposeful := by
  obtain ⟨feed, hf, rfl⟩ := Option.map_eq_some_iff.1 hm
  obtain ⟨-, hcases⟩ := Feed.pump?_cases hf
  have hqueue : feed.queue = [] → s.feed.queue = [] := fun hq => by
    cases hcases with
    | forward => simp at hq
    | lose | dismiss | finish => exact hq
  have hpumping : feed.pumping = true → s.feed.pumping = true := fun hp => by
    cases hcases with
    | forward | lose => exact hp
    | dismiss | finish => cases hp
  have hfeed : ({ s with feed } : Dispatcher).Purposeful := h.frame rfl rfl fun actor hn hi => by
    cases actor with
    | pump => exact absurd hnext hn
    | listener =>
      refine Bool.eq_false_iff.2 fun hidle => Bool.eq_false_iff.1 hi ?_
      simp only [idle, Bool.and_eq_true, List.isEmpty_iff] at hidle ⊢
      exact ⟨⟨hidle.1.1, hpumping hidle.1.2⟩, hqueue hidle.2⟩
    | call | wait => rfl
  unfold rouseListener
  split
  · refine hfeed.rouse (Bool.eq_false_iff.2 fun hidle => ?_)
    simp only [idle, Bool.and_eq_true, List.isEmpty_iff] at hidle
    obtain ⟨⟨-, hp⟩, hq⟩ := hidle
    cases hcases with
    | forward => simp at hq
    | lose hs hl hfull =>
      have hsize : 1 ≤ s.feed.size := Nat.le_max_right _ _
      rw [show s.feed.queue = [] from hq] at hfull
      exact absurd (hsize.trans hfull) (by simp)
    | dismiss | finish => cases hp
  · exact hfeed

theorem moveListener? (h : s.Purposeful) (hst : Steady now s)
    (hnext : s.agenda.next? = some .listener) (hm : s.moveListener? = some s') :
    s'.Purposeful := by
  have hroom : s.listener = .ready → .listener ∉ s.room.guests := fun hl hm =>
    hst.not_ready hm hl
  have hfeed : ∀ signal feed, s.feed.take? = some (signal, feed) →
      ({ s with feed } : Dispatcher).Purposeful := fun signal feed ht => by
    unfold Feed.take? at ht
    split at ht
    · cases ht
    · cases ht
      refine h.frame rfl rfl fun actor hn hi => ?_
      cases actor with
      | listener => exact absurd hnext hn
      | pump | call | wait => exact hi
  cases moveListener?_cases hm with
  | skip hl ht => exact hfeed _ _ ht
  | take hl hu ht => exact (hfeed _ _ ht).handle _ hnext (hroom hl)
  | sit hl hu ht =>
    refine (hfeed _ _ ht).frame rfl rfl fun actor _ hi => ?_
    cases actor with
    | listener => rfl
    | pump | call | wait => exact hi
  | rise hl hu =>
    refine handle (s := { s with room := s.room.leave .listener }) h _ hnext ?_
    have hnodup : s.room.guests.Nodup := hst.distinct.nodup
    rw [s.room.guests_leave]
    exact hnodup.not_mem_erase
  | stop => exact h.stopListener

theorem moveCall? (h : s.Purposeful) (hst : Steady now s) {number : Nat}
    (hm : s.moveCall? number = some s') : s'.Purposeful := by
  cases moveCall?_cases hm with
  | @takeUp call =>
    have hfree : ∀ numbered table,
        ({ s with underWay := none, numbered, table } : Dispatcher).Purposeful := fun _ _ =>
      h.frame rfl rfl fun actor _ hi => by cases actor <;> exact hi
    refine takeUp_cases (motive := Purposeful) s call (fun e _ => ?_) fun path _ _ => ?_
    · exact (hfree _ s.table).fail hst.not_ready _ _
    · exact ((((hfree _ (s.table.register path).2).rouseDecided.openGate hst.not_ready).keepHandle _
        _).note _ _).stopIfAbandoned
  | @issue call =>
    have hready : .listener ∈ (s.room.leave (.call call)).guests → s.listener ≠ .ready :=
      fun hm => hst.not_ready (List.mem_of_mem_erase (s.room.guests_leave (.call call) ▸ hm))
    unfold issue
    split
    · exact fail (s := { s with room := s.room.leave (.call call) }) h hready _ _
    · exact emitSignals (s := { s with
        room := s.room.leave (.call call)
        sent := s.sent ++ [ManagerCall.job call.request]
        underWay := some ⟨call, !call.held⟩ }) h _

theorem pause (h : s.Purposeful) {actor : Actor} (hnext : s.agenda.next? = some actor) :
    (s.pause actor).Purposeful := by
  intro hs other hm hn
  have hnodup := s.agenda.nodup
  rw [Agenda.toList_eq_cons hnext, List.nodup_cons] at hnodup
  have hne : s.agenda.next? ≠ some other := fun he => by
    obtain rfl : actor = other := Option.some.inj (hnext.symm.trans he)
    exact hnodup.1 hm
  exact h hs other (List.mem_of_mem_tail hm) hne

theorem step? (h : s.Purposeful) (hst : Steady now s) (hs : s.step? now = some s') :
    s'.Purposeful := by
  obtain ⟨actor, hnext, ⟨hm, -⟩ | ⟨-, rfl⟩⟩ := step?_cases hs
  · cases actor with
    | pump => exact h.movePump? hnext hm
    | listener => exact h.moveListener? hst hnext hm
    | call number => exact h.moveCall? hst hm
    | wait ticket =>
      obtain ⟨w, -, -, outcome, -, rfl⟩ := moveWait?_cases hm
      exact h.frame rfl rfl fun actor _ hi => by cases actor <;> exact hi
  · exact h.pause hnext

end Purposeful

/-! ## Calls of the interface -/

/-- The calls of the interface find nobody on the agenda. -/
theorem Rest.purposeful_act (h : Rest now s) {x : Act} (hx : x.isCall = true) :
    (s.act x).Purposeful := by
  have hrest : ∀ {t : Dispatcher}, t.agenda = s.agenda → t.Purposeful := fun ha _ actor hm => by
    rw [ha, h.idle] at hm
    cases hm
  cases x with
  | start label request before held reply =>
    cases request with
    | error e => exact hrest rfl
    | ok request => exact Purposeful.rouse (hrest rfl) rfl
  | kill label request held fail => cases request <;> cases held <;> exact hrest rfl
  | release label =>
    show (s.release label).2.Purposeful
    generalize hr : (s.release label).2 = s'
    cases release_cases hr with
    | answer => exact Purposeful.rouse (hrest rfl) rfl
    | kill => exact Purposeful.stopIfAbandoned (hrest rfl)
    | missing => exact hrest rfl
  | wait clock label limit =>
    show (s.wait clock label limit).2.Purposeful
    generalize hw : (s.wait clock label limit).2 = s'
    cases wait_cases hw with
    | missing | refuse => exact hrest rfl
    | enter => exact Purposeful.rouse (hrest rfl) rfl
  | drop label =>
    show (s.drop label).2.Purposeful
    generalize hd : (s.drop label).2 = s'
    cases drop_cases hd with
    | handle | wait | missing => exact hrest rfl
    | underWay =>
      exact (Purposeful.openGate (s := { s with underWay := none }) (hrest rfl)
        h.not_ready).stopIfAbandoned
    | @seat call =>
      refine Purposeful.stopIfAbandoned ?_
      unfold giveUpSeat
      split
      · refine Purposeful.openGate (hrest rfl) fun hm => h.not_ready ?_
        exact List.mem_of_mem_erase (s.room.guests_leave (.call call) ▸ hm)
      · exact hrest rfl
    | kill => exact Purposeful.stopIfAbandoned (hrest rfl)
  | emit signals => exact Purposeful.emitSignals (hrest rfl) signals
  | disconnect =>
    have hidle : ({ s with feed := s.feed.finish } : Dispatcher).idle .pump = false := by
      simp [Dispatcher.idle, Feed.finish]
    exact Purposeful.rouse (s := { s with feed := s.feed.finish }) (hrest rfl) hidle
  | requestStop => exact purposeful_of_stopping s.stopping_requestStop
  | dropHolder | withGuests => exact Purposeful.stopIfAbandoned (hrest rfl)
  | addHolder | clear => exact hrest rfl
  | alarm | move | pause => cases hx

end Dispatcher

end SystemdControl
