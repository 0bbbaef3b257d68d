import SystemdControl.Proofs.Job.Dispatcher.Attended
import SystemdControl.Proofs.Job.Dispatcher.Refusing
import SystemdControl.Proofs.Job.Dispatcher.Serial

/-!
# Jobs at rest

While the gate is free the first one in the waiting room has been called to it. So when all have to
wait and nobody holds the gate, nobody waits for it either; and whoever was asked to stop has
stopped.

* `Dispatcher.Served` says who has been called, and `Dispatcher.Steady` is all that keeps anyone
  from being forgotten;
* `Dispatcher.Steady.act`: the calls of the interface keep it; `Dispatcher.Steady.step?`: a step
  does, by whosever turn it is; `Dispatcher.Steady.settle`: so does settling;
* `Dispatcher.Rest` is what is left when all have to wait (`Dispatcher.Steady.rest`).
-/

namespace SystemdControl

/-! ## The waiting room -/

namespace Room

variable {α : Type} {r : Room α} {guest : α}

/-- The one at the lowest place is the newcomer, or the one who was. -/
theorem head?_seats_enter {called : Bool} {seat : Seat α}
    (h : seat ∈ (r.enter guest called).seats.head?) :
    seat ∈ r.seats.head? ∨ seat = ⟨r.nextPlace, guest, called⟩ := by
  unfold enter at h
  cases hs : r.seats with
  | nil =>
    rw [hs] at h
    exact .inr (Option.some.inj h).symm
  | cons first rest =>
    rw [hs] at h
    simp only [List.takeWhile_cons] at h
    split at h
    · exact .inl h
    · exact .inr (Option.some.inj h).symm

/-- The first one has been called after it is called. -/
theorem called_of_head?_callFirst {seat : Seat α} (h : seat ∈ r.callFirst.2.seats.head?) :
    seat.called = true := by
  unfold callFirst at h
  split at h
  · cases h
    rfl
  · rename_i hn
    obtain ⟨rest, hrest⟩ := List.head?_eq_some_iff.1 h
    obtain ⟨place, first, called⟩ := seat
    cases called with
    | true => rfl
    | false => exact absurd hrest (hn place first rest)

variable [DecidableEq α]

/-- If one leaves who has not been called, and the first one has been, the first one stays. -/
theorem head?_seats_leave (hc : (r.seat? guest).any (·.called) = false)
    (hfirst : ∀ seat ∈ r.seats.head?, seat.called = true) :
    (r.leave guest).seats.head? = r.seats.head? := by
  unfold leave
  cases hs : r.seat? guest with
  | none => rfl
  | some seat =>
    cases hr : r.seats with
    | nil => rfl
    | cons first rest =>
      have hne : ¬ (first == seat) = true := fun he => by
        rw [hs, Option.any_some, ← beq_iff_eq.1 he, hfirst first (by simp [hr])] at hc
        cases hc
      simp only
      rw [List.erase_cons_tail hne, List.head?_cons, List.head?_cons]

theorem called_uncall {seat : Seat α} (h : seat ∈ (r.uncall guest).seats)
    (hc : seat.called = true) : seat ∈ r.seats ∧ seat.guest ≠ guest := by
  obtain ⟨seat', hs, rfl⟩ := List.mem_map.1 h
  split at hc
  · cases hc
  · rename_i hne
    rw [if_neg hne]
    exact ⟨hs, hne⟩

end Room

namespace Dispatcher

variable {s s' : Dispatcher} {now : Nat}

/-! ## Who has been called to the gate -/

/-- While the gate is free the first one in the waiting room has been called to it. -/
def Served (s : Dispatcher) : Prop :=
  s.underWay = none → ∀ seat ∈ s.room.seats.head?, seat.called = true

theorem Served.frame (h : s.Served) (hu : s'.underWay = s.underWay) (hr : s'.room = s.room) :
    s'.Served :=
  fun hfree seat hs => h (hu ▸ hfree) seat (hr ▸ hs)

/-- While the gate is taken nobody has to be called. -/
theorem served_of_taken (hu : s.underWay ≠ none) : s.Served :=
  fun hfree => absurd hfree hu

section
variable (s : Dispatcher)

theorem room_rouseListener : s.rouseListener.room = s.room := by
  unfold rouseListener
  split <;> rfl

theorem room_requestStop : s.requestStop.room = s.room := by
  unfold requestStop
  split
  · rfl
  · exact room_rouseListener _

theorem room_stopIfAbandoned : s.stopIfAbandoned.room = s.room := by
  unfold stopIfAbandoned
  split
  · exact room_requestStop s
  · rfl

theorem room_emitSignals (signals : List Signal) : (s.emitSignals signals).room = s.room := by
  unfold emitSignals
  split <;> rfl

theorem room_keepHandle (label : String) (handle : JobHandle) :
    (s.keepHandle label handle).room = s.room := by
  unfold keepHandle
  split <;> rfl

theorem served_openGate : s.openGate.Served := by
  intro _ seat hs
  refine Room.called_of_head?_callFirst (r := s.room) ?_
  unfold openGate at hs
  split at hs
  · rename_i party room hc
    rw [hc]
    exact hs
  · rename_i room hc
    unfold Room.callFirst at hc ⊢
    split at hc
    · cases hc
    · exact hs

variable {s}

theorem Served.stopIfAbandoned (h : s.Served) : s.stopIfAbandoned.Served :=
  h.frame (congrArg Core.underWay s.core_stopIfAbandoned) s.room_stopIfAbandoned

theorem served_fail (s : Dispatcher) (label : String) (e : Error) :
    (((s.note label (.failed e)).openGate).stopIfAbandoned).Served :=
  (served_openGate _).stopIfAbandoned

theorem served_issue (call : Call) : (s.issue call).Served := by
  unfold issue
  split
  · exact served_fail s _ _
  · refine served_of_taken ?_
    rw [show ∀ s : Dispatcher, (s.emitSignals call.before).underWay = s.underWay from
      fun s => congrArg Core.underWay (s.core_emitSignals call.before)]
    exact Option.some_ne_none _

theorem served_takeUp (call : Call) : (s.takeUp call).Served := by
  refine takeUp_cases (motive := Served) s call (fun e _ => served_fail _ _ _) fun path _ _ => ?_
  refine Served.stopIfAbandoned ?_
  exact (served_openGate _).frame (congrArg Core.underWay (keepHandle_core ..))
    (room_keepHandle ..)

theorem served_move? {actor : Actor} (h : s.Served) (hm : s.move? now actor = some s') :
    s'.Served := by
  cases actor with
  | pump =>
    obtain ⟨feed, -, rfl⟩ := Option.map_eq_some_iff.1 hm
    exact h.frame (congrArg Core.underWay (core_rouseListener _)) (room_rouseListener _)
  | listener =>
    cases moveListener?_cases hm with
    | skip => exact h
    | sit hl hu => exact served_of_taken hu
    | take | rise => exact served_openGate _
    | stop => exact h
  | call number =>
    cases moveCall?_cases hm with
    | takeUp => exact served_takeUp _
    | issue => exact served_issue _
  | wait ticket =>
    obtain ⟨w, -, -, outcome, -, rfl⟩ := moveWait?_cases hm
    exact h

theorem served_giveUpSeat (h : s.Served) (party : Party) : (s.giveUpSeat party).Served := by
  unfold giveUpSeat
  split
  · exact served_openGate _
  · rename_i hc
    intro hu seat hs
    refine h hu seat ?_
    rw [← Room.head?_seats_leave (Bool.eq_false_iff.2 hc) (h hu)]
    exact hs

theorem served_act (h : s.Served) {x : Act} (hx : x.isCall = true) : (s.act x).Served := by
  cases x with
  | start label request before held reply =>
    cases request with
    | error e => exact h
    | ok request =>
      intro hu seat hs
      rcases Room.head?_seats_enter hs with hs | rfl
      · exact h hu seat hs
      · rfl
  | kill label request held fail => cases request <;> cases held <;> exact h
  | release label =>
    show (s.release label).2.Served
    generalize hr : (s.release label).2 = s'
    cases release_cases hr with
    | answer => exact served_of_taken (Option.some_ne_none _)
    | kill => exact Served.stopIfAbandoned h
    | missing => exact h
  | wait clock label limit =>
    show (s.wait clock label limit).2.Served
    generalize hw : (s.wait clock label limit).2 = s'
    cases wait_cases hw <;> exact h
  | drop label =>
    show (s.drop label).2.Served
    generalize hd : (s.drop label).2 = s'
    cases drop_cases hd with
    | handle | wait | missing => exact h
    | underWay => exact (served_openGate _).stopIfAbandoned
    | seat => exact (served_giveUpSeat h _).stopIfAbandoned
    | kill => exact Served.stopIfAbandoned h
  | emit signals =>
    exact h.frame (congrArg Core.underWay (s.core_emitSignals signals)) (s.room_emitSignals signals)
  | requestStop => exact h.frame (congrArg Core.underWay s.core_requestStop) s.room_requestStop
  | dropHolder | withGuests => exact Served.stopIfAbandoned h
  | disconnect | addHolder | clear => exact h
  | alarm | move | pause => cases hx

end

/-! ## Nobody is forgotten -/

/-- Whoever has to have a turn is on the agenda, and whoever shall get the gate has been called to
it. -/
structure Steady (now : Nat) (s : Dispatcher) : Prop where
  attended : s.Attended now
  served : s.Served
  distinct : s.ledger.Distinct
  /-- No two of those who wait for the gate have the same turn. -/
  actors : (s.room.guests.map Party.actor).Nodup
  holds : JobTable.Holds s.table s.core.tickets

theorem actors_act (hd : s.ledger.Distinct) (h : (s.room.guests.map Party.actor).Nodup)
    (x : Act) : ((s.act x).room.guests.map Party.actor).Nodup := by
  have hcomings : Comings s.room.guests (s.submitted? x) (s.act x).room.guests :=
    (s.act_exchange x).comings hd
  generalize (s.act x).room.guests = guests at hcomings
  cases hcomings with
  | stay => exact h
  | leave party => exact h.sublist (List.erase_sublist.map _)
  | @enter party _ hn hp hs =>
    refine (hp.map _).nodup_iff.2 (List.nodup_cons.2 ⟨fun hm => ?_, h⟩)
    obtain ⟨other, ho, ha⟩ := List.mem_map.1 hm
    cases party with
    | listener =>
      cases other with
      | listener => exact hn ho
      | call => cases ha
    | call call =>
      cases other with
      | listener => cases ha
      | call other =>
        have hnumber : other.number = call.number := Actor.call.inj ha
        have hlt : other.number < s.begun := hd.number_lt other ho
        have hnew : call.number = s.begun := by
          have hmem : call ∈ (s.submitted? x).toList := hs.subset (List.mem_singleton_self _)
          unfold submitted? at hmem
          split at hmem
          · rw [List.mem_singleton.1 hmem]
          · cases hmem
        omega

/-- Whoever can go on whoever holds the gate can make a move. -/
theorem isSome_move?_of_able (h : JobTable.Holds s.table s.core.tickets) {actor : Actor}
    (ha : s.Able now actor) : (s.move? now actor).isSome = true := by
  cases actor with
  | pump =>
    obtain ⟨hp, hwhy⟩ := ha
    by_cases hs : s.feed.stream = []
    · have hstop : (s.feed.ended || s.stopping) = true := by
        simpa using hwhy.resolve_left (absurd hs)
      simp [move?, movePump?, Feed.pump?, hp, hs, hstop]
    · exact isSome_movePump? hp hs
  | listener =>
    obtain ⟨hl, hwhy⟩ := ha
    rw [move?, moveListener?, hl, Feed.take?]
    cases hq : s.feed.queue with
    | nil =>
      have hstop : (s.stopping || !s.feed.pumping) = true := by
        simpa using hwhy.resolve_left (absurd hq)
      simp [hstop]
    | cons signal rest =>
      cases signal with
      | undecodable => rfl
      | removed event =>
        dsimp only
        split <;> rfl
  | call number =>
    obtain ⟨call, hu, rfl⟩ := ha
    exact isSome_move?_answered hu now
  | wait ticket =>
    obtain ⟨w, hw, rfl, hwhy⟩ := ha
    rw [move?, moveWait?, find?_wait h hw, Option.bind_some, Option.isSome_map]
    rcases hwhy with hc | hover
    · refine isSome_verdict?_of_outcome? ((JobTable.isSome_outcome?_iff ..).2 (.inr ?_)) now
      simp [JobTable.isOpen, h.empty hc]
    · obtain ⟨d, hd, hnow⟩ := (Option.any_eq_true ..).1 hover
      cases ho : s.table.outcome? w.ticket with
      | some outcome => exact isSome_verdict?_of_outcome? (ho ▸ rfl) now
      | none => simp [verdict?, ho, hd, of_decide_eq_true hnow]

/-- Whoever waits for the gate gets it when it has a turn while the gate is free. -/
theorem isSome_move?_of_free (h : s.ledger.Distinct) (hu : s.underWay = none) {party : Party}
    (hp : party ∈ s.room.guests) (now : Nat) : (s.move? now party.actor).isSome = true := by
  cases party with
  | call call => exact isSome_move?_call (by rw [inFlight, hu]; rfl) hp now
  | listener =>
    have hseated : s.listener.isSeated = true := h.listener_mem_iff.1 hp
    cases hl : s.listener with
    | seated event => simp [Party.actor, move?, moveListener?, hl, gateFree_iff.2 hu]
    | ready | stopped => simp [hl, Listener.isSeated] at hseated

namespace Steady

theorem start (capacity now : Nat) : Steady now { feed := { capacity } } where
  attended actor hn := by
    rcases hn with ha | ⟨seat, hs, -⟩
    · cases actor <;> simp [Able] at ha
    · cases hs
  served _ _ hs := nomatch hs
  distinct := (Lineup.Faithful.start capacity).toDistinct
  actors := .nil
  holds := .nil

/-- The calls of the interface keep everybody attended to. -/
theorem act (h : Steady now s) {x : Act} (hx : x.isCall = true) : Steady now (s.act x) where
  attended := h.attended.wakes (wakes_act now hx)
  served := served_act h.served hx
  distinct := (s.act_exchange x).distinct h.distinct
  actors := actors_act h.distinct h.actors x
  holds := holds_act h.holds x

/-- When time goes on the waits are roused whose time is over. -/
theorem alarm (h : Steady now s) (later : Nat) : Steady later (s.alarm later) where
  attended actor hn := by
    have hkeep : s.Needs now actor → actor ∈ (s.alarm later).agenda.toList := fun hn =>
      (s.rouses_rouseWaits _).subset (h.attended actor hn)
    rcases hn with ha | hc
    · cases actor with
      | wait ticket =>
        obtain ⟨w, hw, rfl, hclosed | hover⟩ := ha
        · exact hkeep (.inl ⟨w, hw, rfl, .inl hclosed⟩)
        · exact Agenda.mem_rouseAll.2 (.inr (List.mem_map.2 ⟨w, List.mem_filter.2 ⟨hw, hover⟩, rfl⟩))
      | pump | listener | call => exact hkeep (.inl ha)
    · exact hkeep (.inr hc)
  served := h.served
  distinct := h.distinct
  actors := h.actors
  holds := h.holds

/-- A move by whoever's turn it is keeps everybody attended to. -/
theorem move? (h : Steady now s) {actor : Actor} (hnext : s.agenda.next? = some actor)
    (hm : s.move? now actor = some s') : Steady now s' := by
  have hact : s' = s.act (.move now actor) := by rw [Dispatcher.act, hm, Option.getD_some]
  have hmem : actor ∈ s.agenda.toList := Agenda.toList_eq_cons hnext ▸ List.mem_cons_self
  refine ⟨h.attended.wakes (wakes_move? hmem hm), served_move? h.served hm, ?_, ?_, ?_⟩
  · exact hact ▸ (s.act_exchange _).distinct h.distinct
  · exact hact ▸ actors_act h.distinct h.actors _
  · exact hact ▸ holds_act h.holds _

/-- If someone in the waiting room cannot move when it has a turn, it is not called any more. -/
theorem not_called_pause (h : Steady now s) (actor : Actor) : ¬ (s.pause actor).Called actor := by
  rintro ⟨seat, hs, hcalled, ha⟩
  simp only [Dispatcher.pause] at hs
  split at hs
  · rename_i party hfind
    obtain ⟨hseat, hne⟩ := Room.called_uncall hs hcalled
    refine hne (List.inj_on_of_nodup_map h.actors (List.mem_map_of_mem hseat)
      (List.mem_of_find?_eq_some hfind) ?_)
    have hactor : party.actor = actor := by simpa using List.find?_some hfind
    rw [ha, hactor]
  · rename_i hfind
    have hnone := List.find?_eq_none.1 hfind _ (List.mem_map_of_mem hs)
    simp [ha] at hnone

theorem pause (h : Steady now s) {actor : Actor} (hnext : s.agenda.next? = some actor)
    (hm : s.move? now actor = none) : Steady now (s.pause actor) where
  attended other hn := by
    have hneeds : s.Needs now other := by
      refine hn.imp_right fun ⟨seat, hs, hcalled, ha⟩ => ?_
      simp only [Dispatcher.pause] at hs
      split at hs
      · exact ⟨seat, (Room.called_uncall hs hcalled).1, hcalled, ha⟩
      · exact ⟨seat, hs, hcalled, ha⟩
    have hmem := h.attended other hneeds
    rw [Agenda.toList_eq_cons hnext] at hmem
    refine (List.mem_cons.1 hmem).resolve_left ?_
    rintro rfl
    rcases hn with ha | hc
    · have hsome := isSome_move?_of_able h.holds (s := s) ha
      rw [hm] at hsome
      cases hsome
    · exact h.not_called_pause other hc
  served hu := by
    have hroom : (s.pause actor).room = s.room := by
      simp only [Dispatcher.pause]
      split
      · rename_i party hfind
        have hsome := isSome_move?_of_free h.distinct hu (List.mem_of_find?_eq_some hfind) now
        have hactor : party.actor = actor := by simpa using List.find?_some hfind
        rw [hactor, hm] at hsome
        cases hsome
      · rfl
    rw [hroom]
    exact h.served hu
  distinct := (s.act_exchange (.pause actor)).distinct h.distinct
  actors := actors_act h.distinct h.actors (.pause actor)
  holds := holds_act h.holds (.pause actor)

theorem step? (h : Steady now s) (hs : s.step? now = some s') : Steady now s' := by
  obtain ⟨actor, hnext, ⟨hm, -⟩ | ⟨hm, rfl⟩⟩ := step?_cases hs
  · exact h.move? hnext hm
  · exact h.pause hnext hm

theorem steps (h : Steady now s) (n : Nat) : Steady now (steps now n s) := by
  induction n generalizing s with
  | zero => exact h
  | succ n ih =>
    unfold Dispatcher.steps
    split
    · exact h
    · rename_i s' hs
      exact ih (h.step? hs)

theorem settle (h : Steady now s) : Steady now (s.settle now) :=
  h.steps _

end Steady

/-! ## Rest -/

/-- What is left when all have to wait. -/
structure Rest (now : Nat) (s : Dispatcher) : Prop extends Steady now s where
  idle : s.agenda.toList = []

theorem Steady.rest (h : Steady now s) : Rest now (s.settle now) :=
  ⟨h.settle, (Agenda.next?_eq_none_iff _).1 (next?_settle h.holds now)⟩

namespace Rest

theorem not_needs (h : Rest now s) (actor : Actor) : ¬ s.Needs now actor := fun hn => by
  have hm := h.attended actor hn
  rw [h.idle] at hm
  cases hm

/-- Nobody waits for a gate that is free. -/
theorem seats_eq_nil (h : Rest now s) (hu : s.underWay = none) : s.room.seats = [] := by
  cases hs : s.room.seats with
  | nil => rfl
  | cons seat rest =>
    have hmem : seat ∈ s.room.seats := hs ▸ List.mem_cons_self
    have hcalled := h.served hu seat (by simp [hs])
    exact absurd (.inr ⟨seat, hmem, hcalled, rfl⟩) (h.not_needs seat.guest.actor)

/-- A listener that was asked to stop, or whose pump has no more signals, has stopped when nobody
holds the gate. -/
theorem listener_eq_stopped (h : Rest now s) (hu : s.underWay = none)
    (hstop : s.stopping = true ∨ s.feed.ended = true) : s.listener = .stopped := by
  have hpump : s.feed.pumping = false := Bool.eq_false_iff.2 fun hp =>
    h.not_needs .pump (.inl ⟨hp, .inr hstop.symm⟩)
  cases hl : s.listener with
  | stopped => rfl
  | ready => exact absurd (.inl ⟨hl, .inr (.inr hpump)⟩) (h.not_needs .listener)
  | seated event =>
    have hmem : .listener ∈ s.room.guests := h.distinct.listener_mem_iff.2 (by
      show s.listener.isSeated = true
      rw [hl]
      rfl)
    rw [Room.guests, h.seats_eq_nil hu] at hmem
    cases hmem

/-- Nobody waits for a job once the table is closed. -/
theorem waits_eq_nil (h : Rest now s) (hc : s.table.closed = true) : s.waits = [] := by
  cases hw : s.waits with
  | nil => rfl
  | cons w rest =>
    exact absurd (.inl ⟨w, hw ▸ List.mem_cons_self, rfl, .inl hc⟩) (h.not_needs (.wait w.ticket))

end Rest

end Dispatcher

end SystemdControl
