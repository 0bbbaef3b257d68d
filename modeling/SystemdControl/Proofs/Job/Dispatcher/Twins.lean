import Mathlib.Data.List.Find
import SystemdControl.Proofs.Job.Dispatcher.Steady
import SystemdControl.Proofs.Job.Dispatcher.Strewn

/-!
# Without the extra signals

Two dispatchers that differ in feed and agenda alone, and in the signals that calls will set off,
go on differing in these alone, whatever is done that does not move a signal. Of their agendas a
part may be known to be the same, and it stays so, as both rouse the same.

* `Dispatcher.Twins` are two such states, the first one without the signals that are marked; every
  function of the dispatcher keeps them so, one lemma a function;
* `Dispatcher.Twins.moveCall?` and its kin: so does a move that does not move a signal;
* `Dispatcher.Twins.act`: so does a call of the interface.
-/

namespace SystemdControl

/-! ## The waiting room -/

namespace Room

variable {α β : Type}

/-- The same room with other guests. -/
def map (f : α → β) (r : Room α) : Room β where
  seats := r.seats.map fun seat => ⟨seat.place, f seat.guest, seat.called⟩
  free := r.free

variable {f : α → β} {r : Room α} {guest : α}

@[simp] theorem guests_map : (r.map f).guests = r.guests.map f := by
  simp [guests, map]

theorem map_enter (called : Bool) :
    (r.enter guest called).map f = (r.map f).enter (f guest) called := by
  have hplace : (r.map f).nextPlace = r.nextPlace := by
    simp [nextPlace, map]
  simp only [enter, hplace]
  simp only [map, List.map_append, List.map_cons, List.takeWhile_map, List.dropWhile_map,
    Function.comp_def]

theorem callFirst_map : (r.map f).callFirst = (r.callFirst.1.map f, r.callFirst.2.map f) := by
  unfold callFirst
  cases hs : r.seats with
  | nil => simp [map, hs]
  | cons seat rest =>
    obtain ⟨place, guest, called⟩ := seat
    cases called <;> simp [map, hs]

variable [DecidableEq α] [DecidableEq β]

section

variable (hf : ∀ x ∈ r.guests, f x = f guest → x = guest)
include hf

theorem seat?_map : (r.map f).seat? (f guest) =
    (r.seat? guest).map fun seat => ⟨seat.place, f seat.guest, seat.called⟩ := by
  rw [seat?, seat?, map, List.find?_map]
  congr 1
  refine List.find?_congr fun seat hs => ?_
  exact decide_eq_decide.2 ⟨hf _ (List.mem_map_of_mem hs), congrArg f⟩

theorem map_leave : (r.leave guest).map f = (r.map f).leave (f guest) := by
  rw [leave, leave, seat?_map hf]
  cases hs : r.seat? guest with
  | none => rfl
  | some seat =>
    have hseats := map_erase_of_find? (f := fun seat : Seat α => Seat.mk seat.place (f seat.guest)
      seat.called) (q := (·.guest = f guest)) (fun seat hm => decide_eq_decide.2
        ⟨hf _ (List.mem_map_of_mem hm), congrArg f⟩) hs
    simp only [map, Option.map_some, hseats]

theorem map_uncall : (r.uncall guest).map f = (r.map f).uncall (f guest) := by
  simp only [map, uncall, List.map_map]
  congr 1
  refine List.map_congr_left fun seat hs => ?_
  by_cases hg : seat.guest = guest
  · simp [hg]
  · have hne : f seat.guest ≠ f guest := fun he => hg (hf _ (List.mem_map_of_mem hs) he)
    simp [hg, hne]

end

end Room

/-! ## Twins -/

/-- A call without the signals that are marked. -/
def Call.without (before : Nat → List Bool) (call : Call) : Call :=
  { call with before := strip (before call.number) call.before }

def CallUnderWay.without (before : Nat → List Bool) (u : CallUnderWay) : CallUnderWay :=
  { u with call := u.call.without before }

def Party.without (before : Nat → List Bool) : Party → Party
  | call c => .call (c.without before)
  | listener => .listener

@[simp] theorem Party.actor_without (before : Nat → List Bool) (party : Party) :
    (party.without before).actor = party.actor := by
  cases party <;> rfl

namespace Dispatcher

/-- A dispatcher with another feed and agenda, whose calls set off no signal that is marked. -/
def without (s : Dispatcher) (before : Nat → List Bool) (feed : Feed) (agenda : Agenda Actor) :
    Dispatcher :=
  { s with
    feed
    agenda
    underWay := s.underWay.map (·.without before)
    room := s.room.map (·.without before) }

/-- Two states of which the first one is without the signals that are marked. As far as some are
concerned their agendas are the same. -/
def Twins (before : Nat → List Bool) (p : Actor → Bool) (s t : Dispatcher) : Prop :=
  ∃ feed agenda, s = t.without before feed agenda ∧
    agenda.toList.filter p = t.agenda.toList.filter p

namespace Twins

variable {before : Nat → List Bool} {p q : Actor → Bool} {s t : Dispatcher}

section

variable (h : Twins before p s t)
include h

/-! ### Their agendas -/

theorem agenda_eq : s.agenda.toList.filter p = t.agenda.toList.filter p := by
  obtain ⟨feed, agenda, rfl, ha⟩ := h
  exact ha

theorem withAgenda (feed feed' : Feed) {a b : Agenda Actor}
    (ha : a.toList.filter q = b.toList.filter q) :
    Twins before q { s with feed, agenda := a } { t with feed := feed', agenda := b } := by
  obtain ⟨-, -, rfl, -⟩ := h
  exact ⟨feed, a, rfl, ha⟩

theorem withFeed (feed feed' : Feed) :
    Twins before p { s with feed } { t with feed := feed' } :=
  h.withAgenda feed feed' h.agenda_eq

/-- It may be about fewer. -/
theorem mono (hp : ∀ actor, q actor = true → p actor = true) : Twins before q s t := by
  refine h.withAgenda s.feed t.feed ?_
  have hfilter : ∀ l : List Actor, l.filter q = (l.filter p).filter q := fun l => by
    rw [List.filter_filter]
    refine List.filter_congr fun actor _ => ?_
    cases hq : q actor with
    | true => rw [hp actor hq]; rfl
    | false => rfl
  rw [hfilter, h.agenda_eq, ← hfilter]

/-- Those who are on neither agenda do not matter. -/
theorem congr_mem (hs : ∀ actor ∈ s.agenda.toList, q actor = p actor)
    (ht : ∀ actor ∈ t.agenda.toList, q actor = p actor) : Twins before q s t := by
  refine h.withAgenda s.feed t.feed ?_
  rw [List.filter_congr hs, List.filter_congr ht]
  exact h.agenda_eq

/-- The second one rouses someone who can go on already, as far as that matters. -/
theorem rouse_right {actor : Actor} (ha : p actor = true → actor ∈ s.agenda.toList) :
    Twins before p s (t.rouse actor) := by
  refine h.withAgenda s.feed t.feed ?_
  by_cases hm : actor ∈ t.agenda.toList
  · rw [Agenda.rouse_of_mem hm]
    exact h.agenda_eq
  · have hp : ¬ p actor = true := fun hp => hm (List.mem_filter.1 (h.agenda_eq ▸
      List.mem_filter.2 ⟨ha hp, hp⟩)).1
    rw [Agenda.toList_rouse_of_not_mem hm, List.filter_append, List.filter_cons_of_neg hp,
      List.filter_nil, List.append_nil]
    exact h.agenda_eq

/-! ### What does not move a signal -/

theorem rouse (actor : Actor) : Twins before p (s.rouse actor) (t.rouse actor) := by
  obtain ⟨feed, agenda, rfl, ha⟩ := h
  exact ⟨feed, _, rfl, Agenda.filter_rouse_congr ha actor⟩

theorem rouseDecided : Twins before p s.rouseDecided t.rouseDecided := by
  obtain ⟨feed, agenda, rfl, ha⟩ := h
  exact ⟨feed, _, rfl, Agenda.filter_rouseAll_congr ha _⟩

theorem rouseAnswered (r : Resolution) :
    Twins before p (s.rouseAnswered r) (t.rouseAnswered r) := by
  cases r with
  | delivered => exact h.rouseDecided
  | _ => exact h

theorem alarm (now : Nat) : Twins before p (s.alarm now) (t.alarm now) := by
  obtain ⟨feed, agenda, rfl, ha⟩ := h
  exact ⟨feed, _, rfl, Agenda.filter_rouseAll_congr ha _⟩

theorem listener_eq : s.listener = t.listener := by
  obtain ⟨feed, agenda, rfl, -⟩ := h
  rfl

theorem stopping_eq : s.stopping = t.stopping := by
  obtain ⟨feed, agenda, rfl, -⟩ := h
  rfl

theorem table_eq : s.table = t.table := by
  obtain ⟨feed, agenda, rfl, -⟩ := h
  rfl

theorem handles_eq : s.handles = t.handles := by
  obtain ⟨feed, agenda, rfl, -⟩ := h
  rfl

theorem waits_eq : s.waits = t.waits := by
  obtain ⟨feed, agenda, rfl, -⟩ := h
  rfl

theorem events_eq : s.events = t.events := by
  obtain ⟨feed, agenda, rfl, -⟩ := h
  rfl

theorem sent_eq : s.sent = t.sent := by
  obtain ⟨feed, agenda, rfl, -⟩ := h
  rfl

theorem listening?_eq : s.listening? = t.listening? := by
  obtain ⟨feed, agenda, rfl, -⟩ := h
  rfl

theorem gateFree_eq : s.gateFree = t.gateFree := by
  obtain ⟨feed, agenda, rfl, -⟩ := h
  exact Option.isNone_map

theorem rouseListener : Twins before p s.rouseListener t.rouseListener := by
  rw [Dispatcher.rouseListener, Dispatcher.rouseListener, h.listener_eq]
  cases t.listener with
  | ready => exact h.rouse .listener
  | seated | stopped => exact h

theorem note (label : String) (event : JobEvent) :
    Twins before p (s.note label event) (t.note label event) := by
  obtain ⟨feed, agenda, rfl, ha⟩ := h
  exact ⟨feed, agenda, rfl, ha⟩

theorem openGate : Twins before p s.openGate t.openGate := by
  obtain ⟨feed, agenda, rfl, ha⟩ := h
  unfold Dispatcher.openGate
  rw [show (t.without before feed agenda).room.callFirst = _ from Room.callFirst_map]
  obtain ⟨party?, room⟩ := t.room.callFirst
  cases party? with
  | none => exact ⟨feed, agenda, rfl, ha⟩
  | some party =>
    have hroom : Twins before p
        { t.without before feed agenda with room := room.map (·.without before) }
        { t with room } := ⟨feed, agenda, rfl, ha⟩
    show Twins before p (Dispatcher.rouse _ (party.without before).actor) _
    rw [Party.actor_without]
    exact hroom.rouse party.actor

theorem requestStop : Twins before p s.requestStop t.requestStop := by
  obtain ⟨feed, agenda, rfl, ha⟩ := h
  unfold Dispatcher.requestStop
  rw [show (t.without before feed agenda).stopping = t.stopping from rfl]
  split
  · exact ⟨feed, agenda, rfl, ha⟩
  · have hstop : Twins before p { t.without before feed agenda with stopping := true }
        { t with stopping := true } := ⟨feed, agenda, rfl, ha⟩
    exact (hstop.rouse .pump).rouseListener

theorem abandoned_eq : s.abandoned = t.abandoned := by
  obtain ⟨feed, agenda, rfl, -⟩ := h
  have hroom : (t.room.map (·.without before)).guests.all (· = .listener) =
      t.room.guests.all (· = .listener) := by
    rw [Room.guests_map, List.all_map]
    refine congrArg t.room.guests.all (funext fun party => ?_)
    cases party <;> rfl
  have hunder : (t.underWay.map (·.without before)).isNone = t.underWay.isNone := Option.isNone_map
  simp only [abandoned, without, hroom, hunder]

theorem stopIfAbandoned : Twins before p s.stopIfAbandoned t.stopIfAbandoned := by
  rw [Dispatcher.stopIfAbandoned, Dispatcher.stopIfAbandoned, h.abandoned_eq]
  split
  · exact h.requestStop
  · exact h

theorem keepHandle (label : String) (handle : JobHandle) :
    Twins before p (s.keepHandle label handle) (t.keepHandle label handle) := by
  obtain ⟨feed, agenda, rfl, ha⟩ := h
  unfold Dispatcher.keepHandle
  rw [show (t.without before feed agenda).handles = t.handles from rfl]
  split <;> exact ⟨feed, agenda, rfl, ha⟩

theorem handle (event : JobRemoved) : Twins before p (s.handle event) (t.handle event) := by
  obtain ⟨feed, agenda, rfl, ha⟩ := h
  refine openGate (rouseAnswered ?_ _)
  exact ⟨feed, agenda, rfl, ha⟩

theorem stopListener : Twins before p s.stopListener t.stopListener := by
  obtain ⟨feed, agenda, rfl, ha⟩ := h
  refine rouseDecided ?_
  exact ⟨feed, agenda, rfl, ha⟩

theorem takeSignal (signal : Signal) (rest rest' : List Signal) :
    Twins before p (s.takeSignal signal rest) (t.takeSignal signal rest') := by
  have hfree := h.gateFree_eq
  have hfeed := h.withFeed { s.feed with queue := rest } { t.feed with queue := rest' }
  unfold Dispatcher.takeSignal
  cases signal with
  | undecodable => exact hfeed
  | removed event =>
    dsimp only
    rw [hfree]
    split
    · exact hfeed.handle event
    · obtain ⟨feed, agenda, rfl, ha⟩ := h
      refine ⟨{ feed with queue := rest }, agenda, ?_, ha⟩
      unfold without
      rw [Room.map_enter]
      rfl

theorem fail (label : String) (e : Error) :
    Twins before p ((s.note label (.failed e)).openGate).stopIfAbandoned
      ((t.note label (.failed e)).openGate).stopIfAbandoned :=
  ((h.note label (.failed e)).openGate).stopIfAbandoned

theorem takeUp (call : Call) :
    Twins before p (s.takeUp (call.without before)) (t.takeUp call) := by
  obtain ⟨feed, agenda, rfl, ha⟩ := h
  unfold Dispatcher.takeUp
  rw [show (t.without before feed agenda).answer (call.without before).reply = t.answer call.reply
    from rfl]
  generalize t.answer call.reply = answer
  obtain ⟨reply, numbered⟩ := answer
  dsimp only
  rw [show (t.without before feed agenda).table = t.table from rfl]
  generalize t.table.takeUp reply = r
  obtain ⟨result, table⟩ := r
  have hfree : Twins before p
      { t.without before feed agenda with underWay := none, numbered, table }
      { t with underWay := none, numbered, table } := ⟨feed, agenda, rfl, ha⟩
  cases result with
  | error e => exact hfree.fail _ _
  | ok ticket =>
    exact ((hfree.rouseDecided.openGate.keepHandle _ _).note _ _).stopIfAbandoned

theorem underWay_eq : s.underWay = t.underWay.map (·.without before) := by
  obtain ⟨feed, agenda, rfl, -⟩ := h
  rfl

theorem guests_eq : s.room.guests = t.room.guests.map (·.without before) := by
  obtain ⟨feed, agenda, rfl, -⟩ := h
  exact Room.guests_map

theorem seatedCall?_eq (number : Nat) :
    s.seatedCall? number = (t.seatedCall? number).map (·.without before) := by
  rw [seatedCall?, seatedCall?, h.guests_eq, List.findSome?_map, List.map_findSome?]
  refine congrArg (t.room.guests.findSome? ·) (funext fun party => ?_)
  cases party with
  | listener => rfl
  | call call =>
    show (if call.number = number then _ else _) = _
    simp only [Function.comp_def]
    split <;> rfl

/-! ### Moves -/

theorem moveWait? (now : Nat) (ticket : Ticket) :
    Option.Rel (Twins before p) (s.moveWait? now ticket) (t.moveWait? now ticket) := by
  obtain ⟨feed, agenda, rfl, ha⟩ := h
  unfold Dispatcher.moveWait?
  rw [show (t.without before feed agenda).waits = t.waits from rfl]
  cases t.waits.find? (·.ticket = ticket) with
  | none => exact .none
  | some w =>
    rw [Option.bind_some, Option.bind_some,
      show (t.without before feed agenda).verdict? now w = t.verdict? now w from rfl]
    cases t.verdict? now w with
    | none => exact .none
    | some outcome => exact .some ⟨feed, agenda, rfl, ha⟩

/-- The same call gets the gate in both. -/
theorem withCall (call : Call) (answered : Bool) (request : ManagerCall) :
    Twins before p
      { s with
        sent := s.sent ++ [request]
        underWay := some ⟨call.without before, answered⟩ }
      { t with
        sent := t.sent ++ [request]
        underWay := some ⟨call, answered⟩ } := by
  obtain ⟨feed, agenda, rfl, ha⟩ := h
  exact ⟨feed, agenda, rfl, ha⟩

section

variable (hn : (t.room.guests.map Party.actor).Nodup)
include hn

omit h in
/-- Without their signals those who wait for the gate can still be told apart. -/
theorem eq_of_without_eq {party : Party} (hp : party ∈ t.room.guests) :
    ∀ other ∈ t.room.guests, other.without before = party.without before → other = party :=
  fun other ho he => List.inj_on_of_nodup_map hn ho hp (by
    rw [← other.actor_without before, he, party.actor_without])

theorem leave {party : Party} (hp : party ∈ t.room.guests) :
    Twins before p { s with room := s.room.leave (party.without before) }
      { t with room := t.room.leave party } := by
  obtain ⟨feed, agenda, rfl, ha⟩ := h
  refine ⟨feed, agenda, ?_, ha⟩
  unfold without
  rw [Room.map_leave (eq_of_without_eq hn hp)]

/-- The same one has its turn in both, and it is over. -/
theorem pause {actor : Actor} (hs : s.agenda.next? = some actor)
    (ht : t.agenda.next? = some actor) : Twins before p (s.pause actor) (t.pause actor) := by
  obtain ⟨feed, agenda, rfl, ha⟩ := h
  replace hs : agenda.next? = some actor := hs
  rw [Agenda.toList_eq_cons hs, Agenda.toList_eq_cons ht, List.filter_cons, List.filter_cons] at ha
  replace ha : agenda.dismiss.toList.filter p = t.agenda.dismiss.toList.filter p := by
    split at ha
    · exact (List.cons.inj ha).2
    · exact ha
  refine ⟨feed, agenda.dismiss, ?_, ha⟩
  have hfind : (t.without before feed agenda).room.guests.find? (·.actor = actor) =
      (t.room.guests.find? (·.actor = actor)).map (·.without before) := by
    rw [show (t.without before feed agenda).room.guests = _ from Room.guests_map, List.find?_map]
    simp only [Function.comp_def, Party.actor_without]
  unfold Dispatcher.pause
  rw [hfind]
  cases hp : t.room.guests.find? (·.actor = actor) with
  | none => rfl
  | some party =>
    have hinj : ∀ other ∈ t.room.guests, other.without before = party.without before →
        other = party := eq_of_without_eq hn (List.mem_of_find?_eq_some hp)
    have huncall := Room.map_uncall hinj
    exact congrArg (fun room => { t.without before feed agenda.dismiss with room }) huncall.symm

/-! ### Calls of the interface -/

theorem giveUpSeat {party : Party} (hp : party ∈ t.room.guests) :
    Twins before p (s.giveUpSeat (party.without before)) (t.giveUpSeat party) := by
  have hseat : (s.room.seat? (party.without before)).any (·.called) =
      (t.room.seat? party).any (·.called) := by
    obtain ⟨feed, agenda, rfl, -⟩ := h
    rw [show (t.without before feed agenda).room = t.room.map (·.without before) from rfl,
      Room.seat?_map (eq_of_without_eq hn hp), Option.any_map]
  unfold Dispatcher.giveUpSeat
  rw [hseat]
  dsimp only
  split
  · exact (h.leave hn hp).openGate
  · exact h.leave hn hp

theorem dropTask? (label : String) :
    Option.Rel (Twins before p) (s.dropTask? label) (t.dropTask? label) := by
  have hunder : s.underWay.map (·.call.label) = t.underWay.map (·.call.label) := by
    rw [h.underWay_eq, Option.map_map]
    rfl
  have hfind : s.room.guests.find? (isCallOf label) =
      (t.room.guests.find? (isCallOf label)).map (·.without before) := by
    rw [h.guests_eq, List.find?_map]
    refine congrArg (fun q => (t.room.guests.find? q).map _) (funext fun party => ?_)
    cases party <;> rfl
  unfold Dispatcher.dropTask?
  rw [hunder, hfind]
  split
  · obtain ⟨feed, agenda, rfl, ha⟩ := h
    refine .some (stopIfAbandoned (openGate ?_))
    exact ⟨feed, agenda, rfl, ha⟩
  · cases hp : t.room.guests.find? (isCallOf label) with
    | some party => exact .some (h.giveUpSeat hn (List.mem_of_find?_eq_some hp)).stopIfAbandoned
    | none =>
      obtain ⟨feed, agenda, rfl, ha⟩ := h
      dsimp only [Option.map_none]
      rw [show (t.without before feed agenda).kills = t.kills from rfl,
        show (t.without before feed agenda).waits = t.waits from rfl]
      split
      · refine .some (stopIfAbandoned ?_)
        exact ⟨feed, agenda, rfl, ha⟩
      · cases t.waits.find? (·.label = label) with
        | none => exact .none
        | some w => exact .some ⟨feed, agenda, rfl, ha⟩

theorem drop (label : String) :
    (s.drop label).1 = (t.drop label).1 ∧ Twins before p (s.drop label).2 (t.drop label).2 := by
  have htask := h.dropTask? hn label
  unfold Dispatcher.drop
  rw [show s.handles = t.handles by obtain ⟨feed, agenda, rfl, -⟩ := h; rfl]
  cases t.handles.get? label with
  | some handle =>
    obtain ⟨feed, agenda, rfl, ha⟩ := h
    exact ⟨rfl, feed, agenda, rfl, ha⟩
  | none =>
    dsimp only
    generalize s.dropTask? label = o at htask
    generalize t.dropTask? label = o' at htask
    cases htask with
    | none => exact ⟨rfl, h⟩
    | some hs => exact ⟨rfl, hs⟩

end

theorem kill (label : String) (request : Except Error KillRequest) (held : Bool)
    (fail : Option Error) :
    Twins before p (s.kill label request held fail) (t.kill label request held fail) := by
  obtain ⟨feed, agenda, rfl, ha⟩ := h
  cases request <;> cases held <;> exact ⟨feed, agenda, rfl, ha⟩

theorem releaseKill (label : String) :
    (s.releaseKill label).1 = (t.releaseKill label).1 ∧
      Twins before p (s.releaseKill label).2 (t.releaseKill label).2 := by
  obtain ⟨feed, agenda, rfl, ha⟩ := h
  unfold Dispatcher.releaseKill
  rw [show (t.without before feed agenda).kills = t.kills from rfl]
  cases t.kills.get? label with
  | none => exact ⟨rfl, feed, agenda, rfl, ha⟩
  | some fail =>
    refine ⟨rfl, stopIfAbandoned ?_⟩
    exact ⟨feed, agenda, rfl, ha⟩

theorem release (label : String) : (s.release label).1 = (t.release label).1 ∧
    Twins before p (s.release label).2 (t.release label).2 := by
  have hkill := h.releaseKill label
  have hunder := h.underWay_eq
  unfold Dispatcher.release
  cases hu : t.underWay with
  | none =>
    rw [hu] at hunder
    rw [hunder]
    exact hkill
  | some u =>
    obtain ⟨call, answered⟩ := u
    rw [hu] at hunder
    rw [hunder]
    cases answered with
    | true => exact hkill
    | false =>
      simp only [Option.map_some, CallUnderWay.without, Call.without]
      split
      · obtain ⟨feed, agenda, rfl, ha⟩ := h
        refine ⟨rfl, rouse ?_ (.call call.number)⟩
        exact ⟨feed, agenda, rfl, ha⟩
      · exact hkill

theorem wait (now : Nat) (label : String) (limit : Option Duration) :
    (s.wait now label limit).1 = (t.wait now label limit).1 ∧
      Twins before p (s.wait now label limit).2 (t.wait now label limit).2 := by
  obtain ⟨feed, agenda, rfl, ha⟩ := h
  unfold Dispatcher.wait
  rw [show (t.without before feed agenda).handles = t.handles from rfl]
  cases t.handles.get? label with
  | none => exact ⟨rfl, feed, agenda, rfl, ha⟩
  | some handle =>
    obtain ⟨unit, ticket⟩ := handle
    cases limit with
    | none =>
      refine ⟨rfl, rouse ?_ (.wait ticket)⟩
      exact ⟨feed, agenda, rfl, ha⟩
    | some d =>
      dsimp only
      split
      · exact ⟨rfl, feed, agenda, rfl, ha⟩
      · refine ⟨rfl, rouse ?_ (.wait ticket)⟩
        exact ⟨feed, agenda, rfl, ha⟩

theorem dropHolder (label : String) : (s.dropHolder label).1 = (t.dropHolder label).1 ∧
    Twins before p (s.dropHolder label).2 (t.dropHolder label).2 := by
  obtain ⟨feed, agenda, rfl, ha⟩ := h
  refine ⟨rfl, stopIfAbandoned ?_⟩
  exact ⟨feed, agenda, rfl, ha⟩

theorem withGuests (guests : Nat) : Twins before p (s.withGuests guests) (t.withGuests guests) := by
  obtain ⟨feed, agenda, rfl, ha⟩ := h
  refine stopIfAbandoned ?_
  exact ⟨feed, agenda, rfl, ha⟩

/-- The signals of a call are those that are not marked under its number. -/
theorem start (label : String) (request : Except Error JobRequest) (signals : List Signal)
    (held : Bool) (reply : Reply) :
    Twins before p (s.start label request (strip (before t.begun) signals) held reply)
      (t.start label request signals held reply) := by
  cases request with
  | error e => exact h.note label (.failed e)
  | ok request =>
    obtain ⟨feed, agenda, rfl, ha⟩ := h
    refine rouse ?_ (.call t.begun)
    refine ⟨feed, agenda, ?_, ha⟩
    unfold without
    rw [Room.map_enter]
    rfl

/-- Only the signals of those calls matter that wait for the gate or hold it. -/
theorem congr {before' : Nat → List Bool}
    (hg : ∀ call, .call call ∈ t.room.guests → before' call.number = before call.number)
    (hu : ∀ u, t.underWay = some u → before' u.call.number = before u.call.number) :
    Twins before' p s t := by
  obtain ⟨feed, agenda, rfl, ha⟩ := h
  refine ⟨feed, agenda, ?_, ha⟩
  have hunder : t.underWay.map (·.without before) = t.underWay.map (·.without before') :=
    Option.map_congr fun u hm => by
      rw [CallUnderWay.without, CallUnderWay.without, Call.without, Call.without, hu u hm]
  have hroom : t.room.map (·.without before) = t.room.map (·.without before') := by
    refine congrArg (Room.mk · t.room.free) (List.map_congr_left fun seat hs => ?_)
    obtain ⟨place, party, called⟩ := seat
    cases party with
    | listener => rfl
    | call call =>
      dsimp only [Party.without, Call.without]
      rw [hg call (List.mem_map_of_mem hs)]
  rw [without, without, hunder, hroom]

end

end Twins

end Dispatcher

end SystemdControl
