import Mathlib.Algebra.GroupWithZero.Nat
import Mathlib.Algebra.Order.BigOperators.Group.List
import Mathlib.Algebra.Order.Group.Nat
import SystemdControl.Proofs.Agenda
import SystemdControl.Proofs.Job.Dispatcher.Requests
import SystemdControl.Proofs.Job.Dispatcher.Trail
import SystemdControl.Proofs.Job.Reclaiming

/-!
# Jobs come to rest

While nobody comes and the clock stands still pump, listener, calls and waits cannot go on for ever.
A signal goes from the stream to the queue and from the queue to the table, a call from the waiting
room to the manager and from there to its end, and whoever is roused is roused for one of these. So
a dispatcher comes to rest.

* `JobTable.Does.isSome_outcome?`: what is decided of a registration stays decided;
* `Dispatcher.effort` bounds the steps that are left; `Dispatcher.effort_lt`: each step is one;
* `Dispatcher.next?_settle`: after settling nobody is on the agenda.
-/

namespace SystemdControl

/-! ## Outcomes that stay -/

namespace JobTable

variable {t t' : JobTable} {ticket : Ticket} {d : Deed}

theorem isSome_outcome?_iff (t : JobTable) (ticket : Ticket) :
    (t.outcome? ticket).isSome = true ↔
      ((t.waiter? ticket).bind (·.inbox)).isSome = true ∨ t.isOpen ticket = false := by
  unfold outcome?
  split
  · rename_i h
    simp [h]
  · rename_i h
    rw [h]
    cases t.isOpen ticket <;> simp

/-- A result in an inbox is not taken out when another one is delivered. -/
theorem isSome_inbox_deliver (t : JobTable) (other : Ticket) (result : JobResult)
    (h : ((t.waiter? ticket).bind (·.inbox)).isSome = true) :
    (((t.deliver other result).waiter? ticket).bind (·.inbox)).isSome = true := by
  let f : Waiter → Waiter := fun w =>
    if w.ticket = other then { w with inbox := some result } else w
  have hf : (fun w : Waiter => decide (w.ticket = ticket)) ∘ f =
      fun w => decide (w.ticket = ticket) := by
    funext w
    simp only [Function.comp, f]
    split <;> rfl
  have hfind : (t.deliver other result).waiter? ticket = (t.waiter? ticket).map f := by
    show (t.waiters.map f).find? _ = _
    rw [List.find?_map, hf, waiter?]
  rw [hfind]
  cases hw : t.waiter? ticket with
  | none =>
    rw [hw] at h
    cases h
  | some w =>
    rw [hw] at h
    show (f w).inbox.isSome = true
    simp only [f]
    split
    · rfl
    · exact h

/-- A waiter keeps its place when another one goes away. -/
theorem waiter?_drop_of_ne (t : JobTable) {other : Ticket} (hne : ticket ≠ other) :
    (t.drop other).waiter? ticket = t.waiter? ticket := by
  show (t.waiters.filter _).find? _ = t.waiters.find? _
  rw [List.find?_filter]
  congr 1
  funext w
  by_cases hw : w.ticket = ticket
  · simp [hw, hne]
  · simp [hw]

theorem isOpen_drop_self (t : JobTable) (ticket : Ticket) :
    (t.drop ticket).isOpen ticket = false := by
  refine Bool.eq_false_iff.2 fun h => ?_
  obtain ⟨e, he, hp⟩ := List.any_eq_true.1 h
  simp only [Bool.and_eq_true, decide_eq_true_eq] at hp
  simp [JobTable.drop, hp.1] at he

/-- Who goes away decides nothing again that was decided. -/
theorem isSome_outcome?_drop (other : Ticket) (h : (t.outcome? ticket).isSome = true) :
    ((t.drop other).outcome? ticket).isSome = true := by
  rw [isSome_outcome?_iff] at h ⊢
  by_cases hne : ticket = other
  · exact .inr (hne ▸ isOpen_drop_self t ticket)
  · rw [waiter?_drop_of_ne t hne]
    refine h.imp_right fun hopen => Bool.eq_false_iff.2 fun ho => ?_
    obtain ⟨e, he, hp⟩ := List.any_eq_true.1 ho
    exact Bool.eq_false_iff.1 hopen (List.any_eq_true.2 ⟨e, List.mem_of_mem_filter he, hp⟩)

/-- No registration or signal opens a registration again that is not open. -/
theorem isOpen_of_register (path : JobPath) (hlt : ticket.serial < t.registered)
    (ho : (t.register path).2.isOpen ticket = true) : t.isOpen ticket = true := by
  obtain ⟨e, he, hp⟩ := List.any_eq_true.1 ho
  rcases List.mem_cons.1 he with rfl | he
  · have ht : (⟨path, t.registered⟩ : Ticket) = ticket := by simpa using hp
    exact absurd hlt (by simp [← ht])
  · exact List.any_eq_true.2 ⟨e, List.mem_of_mem_filter he, hp⟩

theorem isOpen_of_deliver {other : Ticket} {result : JobResult}
    (ho : (t.deliver other result).isOpen ticket = true) : t.isOpen ticket = true := by
  obtain ⟨e, he, hp⟩ := List.any_eq_true.1 ho
  obtain ⟨e', he', rfl⟩ := List.mem_map.1 he
  split at hp
  · simp at hp
  · exact List.any_eq_true.2 ⟨e', he', hp⟩

/-- What is decided of a registration stays decided. -/
theorem Does.isSome_outcome? (hd : Does t d t') (hlt : ticket.serial < t.registered)
    (h : (t.outcome? ticket).isSome = true) : (t'.outcome? ticket).isSome = true := by
  cases hd with
  | drop other => exact isSome_outcome?_drop other h
  | close => exact (isSome_outcome?_iff ..).2 (.inr rfl)
  | register path =>
    rw [isSome_outcome?_iff] at h ⊢
    refine h.imp (fun hinbox => ?_) fun hopen =>
      Bool.eq_false_iff.2 fun ho => Bool.eq_false_iff.1 hopen (isOpen_of_register path hlt ho)
    have hne : ¬ (⟨path, t.registered⟩ : Ticket) = ticket := by
      rintro rfl
      exact Nat.lt_irrefl _ hlt
    rw [waiter?] at hinbox ⊢
    simpa [JobTable.register, hne] using hinbox
  | resolve path result =>
    unfold JobTable.resolve
    split
    · exact h
    · split
      · exact h
      · exact h
      · rw [isSome_outcome?_iff] at h ⊢
        exact h.imp (isSome_inbox_deliver t _ result) fun hopen =>
          Bool.eq_false_iff.2 fun ho => Bool.eq_false_iff.1 hopen (isOpen_of_deliver ho)

end JobTable

/-! ## The measure -/

/-- What a party in the waiting room can lead to: a call is issued or fails, its reply is taken up,
and its signals go their way. -/
def Party.toil : Party → Nat
  | call c => 4 + 5 * c.before.length
  | listener => 0

/-- What a listener can do besides taking signals: handle the one that it sits with, and end. -/
def Listener.toil : Listener → Nat
  | ready => 1
  | seated _ => 3
  | stopped => 0

namespace Dispatcher

variable {s s' : Dispatcher} {now : Nat}

/-- What pump, listener and calls can do, with those that they can rouse, apart from waits. -/
def toil (s : Dispatcher) : Nat :=
  5 * s.feed.stream.length + 3 * s.feed.queue.length + (if s.feed.pumping then 2 else 0) +
    s.listener.toil + (s.room.guests.map Party.toil).sum + (if s.underWay.isSome then 2 else 0) +
    if s.stopping then 0 else 2

/-- What a wait can do: to end, and to be roused for that. -/
def due (now : Nat) (s : Dispatcher) (w : Wait) : Nat :=
  if (s.verdict? now w).isSome ∧ .wait w.ticket ∈ s.agenda.toList then 1 else 2

def dues (now : Nat) (s : Dispatcher) : Nat :=
  (s.waits.map (s.due now)).sum

/-- A bound on the steps that are possible while nobody comes and the clock stands still. -/
def effort (now : Nat) (s : Dispatcher) : Nat :=
  s.toil + s.dues now + s.agenda.size

theorem due_le (now : Nat) (s : Dispatcher) (w : Wait) : s.due now w ≤ 2 := by
  unfold due
  split <;> omega

theorem due_pos (now : Nat) (s : Dispatcher) (w : Wait) : 1 ≤ s.due now w := by
  unfold due
  split <;> omega

/-- A wait that can end has been roused, and goes on to be, is due no more than before. -/
theorem due_mono {w : Wait}
    (hv : (s.verdict? now w).isSome = true → (s'.verdict? now w).isSome = true)
    (ha : s.agenda.toList ⊆ s'.agenda.toList) : s'.due now w ≤ s.due now w := by
  unfold due
  split
  · split <;> omega
  · rename_i h
    rw [if_neg fun h' => h ⟨hv h'.1, ha h'.2⟩]

theorem dues_mono (hw : s'.waits = s.waits)
    (hv : ∀ w ∈ s.waits, (s.verdict? now w).isSome = true → (s'.verdict? now w).isSome = true)
    (ha : s.agenda.toList ⊆ s'.agenda.toList) : s'.dues now ≤ s.dues now := by
  rw [dues, dues, hw]
  exact List.sum_le_sum fun w hw => due_mono (hv w hw) ha

/-! ## Rousing -/

theorem effort_rouse_le (s : Dispatcher) (actor : Actor) :
    (s.rouse actor).effort now ≤ s.effort now + 1 := by
  have hdues : (s.rouse actor).dues now ≤ s.dues now :=
    dues_mono rfl (fun _ _ h => h) fun _ hx => Agenda.mem_rouse.2 (.inl hx)
  have hsize : (s.rouse actor).agenda.size ≤ s.agenda.size + 1 := s.agenda.size_rouse_le actor
  have htoil : (s.rouse actor).toil = s.toil := rfl
  rw [effort, effort, htoil]
  omega

/-- To rouse a wait that can end costs nothing. -/
theorem effort_rouse_wait_le {w : Wait} (hw : w ∈ s.waits)
    (hv : (s.verdict? now w).isSome = true) :
    (s.rouse (.wait w.ticket)).effort now ≤ s.effort now := by
  by_cases ha : .wait w.ticket ∈ s.agenda.toList
  · rw [rouse, Agenda.rouse_of_mem ha]
  · have hmem : .wait w.ticket ∈ (s.rouse (.wait w.ticket)).agenda.toList :=
      Agenda.mem_rouse.2 (.inr rfl)
    have hdues : (s.rouse (.wait w.ticket)).dues now < s.dues now := by
      refine List.sum_lt_sum _ _ (fun v _ => due_mono (fun h => h) fun x hx =>
        Agenda.mem_rouse.2 (.inl hx)) ⟨w, hw, ?_⟩
      rw [due, due, if_pos ⟨hv, hmem⟩, if_neg fun h => ha h.2]
      decide
    have hsize : (s.rouse (.wait w.ticket)).agenda.size = s.agenda.size + 1 :=
      Agenda.size_rouse_of_not_mem ha
    have htoil : (s.rouse (.wait w.ticket)).toil = s.toil := rfl
    rw [effort, effort, htoil]
    omega

theorem effort_rouseWaits_le {ws : List Wait}
    (h : ∀ w ∈ ws, w ∈ s.waits ∧ (s.verdict? now w).isSome = true) :
    (s.rouseWaits ws).effort now ≤ s.effort now := by
  induction ws generalizing s with
  | nil => exact Nat.le_refl _
  | cons w ws ih =>
    obtain ⟨hw, hv⟩ := h w List.mem_cons_self
    have hrest := ih (s := s.rouse (.wait w.ticket)) fun v hv => h v (List.mem_cons_of_mem _ hv)
    exact hrest.trans (effort_rouse_wait_le hw hv)

theorem isSome_verdict?_of_outcome? {w : Wait}
    (h : (s.table.outcome? w.ticket).isSome = true) (now : Nat) :
    (s.verdict? now w).isSome = true := by
  obtain ⟨outcome, ho⟩ := Option.isSome_iff_exists.1 h
  simp [verdict?, ho]

theorem effort_rouseDecided_le (s : Dispatcher) : s.rouseDecided.effort now ≤ s.effort now := by
  refine effort_rouseWaits_le fun w hw => ?_
  obtain ⟨hw, hd⟩ := List.mem_filter.1 hw
  exact ⟨hw, isSome_verdict?_of_outcome? hd now⟩

theorem effort_rouseAnswered_le (s : Dispatcher) (r : Resolution) :
    (s.rouseAnswered r).effort now ≤ s.effort now := by
  cases r with
  | delivered => exact effort_rouseDecided_le s
  | _ => exact Nat.le_refl _

theorem effort_rouseListener_le (s : Dispatcher) :
    s.rouseListener.effort now ≤ s.effort now + 1 := by
  unfold rouseListener
  split
  · exact effort_rouse_le s _
  · exact Nat.le_succ _

theorem effort_openGate_le (s : Dispatcher) : s.openGate.effort now ≤ s.effort now + 1 := by
  have hguests := s.room.guests_callFirst
  unfold openGate
  split
  · rename_i party room hc
    rw [hc] at hguests
    have hroom : ({ s with room } : Dispatcher).effort now = s.effort now := by
      simp only [effort, toil, hguests]
      rfl
    exact hroom ▸ effort_rouse_le _ _
  · exact Nat.le_succ _

theorem effort_requestStop_le (s : Dispatcher) : s.requestStop.effort now ≤ s.effort now := by
  unfold requestStop
  split
  · exact Nat.le_refl _
  · rename_i hs
    replace hs : s.stopping = false := Bool.eq_false_iff.2 hs
    have hstop : ({ s with stopping := true } : Dispatcher).effort now + 2 = s.effort now := by
      have hdues : ({ s with stopping := true } : Dispatcher).dues now = s.dues now := rfl
      simp only [effort, hdues, toil, hs, if_true, Bool.false_eq_true, if_false]
      omega
    have hpump := @effort_rouse_le now { s with stopping := true } .pump
    have hlistener := @effort_rouseListener_le now
      (({ s with stopping := true } : Dispatcher).rouse .pump)
    omega

theorem effort_stopIfAbandoned_le (s : Dispatcher) :
    s.stopIfAbandoned.effort now ≤ s.effort now := by
  unfold stopIfAbandoned
  split
  · exact effort_requestStop_le s
  · exact Nat.le_refl _

theorem effort_emitSignals_le (s : Dispatcher) (signals : List Signal) :
    (s.emitSignals signals).effort now ≤ s.effort now + 5 * signals.length + 1 := by
  have hfeed : ({ s with feed := s.feed.emit signals } : Dispatcher).effort now ≤
      s.effort now + 5 * signals.length := by
    have hdues : ({ s with feed := s.feed.emit signals } : Dispatcher).dues now = s.dues now := rfl
    simp only [effort, hdues, toil, Feed.queue_emit]
    unfold Feed.emit
    split
    · simp only [List.length_append]
      omega
    · omega
  simp only [emitSignals]
  split
  · omega
  · exact (effort_rouse_le _ _).trans (Nat.succ_le_succ hfeed)

/-- A table in which everything is decided that was decided before. -/
theorem effort_withTable_le {t : JobTable}
    (h : ∀ w ∈ s.waits, (s.table.outcome? w.ticket).isSome = true →
      (t.outcome? w.ticket).isSome = true) :
    ({ s with table := t } : Dispatcher).effort now ≤ s.effort now := by
  have hdues : ({ s with table := t } : Dispatcher).dues now ≤ s.dues now := by
    refine dues_mono rfl (fun w hw hv => ?_) fun _ hx => hx
    cases ho : s.table.outcome? w.ticket with
    | some outcome =>
      obtain ⟨outcome', ho'⟩ := Option.isSome_iff_exists.1 (h w hw (ho ▸ rfl))
      simp [verdict?, ho']
    | none =>
      rw [verdict?, ho] at hv
      cases ho' : t.outcome? w.ticket with
      | some outcome => simp [verdict?, ho']
      | none => simpa [verdict?, ho'] using hv
  have htoil : ({ s with table := t } : Dispatcher).toil = s.toil := rfl
  have hsize : ({ s with table := t } : Dispatcher).agenda.size = s.agenda.size := rfl
  rw [effort, effort, htoil, hsize]
  omega

/-! ## Moves -/

theorem effort_movePump?_lt (h : s.movePump? = some s') : s'.effort now < s.effort now := by
  obtain ⟨feed, hf, rfl⟩ := Option.map_eq_some_iff.1 h
  obtain ⟨hp, hm⟩ := Feed.pump?_cases hf
  suffices hfeed : ({ s with feed } : Dispatcher).effort now + 2 ≤ s.effort now by
    have := @effort_rouseListener_le now { s with feed }
    omega
  have hdues : ({ s with feed } : Dispatcher).dues now = s.dues now := rfl
  simp only [effort, hdues, toil, hp, if_true]
  cases hm with
  | forward hs =>
    simp only [hs, hp, List.length_append, List.length_cons, List.length_nil, if_true]
    omega
  | lose hs =>
    simp only [hs, hp, List.length_cons, if_true]
    omega
  | dismiss =>
    simp only [List.length_nil, Bool.false_eq_true, if_false]
    omega
  | finish =>
    simp only [Bool.false_eq_true, if_false]
    omega

/-- Handling a signal rouses one in the waiting room, and waits that can end. -/
theorem effort_handle_le (h : JobTable.Tidy s.table)
    (hw : ∀ w ∈ s.waits, w.ticket ∈ s.table.tickets) (event : JobRemoved) :
    (s.handle event).effort now ≤ ({ s with listener := .ready } : Dispatcher).effort now + 1 := by
  refine (effort_openGate_le _).trans (Nat.succ_le_succ ((effort_rouseAnswered_le _ _).trans ?_))
  exact effort_withTable_le (s := { s with listener := .ready }) fun w hmem ho =>
    (JobTable.Does.resolve ..).isSome_outcome? (h.serial_lt _ (hw w hmem)) ho

/-- A signal that is taken from the queue. -/
theorem effort_of_take? {feed : Feed} {signal : Signal} (h : s.feed.take? = some (signal, feed))
    (listener : Listener) :
    ({ s with feed, listener } : Dispatcher).effort now + 3 =
      ({ s with listener } : Dispatcher).effort now := by
  unfold Feed.take? at h
  split at h
  · cases h
  · rename_i hq
    cases h
    have hdues : ∀ feed : Feed,
        ({ s with feed, listener } : Dispatcher).dues now = s.dues now := fun _ => rfl
    simp only [effort, hdues, toil, hq, List.length_cons]
    omega

theorem toil_guests_enter (r : Room Party) (party : Party) (called : Bool) :
    ((r.enter party called).guests.map Party.toil).sum =
      party.toil + (r.guests.map Party.toil).sum := by
  rw [((r.guests_enter_perm party called).map _).sum_nat, List.map_cons, List.sum_cons]

theorem toil_guests_leave {r : Room Party} {party : Party} (h : party ∈ r.guests) :
    party.toil + ((r.leave party).guests.map Party.toil).sum = (r.guests.map Party.toil).sum := by
  rw [r.guests_leave, ((List.perm_cons_erase h).map Party.toil).sum_nat, List.map_cons,
    List.sum_cons]

theorem toil_leave_listener (r : Room Party) :
    ((r.leave .listener).guests.map Party.toil).sum = (r.guests.map Party.toil).sum := by
  by_cases h : .listener ∈ r.guests
  · rw [← toil_guests_leave h, Party.toil, Nat.zero_add]
  · rw [r.guests_leave, List.erase_of_not_mem h]

theorem effort_moveListener?_lt (h : JobTable.Tidy s.table)
    (hw : ∀ w ∈ s.waits, w.ticket ∈ s.table.tickets) (hm : s.moveListener? = some s') :
    s'.effort now < s.effort now := by
  have hready : s.listener = .ready → ({ s with listener := .ready } : Dispatcher) = s :=
    fun hl => by rw [← hl]
  cases moveListener?_cases hm with
  | @skip error feed hl ht =>
    have htake : ({ s with feed } : Dispatcher).effort now + 3 = s.effort now :=
      effort_of_take? ht s.listener
    omega
  | @take event feed hl hu ht =>
    have htake := @effort_of_take? s now feed _ ht .ready
    have hhandle : (({ s with feed } : Dispatcher).handle event).effort now ≤
        ({ s with feed, listener := .ready } : Dispatcher).effort now + 1 :=
      effort_handle_le (s := { s with feed }) h hw event
    rw [hready hl] at htake
    omega
  | @sit event feed hl hu ht =>
    have htake := @effort_of_take? s now feed _ ht (.seated event)
    have hroom : ({ s with
        feed
        listener := .seated event
        room := s.room.enter .listener false } : Dispatcher).effort now =
          ({ s with feed, listener := .seated event } : Dispatcher).effort now := by
      simp only [effort, toil, toil_guests_enter, Party.toil, Nat.zero_add]
      rfl
    have hseat : ({ s with listener := .seated event } : Dispatcher).effort now =
        s.effort now + 2 := by
      have hdues : ({ s with listener := .seated event } : Dispatcher).dues now = s.dues now := rfl
      simp only [effort, hdues, toil, hl, Listener.toil]
      omega
    omega
  | @rise event hl hu =>
    have hhandle : (({ s with room := s.room.leave .listener } : Dispatcher).handle event).effort
        now ≤ ({ s with
          room := s.room.leave .listener
          listener := .ready } : Dispatcher).effort now + 1 :=
      effort_handle_le (s := { s with room := s.room.leave .listener }) h hw event
    have hroom : ({ s with
        room := s.room.leave .listener
        listener := .ready } : Dispatcher).effort now + 2 = s.effort now := by
      have hdues : ({ s with
        room := s.room.leave .listener
        listener := .ready } : Dispatcher).dues now = s.dues now := rfl
      simp only [effort, hdues, toil, hl, Listener.toil, toil_leave_listener]
      omega
    omega
  | stop hl hq hs =>
    have hclose : ({ s with listener := .stopped, table := s.table.close } : Dispatcher).effort now
        ≤ ({ s with listener := .stopped } : Dispatcher).effort now :=
      effort_withTable_le (s := { s with listener := .stopped })
        fun w _ _ => (JobTable.isSome_outcome?_iff ..).2 (.inr rfl)
    have hdecided : s.stopListener.effort now ≤
        ({ s with listener := .stopped, table := s.table.close } : Dispatcher).effort now :=
      effort_rouseDecided_le _
    have hstop : ({ s with listener := .stopped } : Dispatcher).effort now + 1 = s.effort now := by
      have hdues : ({ s with listener := .stopped } : Dispatcher).dues now = s.dues now := rfl
      simp only [effort, hdues, toil, hl, Listener.toil]
      omega
    omega

/-- A call that ends without a job calls the next one to the gate. -/
theorem effort_fail_le (s : Dispatcher) (label : String) (e : Error) :
    (((s.note label (.failed e)).openGate).stopIfAbandoned).effort now ≤ s.effort now + 1 :=
  (effort_stopIfAbandoned_le _).trans (effort_openGate_le (s.note label (.failed e)))

theorem effort_issue_le (call : Call) :
    (s.issue call).effort now ≤ s.effort now + 3 + 5 * call.before.length := by
  unfold issue
  split
  · exact (effort_fail_le s _ _).trans (by omega)
  · refine (effort_emitSignals_le _ _).trans ?_
    have hdues : ({ s with
      sent := s.sent ++ [ManagerCall.job call.request]
      underWay := some ⟨call, !call.held⟩ } : Dispatcher).dues now = s.dues now := rfl
    simp only [effort, hdues, toil, Option.isSome_some, if_true]
    split <;> omega

theorem effort_keepHandle_le (s : Dispatcher) (label : String) (handle : JobHandle) :
    (s.keepHandle label handle).effort now ≤ s.effort now := by
  unfold keepHandle
  split
  · exact Nat.le_refl _
  · exact effort_withTable_le (s := { s with handles := s.handles.set label handle })
      fun w _ ho => JobTable.isSome_outcome?_drop _ ho

theorem effort_takeUp_lt (h : JobTable.Tidy s.table)
    (hw : ∀ w ∈ s.waits, w.ticket ∈ s.table.tickets) {call : Call} {answered : Bool}
    (hu : s.underWay = some ⟨call, answered⟩) : (s.takeUp call).effort now < s.effort now := by
  let free : Dispatcher := { s with underWay := none, numbered := (s.answer call.reply).2 }
  have hfree : free.effort now + 2 = s.effort now := by
    have hdues : free.dues now = s.dues now := rfl
    simp only [free] at hdues
    simp only [free, effort, hdues, toil, hu, Option.isSome_some, Option.isSome_none, if_true,
      Bool.false_eq_true, if_false]
    omega
  refine takeUp_cases (motive := fun s' => s'.effort now < s.effort now) s call (fun e _ => ?fail)
    fun path ho _ => ?register
  case fail =>
    have hle : (s.failCall call e).effort now ≤ free.effort now + 1 :=
      effort_fail_le (s := free) ..
    omega
  case register =>
    refine Nat.lt_of_le_of_lt (effort_stopIfAbandoned_le _) ?_
    refine Nat.lt_of_le_of_lt (effort_keepHandle_le _ _ _) ?_
    refine Nat.lt_of_le_of_lt (effort_openGate_le _) ?_
    refine Nat.lt_of_le_of_lt (Nat.succ_le_succ (effort_rouseDecided_le _)) ?_
    have hregister : ({ s with
        underWay := none
        numbered := (s.answer call.reply).2
        table := (s.table.register path).2 } : Dispatcher).effort now ≤ free.effort now :=
      effort_withTable_le (s := free) fun w hmem =>
        (JobTable.Does.register s.table path ho).isSome_outcome? (h.serial_lt _ (hw w hmem))
    omega

theorem effort_moveCall?_lt (h : JobTable.Tidy s.table)
    (hw : ∀ w ∈ s.waits, w.ticket ∈ s.table.tickets) {number : Nat}
    (hm : s.moveCall? number = some s') : s'.effort now < s.effort now := by
  cases moveCall?_cases hm with
  | takeUp hu => exact effort_takeUp_lt h hw hu
  | @issue call hu hcall =>
    have hissue := @effort_issue_le { s with room := s.room.leave (.call call) } now call
    have hleave : ({ s with room := s.room.leave (.call call) } : Dispatcher).effort now + 4 +
        5 * call.before.length = s.effort now := by
      have hdues : ({ s with room := s.room.leave (.call call) } : Dispatcher).dues now =
        s.dues now := rfl
      have htoil := toil_guests_leave ((mem_of_seatedCall? hcall).1)
      rw [Party.toil] at htoil
      simp only [effort, hdues, toil]
      omega
    omega

/-! ## Steps -/

section
variable (h : JobTable.Holds s.table s.core.tickets)
include h

theorem nodup_waits : (s.waits.map (·.ticket)).Nodup :=
  (List.nodup_append.1 (h.perm.nodup_iff.2 h.nodup)).2.1

theorem wait_ticket_mem : ∀ w ∈ s.waits, w.ticket ∈ s.table.tickets := fun _ hw =>
  h.mem_tickets (List.mem_append_right _ (List.mem_map_of_mem hw))

/-- The wait of a registration is found by it. -/
theorem find?_wait {w : Wait} (hw : w ∈ s.waits) :
    s.waits.find? (·.ticket = w.ticket) = some w :=
  find?_key_eq (nodup_waits h) hw

omit h in
theorem effort_moveWait?_lt {ticket : Ticket} (hm : s.moveWait? now ticket = some s') :
    s'.effort now < s.effort now := by
  obtain ⟨w, hw, -, outcome, -, rfl⟩ := moveWait?_cases hm
  have hdrop : ({ s with table := s.table.drop w.ticket } : Dispatcher).effort now ≤
      s.effort now :=
    effort_withTable_le fun v _ ho => JobTable.isSome_outcome?_drop _ ho
  have hperm : ({ s with table := s.table.drop w.ticket } : Dispatcher).dues now =
      ({ s with table := s.table.drop w.ticket } : Dispatcher).due now w +
        ({ s with
          waits := s.waits.erase w
          table := s.table.drop w.ticket } : Dispatcher).dues now :=
    ((List.perm_cons_erase hw).map _).sum_nat
  have hpos := due_pos now { s with table := s.table.drop w.ticket } w
  show ({ s with waits := s.waits.erase w, table := s.table.drop w.ticket } : Dispatcher).toil +
    ({ s with waits := s.waits.erase w, table := s.table.drop w.ticket } : Dispatcher).dues now +
      s.agenda.size < _
  have htoil : ({ s with waits := s.waits.erase w, table := s.table.drop w.ticket } :
    Dispatcher).toil = s.toil := rfl
  have heffort : ({ s with table := s.table.drop w.ticket } : Dispatcher).effort now = s.toil +
    ({ s with table := s.table.drop w.ticket } : Dispatcher).dues now + s.agenda.size := rfl
  omega

theorem effort_move?_lt {actor : Actor} (hm : s.move? now actor = some s') :
    s'.effort now < s.effort now := by
  cases actor with
  | pump => exact effort_movePump?_lt hm
  | listener => exact effort_moveListener?_lt h.toTidy (wait_ticket_mem h) hm
  | call number => exact effort_moveCall?_lt h.toTidy (wait_ticket_mem h) hm
  | wait ticket => exact effort_moveWait?_lt hm

/-- Whoever's turn ends leaves the agenda. If that is a wait it could not end. -/
theorem effort_pause_lt {actor : Actor} (hnext : s.agenda.next? = some actor)
    (hm : s.move? now actor = none) : (s.pause actor).effort now < s.effort now := by
  have hagenda : s.agenda.toList = actor :: s.agenda.dismiss.toList := Agenda.toList_eq_cons hnext
  have hsize : s.agenda.dismiss.size + 1 = s.agenda.size := by
    simp only [Agenda.size, hagenda, List.length_cons]
  have hguests : (s.pause actor).room.guests = s.room.guests := by
    unfold pause
    dsimp only
    split
    · exact s.room.guests_uncall _
    · rfl
  have htoil : (s.pause actor).toil = s.toil := by
    simp only [toil, hguests]
    rfl
  have hdues : (s.pause actor).dues now ≤ s.dues now := by
    refine List.sum_le_sum fun w hw => ?_
    by_cases hv : (s.verdict? now w).isSome = true
    · have hne : Actor.wait w.ticket ≠ actor := by
        rintro rfl
        obtain ⟨outcome, ho⟩ := Option.isSome_iff_exists.1 hv
        simp [move?, moveWait?, find?_wait h hw, ho] at hm
      by_cases ha : .wait w.ticket ∈ s.agenda.toList
      · rw [hagenda] at ha
        have ha' := (List.mem_cons.1 ha).resolve_left hne
        exact (if_pos (c := ((s.pause actor).verdict? now w).isSome ∧ _) ⟨hv, ha'⟩).trans_le
          (due_pos now s w)
      · exact (due_le now _ w).trans (if_neg fun h => ha h.2).ge
    · exact (due_le now _ w).trans (if_neg fun h => hv h.1).ge
  show (s.pause actor).toil + (s.pause actor).dues now + s.agenda.dismiss.size < _
  rw [effort, htoil]
  omega

/-- While the clock stands still each step is one of those that were left. -/
theorem effort_lt (hs : s.step? now = some s') : s'.effort now < s.effort now := by
  obtain ⟨actor, hnext, rfl⟩ := Option.map_eq_some_iff.1 hs
  cases hm : s.move? now actor with
  | none => exact effort_pause_lt h hnext hm
  | some s' => exact effort_move?_lt h hm

end

/-- Every live waiter goes on to belong to one handle or wait. -/
theorem holds_act (h : JobTable.Holds s.table s.core.tickets) (x : Act) :
    JobTable.Holds (s.act x).table (s.act x).core.tickets :=
  ((s.act_effect x).doesAll h).1

/-- A step is a move, or the end of a turn of someone who cannot move. -/
theorem step?_cases (h : s.step? now = some s') :
    ∃ actor, s.agenda.next? = some actor ∧
      (s.move? now actor = some s' ∧ s' = s.act (.move now actor) ∨
        s.move? now actor = none ∧ s' = s.act (.pause actor)) := by
  obtain ⟨actor, hnext, rfl⟩ := Option.map_eq_some_iff.1 h
  refine ⟨actor, hnext, ?_⟩
  cases hm : s.move? now actor with
  | none => exact .inr ⟨rfl, rfl⟩
  | some s' => exact .inl ⟨rfl, by rw [act, hm, Option.getD_some, Option.getD_some]⟩

theorem holds_step? (h : JobTable.Holds s.table s.core.tickets) (hs : s.step? now = some s') :
    JobTable.Holds s'.table s'.core.tickets := by
  obtain ⟨actor, -, ⟨-, rfl⟩ | ⟨-, rfl⟩⟩ := step?_cases hs
  · exact holds_act h _
  · exact holds_act h _

theorem next?_steps (h : JobTable.Holds s.table s.core.tickets) {n : Nat}
    (hn : s.effort now < n) : (steps now n s).agenda.next? = none := by
  induction n generalizing s with
  | zero => exact absurd hn (Nat.not_lt_zero _)
  | succ n ih =>
    unfold steps
    split
    · rename_i hs
      exact Option.map_eq_none_iff.1 hs
    · rename_i s' hs
      refine ih (holds_step? h hs) ?_
      have hlt := effort_lt h hs
      omega

/-- The signals that are on their way or will be emitted, and what else those in the waiting room
lead to. -/
theorem toil_guests_le (s : Dispatcher) : ∃ later,
    s.pendingSignals = s.feed.stream.length + s.feed.queue.length + later ∧
      (s.room.guests.map Party.toil).sum ≤ 4 * s.room.seats.length + 5 * later := by
  refine ⟨_, rfl, ?_⟩
  rw [← List.sum_eq_foldl_nat, ← List.length_map (fun seat : Seat Party => seat.guest)]
  show _ ≤ 4 * s.room.guests.length + _
  induction s.room.guests with
  | nil => exact Nat.le_refl _
  | cons party guests ih =>
    cases party <;> simp only [List.map_cons, List.sum_cons, Party.toil, List.length_cons] <;> omega

/-- The bound on the steps of a settlement is enough. -/
theorem effort_lt_work (now : Nat) (s : Dispatcher) : s.effort now < s.work := by
  have hdues : s.dues now ≤ s.waits.length * 2 := by
    rw [← List.length_map (s.due now)]
    refine List.sum_le_card_nsmul _ 2 fun n hn => ?_
    obtain ⟨w, -, rfl⟩ := List.mem_map.1 hn
    exact due_le now s w
  obtain ⟨later, hpending, hguests⟩ := toil_guests_le s
  have hlistener : s.listener.toil ≤ 3 := by
    cases s.listener <;> simp [Listener.toil]
  rw [work, hpending]
  simp only [effort, toil]
  split <;> split <;> split <;> omega

/-- After settling nobody can go on while the clock stands still. -/
theorem next?_settle (h : JobTable.Holds s.table s.core.tickets) (now : Nat) :
    (s.settle now).agenda.next? = none :=
  next?_steps h (effort_lt_work now s)

end Dispatcher

end SystemdControl
