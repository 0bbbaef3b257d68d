import SystemdControl.Proofs.Job.Dispatcher.Lineup
import SystemdControl.Proofs.Job.Dispatcher.Stopping
import SystemdControl.Proofs.Job.Dispatcher.Turns

/-!
# No new jobs after a shutdown

Once pump and listener are asked to stop and everybody waits, the listener has stopped, or sits in
the waiting room with a signal. A call that is submitted then comes behind it. When the listener
gets the gate it goes on until it has stopped, and only then does anyone behind it get the gate; so
such a call finds the table closed.

* `Lineup.Shut` is what keeps a call from being issued; it holds when the call is submitted
  (`Lineup.Shut.submit`), and acts that keep to turns and to the order of arrival keep it
  (`Lineup.Shut.step`);
* `Exchange.leave_cases`: how a call that waits for the gate stops to do so.
-/

namespace SystemdControl

namespace Core

variable {c c' : Core}

/-- A closed table stays closed. -/
theorem Effect.stays_closed (e : c.Effect c') (hc : c.table.closed = true) :
    c'.table.closed = true := by
  cases e with
  | register _ _ _ _ ho => exact absurd (ho.symm.trans hc) Bool.false_ne_true
  | take | rise => rwa [← JobTable.closed_resolve] at hc
  | stop => rfl
  | _ => exact hc

end Core

namespace Dispatcher

variable {s : Dispatcher} {x : Act}

theorem stopping_act (s : Dispatcher) (x : Act) (hs : s.stopping = true) :
    (s.act x).stopping = true := by
  rcases s.act_cases x with a | ⟨now, rfl⟩ | ⟨now, rfl⟩
  · exact a.stopping hs
  · rw [act, move?]
    cases hm : s.movePump? with
    | none => exact hs
    | some s' =>
      obtain ⟨feed, -, rfl⟩ := Option.map_eq_some_iff.1 hm
      exact (apart_rouseListener { s with feed }).stopping hs
  · rw [act, move?]
    cases hm : s.moveListener? with
    | none => exact hs
    | some s' =>
      cases moveListener?_cases hm with
      | skip | sit | stop => exact hs
      | take | rise => exact (stopping_handle _).trans hs

/-- Whoever was asked to stop goes on to be. -/
theorem stopping_of_mem {xs : List Act} (hx : .requestStop ∈ xs) (s : Dispatcher) :
    (xs.foldl act s).stopping = true := by
  have hkeep : ∀ (xs : List Act) (s : Dispatcher), s.stopping = true →
      (xs.foldl act s).stopping = true := fun xs => by
    induction xs with
    | nil => exact fun s hs => hs
    | cons x xs ih => exact fun s hs => ih _ (s.stopping_act x hs)
  obtain ⟨us, vs, rfl⟩ := List.append_of_mem hx
  rw [List.foldl_append, List.foldl_cons]
  refine hkeep vs _ ?_
  show (requestStop _).stopping = true
  unfold requestStop
  split
  · assumption
  · exact (apart_rouseListener _).stopping rfl

/-- A listener that is ready and shall stop can go on. -/
theorem isSome_moveListener?_stopping (hl : s.listener = .ready) (hs : s.stopping = true) :
    s.moveListener?.isSome := by
  rw [moveListener?, hl]
  cases s.feed.take? with
  | none => simp [hs]
  | some p =>
    obtain ⟨signal, feed⟩ := p
    cases signal with
    | undecodable => rfl
    | removed event => cases s.gateFree <;> rfl

end Dispatcher

namespace Exchange

variable {s : Dispatcher} {x : Dispatcher.Act} {l : Ledger} {call : Call}

/-- A call stops to wait for the gate when it gets it, when its caller abandons it, or when it finds
the table closed and fails. -/
theorem leave_cases (e : Exchange s x l) (hg : .call call ∈ s.room.guests)
    (hn : .call call ∉ l.guests) :
    s.ledger.issued? l = some call ∨ x = .drop call.label ∨
      s.table.closed = true ∧
        l.events = s.events ++ [(call.label, .failed .listenerUnavailable)] := by
  have hother : ∀ {party}, .call call ∉ s.room.guests.erase party → party = .call call :=
    fun hn => by
      by_contra hne
      exact hn ((List.mem_erase_of_ne (Ne.symm hne)).2 hg)
  cases e with
  | submit _ _ _ _ _ hp | sit _ _ _ hp =>
    exact absurd (hp.mem_iff.2 (List.mem_cons_of_mem _ hg)) hn
  | rise => cases hother hn
  | issue now _ hu =>
    cases hother hn
    exact .inl (Ledger.issued?_eq_some_iff.2 ⟨hu, _, rfl, rfl⟩)
  | turnAway now _ hu hc =>
    cases hother hn
    exact .inr (.inr ⟨hc, rfl⟩)
  | giveUp =>
    cases hother hn
    exact .inr (.inl rfl)
  | _ => exact absurd hg hn

end Exchange

namespace Lineup

open Dispatcher (Act)

/-- What keeps a call from being issued, given whose turn it is. -/
inductive Hindrance (l : Lineup) (turn : Option Actor) (call : Call) : Prop
  | closed (hc : l.jobs.table.closed = true)
  /-- The listener sits in front of the call. -/
  | behind {front back : List Party} (hs : l.jobs.listener.isSeated = true)
      (hl : l.line = front ++ .listener :: back) (hn : .call call ∉ front)
  /-- It is the turn of the listener, which is about to stop. -/
  | ending (hl : l.jobs.listener = .ready) (hu : l.jobs.underWay = none)
      (ht : turn = some .listener)

/-- Pump and listener were asked to stop, and something keeps a call from being issued. -/
structure Shut (l : Lineup) (turn : Option Actor) (call : Call) : Prop extends l.Faithful where
  stopping : l.jobs.stopping = true
  hindrance : l.Hindrance turn call

variable {l : Lineup} {turn : Option Actor} {x : Act} {call : Call}

/-- Whoever sits behind the listener goes on to do so while the listener sits. -/
theorem Faithful.behind_step (h : l.Faithful) {front back : List Party}
    (hl : l.line = front ++ .listener :: back) (hn : .call call ∉ front)
    (hs : (l.jobs.act x).listener.isSeated = true) :
    ∃ front' back', (l.step x).line = front' ++ .listener :: back' ∧ .call call ∉ front' := by
  rcases h.line_step x with ⟨hl', -⟩ | ⟨party, hl', -⟩ | ⟨party, hl', hg⟩
  · exact ⟨front, back, hl'.trans hl, hn⟩
  · refine ⟨front, back ++ [party], ?_, hn⟩
    rw [hl', hl, List.append_assoc, List.cons_append]
  · have hparty : party ≠ .listener := fun he => by
      have hm : .listener ∈ (l.jobs.act x).room.guests := (h.step x).listener_mem_iff.2 hs
      rw [hg, he] at hm
      exact h.nodup.not_mem_erase hm
    by_cases hf : party ∈ front
    · refine ⟨front.erase party, back, ?_, fun hm => hn (List.mem_of_mem_erase hm)⟩
      rw [hl', hl, List.erase_append_left _ hf]
    · refine ⟨front, back.erase party, ?_, hn⟩
      rw [hl', hl, List.erase_append_right _ hf, List.erase_cons_tail (by simpa using hparty.symm)]

/-- A listener that was seated and has got up is ready at the free gate, and it has the turn. -/
theorem ending_of_rise (hs : l.jobs.listener.isSeated = true)
    (hs' : (l.jobs.act x).listener.isSeated = false) :
    (l.step x).Hindrance (x.turn turn) call := by
  have hne : (l.jobs.act x).listener ≠ l.jobs.listener := fun he => by
    rw [he, hs] at hs'
    cases hs'
  rcases l.jobs.act_cases x with a | ⟨now, rfl⟩ | ⟨now, rfl⟩
  · exact absurd a.listener hne
  · exact absurd (Dispatcher.listener_act_pump now) hne
  · rw [Dispatcher.act, Dispatcher.move?] at hne
    cases hm : l.jobs.moveListener? with
    | none =>
      rw [hm] at hne
      exact absurd rfl hne
    | some s' =>
      have hact : l.jobs.act (.move now .listener) = s' := by
        rw [Dispatcher.act, Dispatcher.move?, hm, Option.getD_some]
      cases Dispatcher.moveListener?_cases hm with
      | @rise event hl hu =>
        refine .ending ?_ ?_ rfl
        · show (l.jobs.act (.move now .listener)).listener = .ready
          rw [hact, Dispatcher.listener_handle]
        · show (l.jobs.act (.move now .listener)).core.underWay = none
          rw [hact, Dispatcher.core_handle]
          exact hu
      | skip hl | take hl | sit hl | stop hl =>
        rw [hl] at hs
        cases hs

/-- A listener that is about to stop goes on until it has. -/
theorem Hindrance.step_of_ending (hstop : l.jobs.stopping = true) (hl : l.jobs.listener = .ready)
    (hu : l.jobs.underWay = none) (ht : l.jobs.onTurn (some .listener) x = true) :
    (l.step x).Hindrance (x.turn (some .listener)) call := by
  have hsome := Dispatcher.isSome_moveListener?_stopping hl hstop
  have hturn : x.turn (some .listener) = some .listener := by
    refine (Dispatcher.turn_of_onTurn ht).resolve_right fun ⟨_, hnone⟩ => ?_
    rw [show l.jobs.moveListener? = none from hnone] at hsome
    cases hsome
  rcases l.jobs.act_cases x with a | ⟨now, rfl⟩ | ⟨now, rfl⟩
  · refine .ending (a.listener.trans hl) ?_ hturn
    -- A call does not get the gate, because it is not its turn.
    rw [Option.eq_none_iff_forall_ne_some]
    intro u hu'
    have hi : l.jobs.issued? x = some u.call :=
      Ledger.issued?_eq_some_iff.2 ⟨hu, u, hu', rfl⟩
    obtain ⟨⟨now, rfl⟩, -⟩ := (l.jobs.act_exchange x).issued hi
    cases hturn
  · cases hturn
  · cases hm : l.jobs.moveListener? with
    | none =>
      rw [hm] at hsome
      cases hsome
    | some s' =>
      have hact : l.jobs.act (.move now .listener) = s' := by
        rw [Dispatcher.act, Dispatcher.move?, hm, Option.getD_some]
      cases Dispatcher.moveListener?_cases hm with
      | skip => exact .ending (congrArg _ hact |>.trans hl) (congrArg _ hact |>.trans hu) rfl
      | @take event feed =>
        refine .ending ?_ ?_ rfl
        · show (l.jobs.act (.move now .listener)).listener = .ready
          rw [hact, Dispatcher.listener_handle]
        · show (l.jobs.act (.move now .listener)).core.underWay = none
          rw [hact, Dispatcher.core_handle]
          exact hu
      | sit _ hu' => exact absurd hu hu'
      | rise hl' => cases hl.symm.trans hl'
      | stop =>
        refine .closed ?_
        show (l.jobs.act (.move now .listener)).table.closed = true
        rw [hact]
        rfl

namespace Shut

/-- A call that is submitted after the listener has come to rest. -/
theorem submit (h : l.Faithful) (hd : l.jobs.core.Drained) (hstop : l.jobs.stopping = true)
    {now : Nat} (hr : l.jobs.move? now .listener = none) (turn : Option Actor) (label : String)
    (request : JobRequest) (before : List Signal) (held : Bool) (reply : Reply) :
    Shut (l.step (.start label (.ok request) before held reply)) turn
      ⟨l.jobs.begun, label, request, before, held, reply⟩ := by
  refine ⟨h.step _, l.jobs.stopping_act _ hstop, ?_⟩
  cases hl : l.jobs.listener with
  | stopped => exact .closed (hd.closed_iff.2 hl)
  | ready =>
    have hsome := Dispatcher.isSome_moveListener?_stopping hl hstop
    rw [show l.jobs.moveListener? = none from hr] at hsome
    cases hsome
  | seated event =>
    have hseated : l.jobs.listener.isSeated = true := hl ▸ rfl
    obtain ⟨front, back, hline⟩ :=
      List.append_of_mem (h.perm.mem_iff.2 (h.listener_mem_iff.2 hseated))
    have hnew : .call ⟨l.jobs.begun, label, request, before, held, reply⟩ ∉ l.jobs.room.guests :=
      fun hm => Nat.lt_irrefl _ (h.number_lt _ hm)
    have hline' : (l.step (.start label (.ok request) before held reply)).line =
        front ++ .listener ::
          (back ++ [.call ⟨l.jobs.begun, label, request, before, held, reply⟩]) := by
      have henter := h.line_step_enter (x := .start label (.ok request) before held reply) hnew
        (l.jobs.room.guests_enter_perm _ true)
      rw [henter, hline, List.append_assoc, List.cons_append]
    refine .behind hseated hline' fun hm => hnew (h.perm.mem_iff.1 ?_)
    rw [hline]
    exact List.mem_append_left _ hm

/-- Acts that keep to turns and to the order of arrival do not issue the call. -/
theorem step (h : Shut l turn call) (ht : l.jobs.onTurn turn x = true)
    (ho : ∀ c, l.jobs.issued? x = some c → l.line.head? = some (.call c)) :
    l.jobs.issued? x ≠ some call ∧ Shut (l.step x) (x.turn turn) call := by
  have hstop : (l.jobs.act x).stopping = true := l.jobs.stopping_act x h.stopping
  refine ⟨fun hi => ?_, h.toFaithful.step x, hstop, ?_⟩
  · obtain ⟨⟨now, rfl⟩, -, -, hopen, -⟩ := (l.jobs.act_exchange x).issued hi
    cases h.hindrance with
    | closed hc => exact absurd (hopen.symm.trans hc) Bool.false_ne_true
    | @behind front back hs hl hn =>
      have hhead := ho call hi
      rw [hl] at hhead
      cases front with
      | nil => cases hhead
      | cons party front =>
        cases hhead
        exact hn List.mem_cons_self
    | ending _ _ hturn =>
      subst hturn
      have he : Actor.call call.number = .listener := of_decide_eq_true ht
      cases he
  · cases h.hindrance with
    | closed hc => exact .closed ((l.jobs.act_effect x).stays_closed hc)
    | behind hs hl hn =>
      cases hs' : (l.jobs.act x).listener.isSeated with
      | true =>
        obtain ⟨front', back', hl', hn'⟩ := h.toFaithful.behind_step hl hn hs'
        exact .behind hs' hl' hn'
      | false => exact ending_of_rise hs hs'
    | ending hl hu hturn =>
      subst hturn
      exact .step_of_ending h.stopping hl hu ht

theorem after (h : Shut l turn call) {xs : List Act} (ht : l.jobs.inTurn turn xs = true)
    (ho : l.inOrder xs = true) : call ∉ l.jobs.issues xs := by
  induction xs generalizing l turn with
  | nil => exact List.not_mem_nil
  | cons x xs ih =>
    obtain ⟨htx, htxs⟩ := Bool.and_eq_true_iff.1 ht
    obtain ⟨hox, hoxs⟩ := inOrder_cons_iff.1 ho
    obtain ⟨hn, hs⟩ := h.step htx hox
    rw [Dispatcher.issues, Run.outputs_cons, List.mem_append, Option.mem_toList]
    exact fun hm => hm.elim hn (ih hs htxs hoxs)

end Shut

end Lineup

namespace Dispatcher

variable {s : Dispatcher} {call : Call}

/-- A call that waits for the gate and is not issued waits at the end of the run, unless it was
abandoned or found the table closed. -/
theorem waits_or_leaves (hg : .call call ∈ s.room.guests) {xs : List Act}
    (hn : call ∉ s.issues xs) :
    .call call ∈ (xs.foldl act s).room.guests ∨
      ∃ us x vs, xs = us ++ x :: vs ∧
        let s' := us.foldl act s
        .call call ∈ s'.room.guests ∧
          (x = .drop call.label ∨
            (s'.act x).events = s'.events ++ [(call.label, .failed .listenerUnavailable)]) := by
  induction xs generalizing s with
  | nil => exact .inl hg
  | cons x xs ih =>
    rw [issues, Run.outputs_cons, List.mem_append, Option.mem_toList, not_or] at hn
    by_cases hstay : .call call ∈ (s.act x).room.guests
    · refine (ih hstay hn.2).imp_right ?_
      rintro ⟨us, y, vs, rfl, hleaves⟩
      exact ⟨x :: us, y, vs, rfl, hleaves⟩
    · obtain hi | hleaves := (s.act_exchange x).leave_cases hg hstay
      · exact absurd hi hn.1
      · exact .inr ⟨[], x, xs, rfl, hg, hleaves.imp_right (·.2)⟩

theorem drained_after (capacity : Nat) (xs : List Act) :
    (xs.foldl act { feed := { capacity } }).core.Drained := by
  have hkeep : ∀ (xs : List Act) (s : Dispatcher), s.core.Drained →
      (xs.foldl act s).core.Drained := fun xs => by
    induction xs with
    | nil => exact fun s h => h
    | cons x xs ih => exact fun s h => ih _ (h.effect (s.act_effect x))
  exact hkeep xs _ ⟨iff_of_false Bool.false_ne_true nofun, fun _ => rfl⟩

/-- A shutdown does not concern the requests to signal a unit. Their answers come from the manager
alone. -/
theorem kill_apart (s : Dispatcher) (table : JobTable) (listener : Listener) (stopping : Bool)
    (label : String) (request : Except Error KillRequest) (held : Bool) (fail : Option Error) :
    { s with table, listener, stopping }.kill label request held fail =
      { s.kill label request held fail with table, listener, stopping } := by
  cases request with
  | error e => rfl
  | ok request => cases held <;> rfl

end Dispatcher

open Dispatcher (Act)

/-- After a shutdown no job is asked for any more. Let pump and listener be asked to stop in a run,
and the listener have come to rest, and let a call be submitted then. However many calls and signals
are on their way, in a run from there in which whoever moves goes on until it cannot and the gate is
given in the order of arrival:

* the call does not get the gate, and requests for jobs reach the manager only from calls that do.
  What has been sent is what has reached it, as long as nothing is forgotten;
* it waits for the gate, or was abandoned, or failed because the listener is gone. What is wrong
  with its arguments it is told at once.

Requests to signal a unit are sent as ever, whatever became of table and listener. -/
theorem submitted_after_shutdown_not_issued (capacity : Nat) {xs : List Act}
    (hx : .requestStop ∈ xs) {now : Nat}
    (hr : ((Lineup.start capacity).after xs).jobs.move? now .listener = none)
    (label : String) (before : List Signal) (held : Bool) (reply : Reply) :
    let l := (Lineup.start capacity).after xs
    (∀ request : JobRequest,
      let call : Call := ⟨l.jobs.begun, label, request, before, held, reply⟩
      let l' := l.step (.start label (.ok request) before held reply)
      ∀ ys, l'.jobs.inTurn none ys = true → l'.inOrder ys = true →
        ((l'.jobs.requests ys).filterMap ManagerCall.job? = (l'.jobs.issues ys).map (·.request) ∧
          (.clear ∉ ys → (l'.after ys).jobs.sent = l'.jobs.sent ++ l'.jobs.requests ys) ∧
          ∀ c ∈ l'.jobs.issues ys, c.number ≠ call.number) ∧
        (.call call ∈ (l'.after ys).jobs.room.guests ∨
          ∃ us y vs, ys = us ++ y :: vs ∧ .call call ∈ (l'.after us).jobs.room.guests ∧
            (y = .drop label ∨
              ((l'.after us).jobs.act y).events =
                (l'.after us).jobs.events ++ [(label, .failed .listenerUnavailable)]))) ∧
    (∀ error, (l.step (.start label (.error error) before held reply)).jobs =
      l.jobs.note label (.failed error)) ∧
    ∀ (request : KillRequest) (fail : Option Error) (ys : List Act),
      let s := (l.after ys).jobs
      let s' := s.act (.kill label (.ok request) held fail)
      s'.sent = s.sent ++ [.kill request] ∧
        (if held then s'.kills = s.kills ++ [(label, fail)]
          else s'.events = s.events ++ [(label, Dispatcher.killEvent fail)]) ∧
        ∀ table listener stopping, { s with table, listener, stopping }.act
          (.kill label (.ok request) held fail) = { s' with table, listener, stopping } := by
  intro l
  have hfaithful : l.Faithful := (Lineup.Faithful.start capacity).after xs
  have hjobs : l.jobs = xs.foldl Dispatcher.act { feed := { capacity } } := Lineup.jobs_after _ xs
  have hdrained : l.jobs.core.Drained := hjobs ▸ Dispatcher.drained_after capacity xs
  have hstop : l.jobs.stopping = true := hjobs ▸ Dispatcher.stopping_of_mem hx _
  refine ⟨?job, fun error => rfl, fun request fail ys => ?kill⟩
  case job =>
    intro request call l' ys ht ho
    have hshut : l'.Shut none call :=
      .submit hfaithful hdrained hstop hr none label request before held reply
    have hn : call ∉ l'.jobs.issues ys := hshut.after ht ho
    refine ⟨⟨l'.jobs.requests_filterMap_job? ys, fun hclear => ?_, fun c hc he => ?_⟩, ?_⟩
    · rw [Lineup.jobs_after]
      exact l'.jobs.sent_foldl hclear
    · have hsublist :=
        Dispatcher.issues_start_sublist capacity xs label request before held reply ys
      rw [← hjobs] at hsublist
      obtain rfl := List.mem_singleton.1
        (hsublist.subset (List.mem_filter.2 ⟨hc, decide_eq_true he⟩))
      exact hn hc
    · have hg : .call call ∈ l'.jobs.room.guests := (Room.mem_guests_enter _).2 (.inl rfl)
      have hleaves := Dispatcher.waits_or_leaves hg hn
      simp only [← Lineup.jobs_after] at hleaves
      exact hleaves
  case kill =>
    refine ⟨?_, ?_, fun table listener stopping => ?_⟩
    · cases held <;> rfl
    · cases held <;> rfl
    · exact Dispatcher.kill_apart _ table listener stopping label (.ok request) held fail

/-- At the shutdown one call is in flight, a second waits for the gate, and the listener waits
behind it with a signal. A third call is submitted then: the second is issued, the listener stops,
and the third fails. -/
theorem submitted_after_shutdown_not_issued_third :
    let call (unit : String) : Except Error JobRequest := .ok (.method .start unit .replace)
    let xs : List Act := [
      .start "a" (call "a.service") [] true .nextJob, .move 0 (.call 0), .pause (.call 0),
      .start "b" (call "b.service") [] false .nextJob, .pause (.call 1),
      .emit [.removed ⟨7, ⟨"/job/7"⟩, "z.service", .done⟩], .move 0 .pump, .pause .pump,
      .move 0 .listener, .pause .listener, .requestStop, .move 0 .pump, .pause .pump]
    let l := (Lineup.start 2).after xs
    let l' := l.step (.start "c" (call "c.service") [] false .nextJob)
    let ys : List Act := [
      .pause (.call 2), .release "a", .move 0 (.call 0), .pause (.call 0), .move 0 (.call 1),
      .move 0 (.call 1), .pause (.call 1), .move 0 .listener, .move 0 .listener, .pause .listener,
      .move 0 (.call 2)]
    let third : Call :=
      ⟨l.jobs.begun, "c", .method .start "c.service" .replace, [], false, .nextJob⟩
    .requestStop ∈ xs ∧ (l.jobs.move? 0 .listener).isNone = true ∧
      l'.jobs.inTurn none ys = true ∧ l'.inOrder ys = true ∧
      third.number = 2 ∧ (l'.jobs.issues ys).map (·.number) = [1] ∧
      (∀ c ∈ l'.jobs.issues ys, c.number ≠ third.number) ∧
      (l'.after ys).jobs.table.closed = true := by
  intro call xs l l' ys third
  have hx : Act.requestStop ∈ xs := by simp [xs]
  have hr : (l.jobs.move? 0 .listener).isNone = true := by decide +kernel +zetaReduce
  have ht : l'.jobs.inTurn none ys = true := by decide +kernel +zetaReduce
  have ho : l'.inOrder ys = true := by decide +kernel +zetaReduce
  have hnumber : third.number = 2 := by decide +kernel +zetaReduce
  obtain ⟨hjob, -, -⟩ := submitted_after_shutdown_not_issued 2 hx (Option.isNone_iff_eq_none.1 hr)
    "c" [] false .nextJob
  obtain ⟨⟨-, -, hn⟩, -⟩ := hjob (.method .start "c.service" .replace) ys ht ho
  exact ⟨hx, hr, ht, ho, hnumber, by decide +kernel +zetaReduce, hn,
    by decide +kernel +zetaReduce⟩

end SystemdControl
