import SystemdControl.Proofs.Job.Dispatcher.Steady

/-!
# Whoever waits is told

A wait for a job of which something is decided has to have a turn. What decides it, a signal, a
newer registration of its path or the end of the listener, rouses it; that another one goes away
decides nothing, as long as tickets are told apart.

* `JobTable.Sound.outcome?_drop`: what the end of a waiter leaves alone;
* `Dispatcher.Informed` says that all of them are on the agenda, and `Dispatcher.Tells` is what
  keeps that, one lemma a function;
* `tells_act` and `Informed.pause`: so does every act among at most `2 ^ 64` registrations;
* `Dispatcher.Briefed` is this with what keeps it, and `Rest.move?_eq_none`: when all have to wait
  nobody can go on.
-/

namespace SystemdControl

namespace JobTable

variable {j : List Deed} {t : JobTable} {ticket other : Ticket}

/-- A live waiter that goes away leaves what is known of the others. -/
theorem Sound.outcome?_drop (h : Sound j t) (hn : t.registered ≤ 2 ^ 64) (hl : ticket ∈ t.tickets)
    (ho : other ∈ t.tickets) (hne : ticket ≠ other) :
    (t.drop other).outcome? ticket = t.outcome? ticket := by
  have hopen : (t.drop other).isOpen ticket = t.isOpen ticket := by
    show (t.entries.filter _).any _ = t.entries.any _
    rw [List.any_filter]
    congr 1
    funext e
    by_cases he : e.ticket = ticket
    · have hkeep : (e.ticket.path = other.path && e.ticket.id = other.id) = false := by
        rw [he]
        refine Bool.eq_false_iff.2 fun hs => ?_
        simp only [Bool.and_eq_true, decide_eq_true_eq] at hs
        exact hne (h.eq_of_id_eq hn hl ho hs.1 hs.2)
      rw [hkeep, Bool.not_false, Bool.true_and]
    · simp [he]
  rw [outcome?, outcome?, waiter?_drop_of_ne t hne, hopen]
  rfl

/-- Only a signal that some registration awaits changes the table. -/
theorem resolve_of_not_delivered {path : JobPath} {result : JobResult}
    (h : (t.resolve path result).1 ≠ .delivered) : (t.resolve path result).2 = t := by
  unfold resolve at h ⊢
  split
  · rfl
  · rename_i hc
    rw [if_neg hc] at h
    cases he : t.entry? path with
    | none => rfl
    | some e =>
      obtain ⟨ticket, slot⟩ := e
      cases slot with
      | resolved => rfl
      | pending =>
        rw [he] at h
        exact absurd rfl h

end JobTable

namespace Dispatcher

open JobTable

variable {s s' s'' : Dispatcher} {now : Nat}

/-- Whether something is decided of what a wait is for. -/
def decided (s : Dispatcher) (w : Wait) : Bool :=
  (s.table.outcome? w.ticket).isSome

/-- Every wait that can be told something is on the agenda. -/
def Informed (s : Dispatcher) : Prop :=
  ∀ w ∈ s.waits, s.decided w = true → .wait w.ticket ∈ s.agenda.toList

/-- Nobody has left the agenda, and every wait of which something is decided, and was not before,
is on it. -/
structure Tells (s s' : Dispatcher) : Prop where
  agenda : Rouses s s'
  waits : ∀ w ∈ s'.waits, s'.decided w = true →
    .wait w.ticket ∈ s'.agenda.toList ∨ w ∈ s.waits ∧ s.decided w = true

theorem Informed.tells (h : s.Informed) (ht : Tells s s') : s'.Informed := fun w hw hd =>
  (ht.waits w hw hd).elim id fun hs => ht.agenda.subset (h w hs.1 hs.2)

namespace Tells

@[refl] theorem refl (s : Dispatcher) : Tells s s :=
  ⟨.refl s, fun _ hw hd => .inr ⟨hw, hd⟩⟩

theorem trans (h : Tells s s') (h' : Tells s' s'') : Tells s s'' where
  agenda := h.agenda.trans h'.agenda
  waits w hw hd := (h'.waits w hw hd).elim .inl fun hs =>
    (h.waits w hs.1 hs.2).imp_left fun hm => h'.agenda.subset hm

/-- Nothing is decided where the table stays as it is. -/
theorem frame (ha : Rouses s s') (ht : s'.table = s.table) (hw : s'.waits = s.waits) :
    Tells s s' :=
  ⟨ha, fun _ hm hd => .inr ⟨hw ▸ hm, by rwa [decided, ← ht]⟩⟩

theorem of_core (ha : Rouses s s') (hc : s'.core = s.core) : Tells s s' :=
  frame ha (congrArg Core.table hc) (congrArg Core.waits hc)

end Tells

/-- Whatever has been decided, those who wait for it are roused. -/
theorem informed_rouseDecided (s : Dispatcher) : s.rouseDecided.Informed := fun w hw hd =>
  Agenda.mem_rouseAll.2 (.inr (List.mem_map.2 ⟨w, List.mem_filter.2 ⟨hw, hd⟩, rfl⟩))

theorem Tells.of_informed (ha : Rouses s s') (h : s'.Informed) : Tells s s' :=
  ⟨ha, fun w hw hd => .inl (h w hw hd)⟩

theorem tells_openGate (s : Dispatcher) : Tells s s.openGate :=
  .of_core s.rouses_openGate s.core_openGate

theorem tells_stopIfAbandoned (s : Dispatcher) : Tells s s.stopIfAbandoned :=
  .of_core s.rouses_stopIfAbandoned s.core_stopIfAbandoned

theorem tells_fail (s : Dispatcher) (label : String) (e : Error) :
    Tells s ((s.note label (.failed e)).openGate).stopIfAbandoned :=
  ((Tells.of_core (s.rouses_note label (.failed e)) rfl).trans (tells_openGate _)).trans
    (tells_stopIfAbandoned _)

/-- Another one goes away. -/
theorem tells_drop {j : List Deed} (h : Sound j s.table) (hn : s.table.registered ≤ 2 ^ 64)
    {ticket : Ticket} (hl : ticket ∈ s.table.tickets) {waits : List Wait}
    (hw : ∀ w ∈ waits, w ∈ s.waits ∧ w.ticket ∈ s.table.tickets ∧ w.ticket ≠ ticket)
    (handles : Labelled JobHandle) :
    Tells s { s with handles, waits, table := s.table.drop ticket } where
  agenda := .refl s
  waits w hm hd := by
    obtain ⟨hmem, hlive, hne⟩ := hw w hm
    refine .inr ⟨hmem, ?_⟩
    rwa [decided, ← h.outcome?_drop hn hlive hl hne]

/-! ## Moves -/

theorem tells_handle (s : Dispatcher) (event : JobRemoved) : Tells s (s.handle event) := by
  let t : Dispatcher := { s with
    table := (s.table.resolve event.jobPath event.result).2
    listener := .ready }
  have hanswered : Tells s (t.rouseAnswered (s.table.resolve event.jobPath event.result).1) := by
    by_cases hr : (s.table.resolve event.jobPath event.result).1 = .delivered
    · rw [hr]
      exact .of_informed (rouses_rouseDecided t) (informed_rouseDecided t)
    · rw [rouseAnswered_of_ne _ hr]
      exact .frame (.refl s) (resolve_of_not_delivered hr) rfl
  exact hanswered.trans (tells_openGate _)

theorem tells_moveListener? (hm : s.moveListener? = some s') : Tells s s' := by
  cases moveListener?_cases hm with
  | skip | sit => exact .frame (.refl s) rfl rfl
  | @take event feed =>
    have hfeed : Tells s { s with feed } := .frame (.refl s) rfl rfl
    exact hfeed.trans (tells_handle _ event)
  | @rise event =>
    have hleave : Tells s { s with room := s.room.leave .listener } := .frame (.refl s) rfl rfl
    exact hleave.trans (tells_handle _ event)
  | stop => exact .of_informed s.rouses_stopListener (informed_rouseDecided _)

theorem tells_issue (call : Call) : Tells s (s.issue call) := by
  unfold issue
  split
  · exact tells_fail s _ _
  · let t : Dispatcher := { s with
      sent := s.sent ++ [ManagerCall.job call.request]
      underWay := some ⟨call, !call.held⟩ }
    have hcore := t.core_emitSignals call.before
    exact .frame (rouses_emitSignals t _) (congrArg Core.table hcore) (congrArg Core.waits hcore)

section

variable {j : List Deed} (h : Sound j s.table) (hh : Holds s.table s.core.tickets)
include h hh

omit h in
theorem nodup_held : (s.core.handles.map (·.2.ticket) ++ s.core.waits.map (·.ticket)).Nodup :=
  hh.perm.nodup_iff.2 hh.nodup

omit h in
/-- What a handle is for nobody waits for. -/
theorem wait_ne_handle {label : String} {handle : JobHandle}
    (hg : s.handles.get? label = some handle) {w : Wait} (hw : w ∈ s.waits) :
    w.ticket ≠ handle.ticket := fun he =>
  (List.nodup_append.1 (nodup_held hh)).2.2 _
    (List.mem_map.2 ⟨_, Labelled.mem_of_get? hg, rfl⟩) _ (List.mem_map_of_mem hw) he.symm

omit h in
theorem handle_ticket_mem {label : String} {handle : JobHandle}
    (hg : s.handles.get? label = some handle) : handle.ticket ∈ s.table.tickets :=
  hh.mem_tickets (List.mem_append_left _ (List.mem_map.2 ⟨_, Labelled.mem_of_get? hg, rfl⟩))

/-- A job is registered. A handle that its own takes the place of goes away afterwards. -/
theorem tells_takeUp (call : Call) (hn : (s.takeUp call).table.registered ≤ 2 ^ 64) :
    Tells s (s.takeUp call) := by
  refine takeUp_cases (motive := Tells s) s call (fun e _ => ?fail) fun path ho hp => ?register
  case fail =>
    have hfree : Tells s { s with underWay := none, numbered := (s.answer call.reply).2 } :=
      .frame (.refl s) rfl rfl
    exact hfree.trans (tells_fail _ _ _)
  case register =>
    have hcount : s.table.registered + 1 ≤ 2 ^ 64 := by
      refine Nat.le_trans (Nat.le_of_eq ?_) hn
      rw [show (s.takeUp call).table = _ from congrArg Core.table (takeUp_core ho hp)]
      cases s.core.handles.get? call.label <;> rfl
    let t : Dispatcher := { s with
      underWay := none
      numbered := (s.answer call.reply).2
      table := (s.table.register path).2 }
    have hgate : Tells s t.rouseDecided.openGate :=
      .of_informed ((rouses_rouseDecided t).trans (rouses_openGate _))
        ((informed_rouseDecided t).tells (tells_openGate _))
    have hcore' : t.rouseDecided.openGate.core = t.core :=
      (core_openGate _).trans (core_rouseDecided t)
    have htable : t.rouseDecided.openGate.table = (s.table.register path).2 :=
      congrArg Core.table hcore'
    have hkeep : Tells t.rouseDecided.openGate (t.rouseDecided.openGate.keepHandle call.label
        ⟨call.request.unit, ⟨path, s.table.registered⟩⟩) := by
      unfold keepHandle
      split
      · exact .frame (.refl _) rfl rfl
      · rename_i old hg
        have hold : s.handles.get? call.label = some old :=
          (congrArg (·.handles.get? call.label) hcore').symm.trans hg
        refine tells_drop (htable ▸ h.register path ho) (htable ▸ hcount) ?_ (fun w hw => ?_) _
        · rw [htable, tickets_register]
          exact List.mem_append_left _ (handle_ticket_mem hh hold)
        · have hwaits : t.rouseDecided.openGate.waits = s.waits := congrArg Core.waits hcore'
          have hw' : w ∈ s.waits := hwaits ▸ hw
          refine ⟨hw, ?_, wait_ne_handle hh hold hw'⟩
          rw [htable, tickets_register]
          exact List.mem_append_left _ (hh.mem_tickets
            (List.mem_append_right _ (List.mem_map_of_mem hw')))
    exact (hgate.trans hkeep).trans ((Tells.of_core (rouses_note ..) rfl).trans
      (tells_stopIfAbandoned _))

/-- The wait that goes away is not one of those that go on. -/
theorem tells_leave (hn : s.table.registered ≤ 2 ^ 64) {w : Wait} (hw : w ∈ s.waits) :
    Tells s { s with waits := s.waits.erase w, table := s.table.drop w.ticket } := by
  have hlive : ∀ v ∈ s.waits, v.ticket ∈ s.table.tickets := fun v hv =>
    hh.mem_tickets (List.mem_append_right _ (List.mem_map_of_mem hv))
  have hnodup : (s.waits.map (·.ticket)).Nodup := nodup_waits hh
  refine tells_drop h hn (hlive w hw) (fun v hv => ?_) s.handles
  have hv' := List.mem_of_mem_erase hv
  refine ⟨hv', hlive v hv', fun he => ?_⟩
  have hvw : v = w := List.inj_on_of_nodup_map hnodup hv' hw he
  exact (hnodup.of_map _).not_mem_erase (hvw ▸ hv)

theorem tells_move? {actor : Actor} (hn : s'.table.registered ≤ 2 ^ 64)
    (hm : s.move? now actor = some s') : Tells s s' := by
  cases actor with
  | pump =>
    have hr := rouses_move? hm
    obtain ⟨feed, -, rfl⟩ := Option.map_eq_some_iff.1 hm
    have hcore := core_rouseListener { s with feed }
    exact .frame hr (congrArg Core.table hcore) (congrArg Core.waits hcore)
  | listener => exact tells_moveListener? hm
  | call number =>
    cases moveCall?_cases hm with
    | takeUp => exact tells_takeUp h hh _ hn
    | @issue call =>
      have hleave : Tells s { s with room := s.room.leave (.call call) } :=
        .of_core (.refl s) rfl
      exact hleave.trans (tells_issue call)
  | wait ticket =>
    obtain ⟨w, hw, -, outcome, -, rfl⟩ := moveWait?_cases hm
    exact (tells_leave h hh hn hw).trans (.of_core (rouses_note ..) rfl)

/-! ## Calls of the interface -/

theorem tells_wait (hn : s.table.registered ≤ 2 ^ 64) (clock : Nat) (label : String)
    (limit : Option Duration) : Tells s (s.wait clock label limit).2 := by
  generalize hs : (s.wait clock label limit).2 = s'
  cases wait_cases hs with
  | missing => exact .refl s
  | refuse hg =>
    refine (tells_drop h hn (handle_ticket_mem hh hg) (fun w hw => ?_) _).trans
      (.of_core (rouses_note ..) rfl)
    exact ⟨hw, hh.mem_tickets (List.mem_append_right _ (List.mem_map_of_mem hw)),
      wait_ne_handle hh hg hw⟩
  | enter =>
    refine ⟨rouses_rouse _ _, fun v hv hd => ?_⟩
    rcases List.mem_append.1 hv with hv | hv
    · exact .inr ⟨hv, hd⟩
    · rw [List.mem_singleton.1 hv]
      exact .inl (Agenda.mem_rouse.2 (.inr rfl))

theorem tells_drop_call (hn : s.table.registered ≤ 2 ^ 64) (label : String) :
    Tells s (s.drop label).2 := by
  have hr : Rouses s (s.drop label).2 := s.act_rouses (x := .drop label) nofun
  generalize hd : (s.drop label).2 = s' at hr
  cases drop_cases hd with
  | handle hg =>
    refine tells_drop h hn (handle_ticket_mem hh hg) (fun w hw => ?_) _
    exact ⟨hw, hh.mem_tickets (List.mem_append_right _ (List.mem_map_of_mem hw)),
      wait_ne_handle hh hg hw⟩
  | underWay =>
    have hgate : Tells s { s with underWay := none } := .frame (.refl s) rfl rfl
    exact (hgate.trans (tells_openGate _)).trans (tells_stopIfAbandoned _)
  | seat => exact .of_core hr ((core_stopIfAbandoned _).trans (s.core_giveUpSeat _))
  | kill => exact .of_core hr (core_stopIfAbandoned { s with kills := s.kills.remove label })
  | wait hw => exact tells_leave h hh hn hw
  | missing => exact .refl s

theorem tells_act (x : Act) (hx : ∀ actor, x ≠ .pause actor)
    (hn : (s.act x).table.registered ≤ 2 ^ 64) : Tells s (s.act x) := by
  have hr := s.act_rouses hx
  have hn' : s.table.registered ≤ 2 ^ 64 :=
    Nat.le_trans ((s.act_effect x).doesAll hh).2.registered_le hn
  cases x with
  | start => exact .of_core hr (start_core ..)
  | kill => exact .of_core hr (kill_core ..)
  | release label =>
    rw [act] at hr ⊢
    generalize hs : (s.release label).2 = s' at hr
    cases release_cases hs with
    | answer | missing => exact .frame hr rfl rfl
    | kill => exact .of_core hr (core_stopIfAbandoned _)
  | wait clock label limit => exact tells_wait h hh hn' clock label limit
  | drop label => exact tells_drop_call h hh hn' label
  | emit signals =>
    have hcore := s.core_emitSignals signals
    exact .frame hr (congrArg Core.table hcore) (congrArg Core.waits hcore)
  | requestStop => exact .of_core hr s.core_requestStop
  | dropHolder label => exact .of_core hr (core_stopIfAbandoned _)
  | withGuests guests => exact .of_core hr (core_stopIfAbandoned _)
  | move now actor =>
    rw [act] at hn ⊢
    cases hm : s.move? now actor with
    | none => exact .refl s
    | some s' => exact tells_move? h hh (by rwa [hm] at hn) hm
  | pause actor => exact absurd rfl (hx actor)
  | disconnect | addHolder | alarm | clear => exact .frame hr rfl rfl

end

/-- The turn of a wait is over when nothing is decided for it. -/
theorem Informed.pause (h : s.Informed) (hh : Holds s.table s.core.tickets) {actor : Actor}
    (hnext : s.agenda.next? = some actor) (hm : s.move? now actor = none) :
    (s.pause actor).Informed := by
  intro w hw hd
  have hmem : .wait w.ticket ∈ s.agenda.toList := h w hw hd
  rw [Agenda.toList_eq_cons hnext] at hmem
  refine (List.mem_cons.1 hmem).resolve_left ?_
  rintro rfl
  have hverdict : (s.verdict? now w).isSome = true := isSome_verdict?_of_outcome? hd now
  rw [move?, moveWait?, find?_wait hh hw, Option.bind_some, Option.map_eq_none_iff] at hm
  rw [hm] at hverdict
  cases hverdict

theorem Informed.step? {j : List Deed} (h : s.Informed) (hj : Sound j s.table)
    (hh : Holds s.table s.core.tickets) (hn : s'.table.registered ≤ 2 ^ 64)
    (hs : s.step? now = some s') : s'.Informed := by
  obtain ⟨actor, hnext, ⟨hm, -⟩ | ⟨hm, rfl⟩⟩ := step?_cases hs
  · exact h.tells (tells_move? hj hh hn hm)
  · exact h.pause hh hnext hm

/-! ## At all times -/

/-- Registrations are counted for good. -/
theorem registered_le_act (hh : Holds s.table s.core.tickets) (x : Act) :
    s.table.registered ≤ (s.act x).table.registered :=
  ((s.act_effect x).doesAll hh).2.registered_le

theorem registered_le_steps (hh : Holds s.table s.core.tickets) (now n : Nat) :
    s.table.registered ≤ (steps now n s).table.registered := by
  induction n generalizing s with
  | zero => exact Nat.le_refl _
  | succ n ih =>
    unfold steps
    split
    · exact Nat.le_refl _
    · rename_i s' hs
      refine Nat.le_trans ?_ (ih (holds_step? hh hs))
      obtain ⟨actor, -, ⟨-, rfl⟩ | ⟨-, rfl⟩⟩ := step?_cases hs
      · exact registered_le_act hh _
      · exact registered_le_act hh _

/-- Whoever waits for something that is decided has a turn. -/
structure Briefed (s : Dispatcher) : Prop where
  informed : s.Informed
  sound : ∃ journal, Sound journal s.table

namespace Briefed

theorem act (h : s.Briefed) (hh : Holds s.table s.core.tickets) {x : Act}
    (hx : ∀ actor, x ≠ .pause actor) (hn : (s.act x).table.registered ≤ 2 ^ 64) :
    (s.act x).Briefed := by
  obtain ⟨journal, hj⟩ := h.sound
  exact ⟨h.informed.tells (tells_act hj hh x hx hn),
    _, hj.doesAll ((s.act_effect x).doesAll hh).2⟩

theorem step? (h : s.Briefed) (hh : Holds s.table s.core.tickets)
    (hn : s'.table.registered ≤ 2 ^ 64) (hs : s.step? now = some s') : s'.Briefed := by
  obtain ⟨journal, hj⟩ := h.sound
  refine ⟨h.informed.step? hj hh hn hs, ?_⟩
  obtain ⟨actor, -, ⟨-, rfl⟩ | ⟨-, rfl⟩⟩ := step?_cases hs
  · exact ⟨_, hj.doesAll ((s.act_effect (.move now actor)).doesAll hh).2⟩
  · exact ⟨_, hj.doesAll ((s.act_effect (.pause actor)).doesAll hh).2⟩

theorem steps (h : s.Briefed) (hh : Holds s.table s.core.tickets) {n : Nat}
    (hn : (steps now n s).table.registered ≤ 2 ^ 64) : (Dispatcher.steps now n s).Briefed := by
  induction n generalizing s with
  | zero => exact h
  | succ n ih =>
    unfold Dispatcher.steps at hn ⊢
    split at hn
    · exact h
    · rename_i s' hs
      have hh' := holds_step? hh hs
      exact ih (h.step? hh ((registered_le_steps hh' now n).trans hn) hs) hh' hn

end Briefed

/-- When all have to wait, and nobody waits for what is decided, nobody can go on. -/
theorem Rest.move?_eq_none (h : Rest now s) (hi : s.Informed) (actor : Actor) :
    s.move? now actor = none := by
  cases hm : s.move? now actor with
  | none => rfl
  | some s' =>
    refine absurd ?_ (h.not_needs actor)
    cases actor with
    | pump =>
      obtain ⟨feed, hf, -⟩ := Option.map_eq_some_iff.1 hm
      unfold Feed.pump? at hf
      split at hf
      · cases hf
      · rename_i hp
        refine .inl ⟨by simpa using hp, ?_⟩
        split at hf
        · rename_i hs
          exact .inl (by simp [hs])
        · split at hf
          · rename_i hend
            exact .inr (by simpa using hend)
          · cases hf
    | listener =>
      have hqueue : ∀ {signal : Signal} {feed : Feed},
          s.feed.take? = some (signal, feed) → s.feed.queue ≠ [] := fun ht hq => by
        simp [Feed.take?, hq] at ht
      cases moveListener?_cases hm with
      | skip hl ht | take hl _ ht | sit hl _ ht => exact .inl ⟨hl, .inl (hqueue ht)⟩
      | stop hl _ hs => exact .inl ⟨hl, .inr hs⟩
      | @rise event hl hu =>
        have hmem : .listener ∈ s.room.guests := h.distinct.listener_mem_iff.2 (by
          show s.listener.isSeated = true
          rw [hl]
          rfl)
        rw [Room.guests, h.seats_eq_nil hu] at hmem
        cases hmem
    | call number =>
      cases moveCall?_cases hm with
      | @takeUp call hu hnumber => exact .inl ⟨call, hu, hnumber⟩
      | @issue call hu hcall =>
        have hmem := (mem_of_seatedCall? hcall).1
        rw [Room.guests, h.seats_eq_nil hu] at hmem
        cases hmem
    | wait ticket =>
      obtain ⟨w, hw, hticket, outcome, hv, -⟩ := moveWait?_cases hm
      have hundecided : s.decided w = false := Bool.eq_false_iff.2 fun hd => by
        have hmem := hi w hw hd
        rw [h.idle] at hmem
        cases hmem
      refine .inl ⟨w, hw, hticket, .inr ?_⟩
      rw [decided, Option.isSome_eq_false_iff, Option.isNone_iff_eq_none] at hundecided
      rw [verdict?, hundecided] at hv
      cases hd : w.deadline with
      | none =>
        rw [hd] at hv
        cases hv
      | some d =>
        rw [hd] at hv
        dsimp only at hv
        split at hv
        · rename_i hover
          simp [Wait.isOver, hd, hover]
        · cases hv

end Dispatcher

end SystemdControl
