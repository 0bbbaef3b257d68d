import SystemdControl.Job.Dispatcher.Calls

/-!
# What an act does to the dispatcher

An act is a call of the interface, or one move of whoever goes on by itself. Acts come here in any
order, so whatever holds after any of them does not depend on whose turn it is.

* `Dispatcher.Core` is the part of the state that signals and registrations pass through; rousing,
  seats and reports do not touch it;
* `Core.Effect` is all that an act can do to that part (`Dispatcher.act_effect`);
* `Dispatcher.ListenerMove` is all that a move of the listener can be, `Dispatcher.CallMove` all
  that a move of a call can be, with `Dispatcher.takeUp_cases` for what comes of its reply, and
  `Dispatcher.moveWait?_cases` all that a move of a wait can be;
* `Dispatcher.ReleaseStep`, `Dispatcher.WaitStep` and `Dispatcher.DropStep` are all that an answer of
  the manager, the beginning of a wait and abandoning something can be.
-/

namespace SystemdControl

/-- The part of a dispatcher that signals and registrations pass through. -/
structure Core where
  table : JobTable
  feed : Feed
  listener : Listener
  underWay : Option CallUnderWay
  handles : Labelled JobHandle
  waits : List Wait

namespace Dispatcher

def core (s : Dispatcher) : Core :=
  ⟨s.table, s.feed, s.listener, s.underWay, s.handles, s.waits⟩

/-- A call of the interface, or a move or the end of a turn of someone who goes on by itself. -/
inductive Act where
  | start (label : String) (request : Except Error JobRequest) (before : List Signal) (held : Bool)
    (reply : Reply)
  | kill (label : String) (request : Except Error KillRequest) (held : Bool) (fail : Option Error)
  | release (label : String)
  | wait (now : Nat) (label : String) (limit : Option Duration)
  | drop (label : String)
  | emit (signals : List Signal)
  | disconnect
  | requestStop
  | addHolder (label : String) (access : Access)
  | dropHolder (label : String)
  | withGuests (guests : Nat)
  | alarm (now : Nat)
  | move (now : Nat) (actor : Actor)
  | pause (actor : Actor)
  /-- What has been reported is forgotten. -/
  | clear

/-- A dispatcher after an act. A move that is not possible changes nothing. -/
def act (s : Dispatcher) : Act → Dispatcher
  | .start label request before held reply => s.start label request before held reply
  | .kill label request held fail => s.kill label request held fail
  | .release label => (s.release label).2
  | .wait now label limit => (s.wait now label limit).2
  | .drop label => (s.drop label).2
  | .emit signals => (s.emit signals).2
  | .disconnect => s.disconnect
  | .requestStop => s.requestStop
  | .addHolder label access => s.addHolder label access
  | .dropHolder label => (s.dropHolder label).2
  | .withGuests guests => s.withGuests guests
  | .alarm now => s.alarm now
  | .move now actor => (s.move? now actor).getD s
  | .pause actor => s.pause actor
  | .clear => { s with sent := [], events := [] }

/-! ## What leaves the core alone -/

section

variable (s : Dispatcher)

@[simp] theorem core_rouseListener : s.rouseListener.core = s.core := by
  unfold rouseListener
  split <;> rfl

@[simp] theorem core_rouseDecided : s.rouseDecided.core = s.core := rfl

theorem rouseAnswered_of_ne {r : Resolution} (hr : r ≠ .delivered) : s.rouseAnswered r = s := by
  cases r with
  | delivered => exact absurd rfl hr
  | _ => rfl

/-- At most waits are roused when a signal is handled, and one in the waiting room. -/
theorem handle_eq (event : JobRemoved) : ∃ waits, s.handle event = ({ s with
    table := (s.table.resolve event.jobPath event.result).2
    listener := .ready }.rouseWaits waits).openGate := by
  unfold handle
  dsimp only
  cases (s.table.resolve event.jobPath event.result).1 with
  | delivered => exact ⟨_, rfl⟩
  | _ => exact ⟨[], rfl⟩

@[simp] theorem core_note (label : String) (event : JobEvent) :
    (s.note label event).core = s.core :=
  rfl

@[simp] theorem core_openGate : s.openGate.core = s.core := by
  unfold openGate
  split <;> rfl

@[simp] theorem core_giveUpSeat (party : Party) : (s.giveUpSeat party).core = s.core := by
  unfold giveUpSeat
  split
  · exact core_openGate _
  · rfl

@[simp] theorem core_requestStop : s.requestStop.core = s.core := by
  unfold requestStop
  split
  · rfl
  · exact core_rouseListener _

@[simp] theorem core_stopIfAbandoned : s.stopIfAbandoned.core = s.core := by
  unfold stopIfAbandoned
  split
  · exact core_requestStop s
  · rfl

@[simp] theorem core_emitSignals (signals : List Signal) :
    (s.emitSignals signals).core = { s.core with feed := s.feed.emit signals } := by
  unfold emitSignals
  split <;> rfl

end

end Dispatcher

/-- All that an act can do to the core. -/
inductive Core.Effect (c : Core) : Core → Prop
  | stay : Effect c c
  /-- The manager answers the call under way. -/
  | answer {call : Call} (hu : c.underWay = some ⟨call, false⟩) :
      Effect c { c with underWay := some ⟨call, true⟩ }
  /-- A call gets the gate. -/
  | issue (call : Call) (answered : Bool) (hu : c.underWay = none) (ho : c.table.closed = false) :
      Effect c { c with
        underWay := some ⟨call, answered⟩
        feed := c.feed.emit call.before }
  /-- The call under way fails or is abandoned. -/
  | giveUp {call : CallUnderWay} (hu : c.underWay = some call) :
      Effect c { c with underWay := none }
  /-- The job of the call under way is registered; a handle of its label goes away. -/
  | register {call : CallUnderWay} (hu : c.underWay = some call) (label unit : String)
      (path : JobPath) (ho : c.table.closed = false) :
      Effect c { c with
        underWay := none
        handles := c.handles.set label ⟨unit, ⟨path, c.table.registered⟩⟩
        table := (c.handles.get? label).elim (c.table.register path).2 fun old =>
          (c.table.register path).2.drop old.ticket }
  /-- A handle is used up for a wait. -/
  | await {label : String} {handle : JobHandle} {w : Wait}
      (hg : c.handles.get? label = some handle) (ht : w.ticket = handle.ticket) :
      Effect c { c with handles := c.handles.remove label, waits := c.waits ++ [w] }
  /-- A handle goes away. -/
  | discard {label : String} {handle : JobHandle} (hg : c.handles.get? label = some handle) :
      Effect c { c with
        handles := c.handles.remove label
        table := c.table.drop handle.ticket }
  /-- A wait ends or is abandoned. -/
  | leave {w : Wait} (hw : w ∈ c.waits) :
      Effect c { c with waits := c.waits.erase w, table := c.table.drop w.ticket }
  | emit (signals : List Signal) : Effect c { c with feed := c.feed.emit signals }
  | finish : Effect c { c with feed := c.feed.finish }
  | pump {stopping : Bool} {feed : Feed}
      (hf : c.feed.pump? stopping (c.listener ≠ .stopped) = some feed) : Effect c { c with feed }
  | skip {error : Error} {feed : Feed} (hl : c.listener = .ready)
      (ht : c.feed.take? = some (.undecodable error, feed)) : Effect c { c with feed }
  /-- The listener sits down with a signal because the gate is taken. -/
  | sit {event : JobRemoved} {feed : Feed} (hl : c.listener = .ready)
      (ht : c.feed.take? = some (.removed event, feed)) :
      Effect c { c with feed, listener := .seated event }
  /-- The listener handles a signal as it comes. -/
  | take {event : JobRemoved} {feed : Feed} (hl : c.listener = .ready) (hu : c.underWay = none)
      (ht : c.feed.take? = some (.removed event, feed)) :
      Effect c { c with
        feed
        table := (c.table.resolve event.jobPath event.result).2
        listener := .ready }
  /-- The listener handles the signal that it sat with. -/
  | rise {event : JobRemoved} (hl : c.listener = .seated event) (hu : c.underWay = none) :
      Effect c { c with
        table := (c.table.resolve event.jobPath event.result).2
        listener := .ready }
  | stop (hl : c.listener = .ready) (hq : c.feed.queue = []) :
      Effect c { c with listener := .stopped, table := c.table.close }

namespace Dispatcher

variable {s : Dispatcher}

theorem start_core (label : String) (request : Except Error JobRequest) (before : List Signal)
    (held : Bool) (reply : Reply) :
    (s.start label request before held reply).core = s.core := by
  unfold start
  cases request <;> rfl

theorem kill_core (label : String) (request : Except Error KillRequest) (held : Bool)
    (fail : Option Error) : (s.kill label request held fail).core = s.core := by
  unfold kill
  cases request <;> cases held <;> rfl

/-! ## Calls of the interface -/

/-- All that an answer of the manager to what it kept waiting can be. -/
inductive ReleaseStep (s : Dispatcher) (label : String) : Dispatcher → Prop
  | answer {call : Call} (hu : s.underWay = some ⟨call, false⟩) (hl : call.label = label) :
      ReleaseStep s label
        (({ s with underWay := some ⟨call, true⟩ } : Dispatcher).rouse (.call call.number))
  | kill {fail : Option Error} (hk : s.kills.get? label = some fail) :
      ReleaseStep s label (({ s with kills := s.kills.remove label } : Dispatcher).note label
        (killEvent fail)).stopIfAbandoned
  | missing : ReleaseStep s label s

theorem release_cases {label : String} {s' : Dispatcher} (h : (s.release label).2 = s') :
    s.ReleaseStep label s' := by
  have hkill : s.ReleaseStep label (s.releaseKill label).2 := by
    unfold releaseKill
    split
    · exact .kill ‹_›
    · exact .missing
  subst h
  unfold release
  split
  · split
    · exact .answer ‹_› ‹_›
    · exact hkill
  · exact hkill

theorem release_effect (label : String) : s.core.Effect (s.release label).2.core := by
  generalize hr : (s.release label).2 = s'
  cases release_cases hr with
  | answer hu => exact .answer hu
  | kill =>
    rw [core_stopIfAbandoned]
    exact .stay
  | missing => exact .stay

/-- All that the beginning of a wait can be. -/
inductive WaitStep (s : Dispatcher) (now : Nat) (label : String) (limit : Option Duration) :
    Dispatcher → Prop
  | missing (hg : s.handles.get? label = none) : WaitStep s now label limit s
  | refuse {handle : JobHandle} (hg : s.handles.get? label = some handle)
      (hz : limit.any (·.isZero) = true) :
      WaitStep s now label limit
        (({ s with
            handles := s.handles.remove label
            table := s.table.drop handle.ticket } : Dispatcher).note label
          (.finished (.error (.invalidInput .timeoutZero))))
  | enter {handle : JobHandle} (hg : s.handles.get? label = some handle)
      (hz : limit.any (·.isZero) = false) :
      WaitStep s now label limit
        (({ s with
            handles := s.handles.remove label
            waits := s.waits ++
              [⟨label, handle.ticket, limit.map fun d => ⟨d, now + d.toNanos⟩⟩] } : Dispatcher).rouse
          (.wait handle.ticket))

theorem wait_cases {now : Nat} {label : String} {limit : Option Duration} {s' : Dispatcher}
    (h : (s.wait now label limit).2 = s') : s.WaitStep now label limit s' := by
  subst h
  unfold wait
  split
  · exact .missing ‹_›
  · rename_i hg
    cases limit with
    | none => exact .enter hg rfl
    | some d =>
      dsimp only
      split
      · exact .refuse hg ‹_›
      · exact .enter hg (Bool.eq_false_iff.2 ‹_›)

theorem wait_effect (now : Nat) (label : String) (limit : Option Duration) :
    s.core.Effect (s.wait now label limit).2.core := by
  generalize hw : (s.wait now label limit).2 = s'
  cases wait_cases hw with
  | missing => exact .stay
  | refuse hg => exact .discard hg
  | enter hg => exact .await hg rfl

/-- All that abandoning a handle, or a call that has not ended, can be. -/
inductive DropStep (s : Dispatcher) (label : String) : Dispatcher → Prop
  | handle {handle : JobHandle} (hg : s.handles.get? label = some handle) :
      DropStep s label { s with
        handles := s.handles.remove label
        table := s.table.drop handle.ticket }
  | underWay {u : CallUnderWay} (hu : s.underWay = some u) (hl : u.call.label = label) :
      DropStep s label ({ s with underWay := none } : Dispatcher).openGate.stopIfAbandoned
  | seat {call : Call} (hm : .call call ∈ s.room.guests) (hl : call.label = label) :
      DropStep s label (s.giveUpSeat (.call call)).stopIfAbandoned
  | kill (hk : s.kills.has label = true) :
      DropStep s label ({ s with kills := s.kills.remove label } : Dispatcher).stopIfAbandoned
  | wait {w : Wait} (hw : w ∈ s.waits) (hl : w.label = label) :
      DropStep s label { s with waits := s.waits.erase w, table := s.table.drop w.ticket }
  | missing : DropStep s label s

theorem dropTask?_cases {label : String} {s' : Dispatcher} (h : s.dropTask? label = some s') :
    s.DropStep label s' := by
  unfold dropTask? at h
  split at h
  · rename_i hlabel
    obtain ⟨u, hu, hl⟩ := Option.map_eq_some_iff.1 hlabel
    cases h
    exact .underWay hu hl
  · split at h
    · rename_i party hf
      have hof : isCallOf label party = true := List.find?_some hf
      cases h
      cases party with
      | listener => cases hof
      | call call => exact .seat (List.mem_of_find?_eq_some hf) (of_decide_eq_true hof)
    · split at h
      · cases h
        exact .kill ‹_›
      · obtain ⟨w, hw, rfl⟩ := Option.map_eq_some_iff.1 h
        have hlabel := List.find?_some hw
        exact .wait (List.mem_of_find?_eq_some hw) (of_decide_eq_true hlabel)

theorem drop_cases {label : String} {s' : Dispatcher} (h : (s.drop label).2 = s') :
    s.DropStep label s' := by
  subst h
  unfold drop
  split
  · exact .handle ‹_›
  · split
    · exact dropTask?_cases ‹_›
    · exact .missing

theorem drop_effect (label : String) : s.core.Effect (s.drop label).2.core := by
  generalize hd : (s.drop label).2 = s'
  cases drop_cases hd with
  | handle hg => exact .discard hg
  | underWay hu =>
    rw [core_stopIfAbandoned, core_openGate]
    exact .giveUp hu
  | seat =>
    rw [core_stopIfAbandoned, core_giveUpSeat]
    exact .stay
  | kill =>
    rw [core_stopIfAbandoned]
    exact .stay
  | wait hw => exact .leave hw
  | missing => exact .stay

/-! ## Moves -/

theorem movePump?_effect {s' : Dispatcher} (h : s.movePump? = some s') :
    s.core.Effect s'.core := by
  obtain ⟨feed, hf, rfl⟩ := Option.map_eq_some_iff.1 h
  rw [core_rouseListener]
  exact .pump hf

theorem gateFree_iff : s.gateFree = true ↔ s.underWay = none := by
  rw [gateFree, Option.isNone_iff_eq_none]

/-- All that a move of the listener can be. -/
inductive ListenerMove (s : Dispatcher) : Dispatcher → Prop
  | skip {error : Error} {feed : Feed} (hl : s.listener = .ready)
      (ht : s.feed.take? = some (.undecodable error, feed)) : ListenerMove s { s with feed }
  | take {event : JobRemoved} {feed : Feed} (hl : s.listener = .ready) (hu : s.underWay = none)
      (ht : s.feed.take? = some (.removed event, feed)) :
      ListenerMove s ({ s with feed }.handle event)
  | sit {event : JobRemoved} {feed : Feed} (hl : s.listener = .ready) (hu : s.underWay ≠ none)
      (ht : s.feed.take? = some (.removed event, feed)) :
      ListenerMove s { s with
        feed
        listener := .seated event
        room := s.room.enter .listener false }
  | rise {event : JobRemoved} (hl : s.listener = .seated event) (hu : s.underWay = none) :
      ListenerMove s ({ s with room := s.room.leave .listener }.handle event)
  | stop (hl : s.listener = .ready) (hq : s.feed.queue = [])
      (hs : s.stopping = true ∨ s.feed.pumping = false) : ListenerMove s s.stopListener

theorem moveListener?_cases {s' : Dispatcher} (h : s.moveListener? = some s') :
    s.ListenerMove s' := by
  unfold moveListener? at h
  split at h
  · rename_i hl
    split at h
    · rename_i error feed ht
      cases h
      exact .skip hl ht
    · rename_i event feed ht
      split at h
      · rename_i hgate
        cases h
        exact .take hl (gateFree_iff.1 hgate) ht
      · rename_i hgate
        cases h
        exact .sit hl (mt gateFree_iff.2 hgate) ht
    · rename_i ht
      split at h
      · rename_i hs
        cases h
        have hq : s.feed.queue = [] := by
          unfold Feed.take? at ht
          split at ht
          · assumption
          · cases ht
        exact .stop hl hq (by simpa using hs)
      · cases h
  · rename_i event hl
    split at h
    · rename_i hgate
      cases h
      exact .rise hl (gateFree_iff.1 hgate)
    · cases h
  · cases h

theorem core_handle (event : JobRemoved) :
    (s.handle event).core = { s.core with
      table := (s.table.resolve event.jobPath event.result).2
      listener := .ready } := by
  obtain ⟨waits, hwaits⟩ := s.handle_eq event
  rw [hwaits, core_openGate]
  rfl

theorem moveListener?_effect {s' : Dispatcher} (h : s.moveListener? = some s') :
    s.core.Effect s'.core := by
  cases moveListener?_cases h with
  | skip hl ht => exact .skip hl ht
  | take hl hu ht =>
    rw [core_handle]
    exact .take hl hu ht
  | sit hl hu ht => exact .sit hl ht
  | rise hl hu =>
    rw [core_handle]
    exact .rise hl hu
  | stop hl hq => exact .stop hl hq

theorem issue_effect (call : Call) (hu : s.underWay = none) :
    s.core.Effect (s.issue call).core := by
  unfold issue
  split
  · rw [core_stopIfAbandoned, core_openGate, core_note]
    exact .stay
  · rename_i hc
    rw [core_emitSignals]
    exact .issue call _ hu (Bool.eq_false_iff.2 hc)

theorem keepHandle_core (label : String) (handle : JobHandle) :
    (s.keepHandle label handle).core = { s.core with
      handles := s.core.handles.set label handle
      table := (s.core.handles.get? label).elim s.core.table fun old =>
        s.core.table.drop old.ticket } := by
  unfold keepHandle
  show _ = { s.core with
    handles := s.handles.set label handle
    table := (s.handles.get? label).elim s.table fun old => s.table.drop old.ticket }
  cases s.handles.get? label <;> rfl

/-- The call under way ends without a job, and the gate is free again. -/
def failCall (s : Dispatcher) (call : Call) (e : Error) : Dispatcher :=
  ((({ s with underWay := none, numbered := (s.answer call.reply).2 } : Dispatcher).note call.label
    (.failed e)).openGate).stopIfAbandoned

/-- The call under way ends with a job that is registered and a handle that is kept. -/
def registerCall (s : Dispatcher) (call : Call) (path : JobPath) : Dispatcher :=
  let handle : JobHandle := ⟨call.request.unit, ⟨path, s.table.registered⟩⟩
  (((({ s with
    underWay := none
    numbered := (s.answer call.reply).2
    table := (s.table.register path).2 } : Dispatcher).rouseDecided.openGate).keepHandle call.label
      handle).note call.label (.started handle)).stopIfAbandoned

theorem takeUp_eq_registerCall {call : Call} {path : JobPath} (ho : s.table.closed = false)
    (hp : (s.answer call.reply).1 = .ok path) : s.takeUp call = s.registerCall call path := by
  unfold takeUp registerCall
  generalize s.answer call.reply = answer at hp
  obtain ⟨reply, numbered⟩ := answer
  cases (show reply = .ok path from hp)
  simp only [JobTable.takeUp, ho, Bool.false_eq_true, if_false]
  rfl

/-- All that taking up a reply can be. -/
theorem takeUp_cases {motive : Dispatcher → Prop} (s : Dispatcher) (call : Call)
    (fail : ∀ e, (s.table.takeUp (s.answer call.reply).1).1 = .error e → motive (s.failCall call e))
    (register : ∀ path, s.table.closed = false → (s.answer call.reply).1 = .ok path →
      motive (s.registerCall call path)) : motive (s.takeUp call) := by
  by_cases hp : (∃ path, (s.answer call.reply).1 = .ok path) ∧ s.table.closed = false
  · obtain ⟨⟨path, hp⟩, ho⟩ := hp
    exact takeUp_eq_registerCall ho hp ▸ register path ho hp
  · clear register
    unfold failCall at fail
    unfold takeUp
    generalize s.answer call.reply = answer at hp fail
    obtain ⟨reply, numbered⟩ := answer
    cases reply with
    | error e => exact fail e rfl
    | ok path =>
      have hc : s.table.closed = true := by simpa using hp
      simp only [JobTable.takeUp, hc, if_true] at fail ⊢
      exact fail _ rfl

/-- The reply names a job, and its registration is entered. -/
theorem takeUp_core {call : Call} {path : JobPath} (ho : s.table.closed = false)
    (hp : (s.answer call.reply).1 = .ok path) :
    (s.takeUp call).core = { s.core with
      underWay := none
      handles := s.core.handles.set call.label ⟨call.request.unit, ⟨path, s.table.registered⟩⟩
      table := (s.core.handles.get? call.label).elim (s.table.register path).2 fun old =>
        (s.table.register path).2.drop old.ticket } := by
  rw [takeUp_eq_registerCall ho hp, registerCall, core_stopIfAbandoned, core_note, keepHandle_core,
    core_openGate, core_rouseDecided]
  rfl

theorem takeUp_effect {call : CallUnderWay} (hu : s.underWay = some call) :
    s.core.Effect (s.takeUp call.call).core := by
  refine takeUp_cases (motive := fun s' => s.core.Effect s'.core) s call.call (fun e _ => ?fail)
    fun path ho hp => ?register
  case fail =>
    rw [failCall, core_stopIfAbandoned, core_openGate, core_note]
    exact .giveUp hu
  case register =>
    rw [← takeUp_eq_registerCall ho hp, takeUp_core ho hp]
    exact .register hu call.call.label call.call.request.unit path ho

/-- All that a move of a call can be. -/
inductive CallMove (s : Dispatcher) (number : Nat) : Dispatcher → Prop
  | takeUp {call : Call} (hu : s.underWay = some ⟨call, true⟩) (hn : call.number = number) :
      CallMove s number (s.takeUp call)
  | issue {call : Call} (hu : s.underWay = none) (hc : s.seatedCall? number = some call) :
      CallMove s number ({ s with room := s.room.leave (.call call) }.issue call)

theorem moveCall?_cases {number : Nat} {s' : Dispatcher} (h : s.moveCall? number = some s') :
    s.CallMove number s' := by
  unfold moveCall? at h
  split at h
  · rename_i call answered hu
    split at h
    · rename_i hanswered
      cases h
      obtain ⟨hn, rfl⟩ := Bool.and_eq_true_iff.1 hanswered
      exact .takeUp hu (of_decide_eq_true hn)
    · cases h
  · rename_i hu
    obtain ⟨call, hc, rfl⟩ := Option.map_eq_some_iff.1 h
    exact .issue hu hc

theorem moveCall?_effect {number : Nat} {s' : Dispatcher} (h : s.moveCall? number = some s') :
    s.core.Effect s'.core := by
  cases moveCall?_cases h with
  | takeUp hu => exact takeUp_effect hu
  | @issue call hu => exact issue_effect (s := { s with room := s.room.leave (.call call) }) call hu

/-- A wait that moves ends with its verdict. -/
theorem moveWait?_cases {now : Nat} {ticket : Ticket} {s' : Dispatcher}
    (h : s.moveWait? now ticket = some s') :
    ∃ w ∈ s.waits, w.ticket = ticket ∧ ∃ outcome, s.verdict? now w = some outcome ∧
      s' = ({ s with waits := s.waits.erase w, table := s.table.drop w.ticket } : Dispatcher).note
        w.label (.finished outcome) := by
  obtain ⟨w, hfind, h⟩ := Option.bind_eq_some_iff.1 h
  obtain ⟨outcome, hv, rfl⟩ := Option.map_eq_some_iff.1 h
  have hticket := List.find?_some hfind
  exact ⟨w, List.mem_of_find?_eq_some hfind, of_decide_eq_true hticket, outcome, hv, rfl⟩

theorem moveWait?_effect {now : Nat} {ticket : Ticket} {s' : Dispatcher}
    (h : s.moveWait? now ticket = some s') : s.core.Effect s'.core := by
  obtain ⟨w, hw, -, outcome, -, rfl⟩ := moveWait?_cases h
  exact .leave hw

theorem move?_effect {now : Nat} {actor : Actor} {s' : Dispatcher}
    (h : s.move? now actor = some s') : s.core.Effect s'.core := by
  cases actor with
  | pump => exact movePump?_effect h
  | listener => exact moveListener?_effect h
  | call number => exact moveCall?_effect h
  | wait ticket => exact moveWait?_effect h

/-- Every act has one of the effects. -/
theorem act_effect (s : Dispatcher) (x : Act) : s.core.Effect (s.act x).core := by
  cases x with
  | start label request before held reply =>
    rw [act, start_core]
    exact .stay
  | kill label request held fail =>
    rw [act, kill_core]
    exact .stay
  | release label => exact release_effect label
  | wait now label limit => exact wait_effect now label limit
  | drop label => exact drop_effect label
  | emit signals =>
    show s.core.Effect (s.emitSignals signals).core
    rw [core_emitSignals]
    exact .emit signals
  | disconnect => exact .finish
  | requestStop =>
    rw [act, core_requestStop]
    exact .stay
  | addHolder => exact .stay
  | dropHolder label =>
    show s.core.Effect (stopIfAbandoned _).core
    rw [core_stopIfAbandoned]
    exact .stay
  | withGuests guests =>
    rw [act, withGuests, core_stopIfAbandoned]
    exact .stay
  | alarm now => exact .stay
  | move now actor =>
    rw [act]
    cases h : s.move? now actor with
    | none => exact .stay
    | some s' => exact move?_effect h
  | pause actor => exact .stay
  | clear => exact .stay

end Dispatcher

end SystemdControl
