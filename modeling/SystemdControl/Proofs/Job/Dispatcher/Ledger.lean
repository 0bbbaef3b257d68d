import SystemdControl.Proofs.Job.Dispatcher.Effects

/-!
# What an act says to callers and manager

`Core.Effect` is about signals and registrations. Here is the other side of an act: who comes to the
waiting room and who leaves it, who gets the gate, what is sent to the manager and what callers are
told.

* `Ledger` is the part of a dispatcher that is about that; rousing and stopping do not touch it;
* `Exchange` is all that an act can do to the ledger (`Dispatcher.act_exchange`), and everything
  about requests and calls is read off it.
-/

namespace SystemdControl

/-- Who waits for the gate and who holds it, what was sent to the manager, and what callers were
told. -/
structure Ledger where
  guests : List Party
  /-- Whether the listener is one of them. -/
  seated : Bool
  underWay : Option CallUnderWay
  kills : Labelled (Option Error)
  begun : Nat
  numbered : Nat
  sent : List ManagerCall
  events : Labelled JobEvent

/-- Whether the listener sits in the waiting room. -/
def Listener.isSeated : Listener → Bool
  | seated _ => true
  | ready | stopped => false

namespace Ledger

variable (l : Ledger)

/-- A caller is told how something ended. -/
def note (label : String) (event : JobEvent) : Ledger :=
  { l with events := l.events ++ [(label, event)] }

/-- A request reaches the manager. -/
def send (request : ManagerCall) : Ledger :=
  { l with sent := l.sent ++ [request] }

end Ledger

namespace Dispatcher

def ledger (s : Dispatcher) : Ledger :=
  ⟨s.room.guests, s.listener.isSeated, s.underWay, s.kills, s.begun, s.numbered, s.sent, s.events⟩

variable (s : Dispatcher)

/-! ## What leaves the ledger alone -/

@[simp] theorem ledger_rouseListener : s.rouseListener.ledger = s.ledger := by
  unfold rouseListener
  split <;> rfl

@[simp] theorem ledger_rouseDecided : s.rouseDecided.ledger = s.ledger := rfl

@[simp] theorem ledger_note (label : String) (event : JobEvent) :
    (s.note label event).ledger = s.ledger.note label event := rfl

@[simp] theorem ledger_openGate : s.openGate.ledger = s.ledger := by
  have hguests := s.room.guests_callFirst
  unfold openGate
  split
  · rename_i party room hcall
    rw [hcall] at hguests
    exact congrArg (fun guests => { s.ledger with guests }) hguests
  · rfl

@[simp] theorem ledger_giveUpSeat (party : Party) :
    (s.giveUpSeat party).ledger = { s.ledger with guests := s.room.guests.erase party } := by
  rw [← s.room.guests_leave party]
  unfold giveUpSeat
  split
  · exact ledger_openGate _
  · rfl

@[simp] theorem ledger_requestStop : s.requestStop.ledger = s.ledger := by
  unfold requestStop
  split
  · rfl
  · exact ledger_rouseListener _

@[simp] theorem ledger_stopIfAbandoned : s.stopIfAbandoned.ledger = s.ledger := by
  unfold stopIfAbandoned
  split
  · exact ledger_requestStop s
  · rfl

@[simp] theorem ledger_emitSignals (signals : List Signal) :
    (s.emitSignals signals).ledger = s.ledger := by
  unfold emitSignals
  split <;> rfl

@[simp] theorem ledger_keepHandle (label : String) (handle : JobHandle) :
    (s.keepHandle label handle).ledger = s.ledger := by
  unfold keepHandle
  split <;> rfl

@[simp] theorem ledger_handle (event : JobRemoved) :
    (s.handle event).ledger = { s.ledger with seated := false } := by
  obtain ⟨waits, hwaits⟩ := s.handle_eq event
  rw [hwaits, ledger_openGate]
  rfl

@[simp] theorem ledger_stopListener : s.stopListener.ledger = { s.ledger with seated := false } :=
  rfl

/-- Whether an act is a call of the interface that asks the manager for something. -/
def Act.isRequest : Act → Bool
  | start .. | kill .. => true
  | _ => false

end Dispatcher

/-- All that an act can do to the ledger. -/
inductive Exchange (s : Dispatcher) : Dispatcher.Act → Ledger → Prop
  /-- Nothing that callers or manager see. -/
  | stay {x : Dispatcher.Act} (hx : x.isRequest = false) : Exchange s x s.ledger
  | clear : Exchange s .clear { s.ledger with sent := [], events := [] }
  /-- The arguments of a call are refused. -/
  | refuse (label : String) (error : Error) (before : List Signal) (held : Bool) (reply : Reply) :
      Exchange s (.start label (.error error) before held reply)
        (s.ledger.note label (.failed error))
  /-- A call comes to the waiting room. -/
  | submit (label : String) (request : JobRequest) (before : List Signal) (held : Bool)
      (reply : Reply) {guests : List Party}
      (hg : guests.Perm (.call ⟨s.begun, label, request, before, held, reply⟩ :: s.room.guests)) :
      Exchange s (.start label (.ok request) before held reply)
        { s.ledger with begun := s.begun + 1, guests }
  | refuseKill (label : String) (error : Error) (held : Bool) (fail : Option Error) :
      Exchange s (.kill label (.error error) held fail) (s.ledger.note label (.failed error))
  | kill (label : String) (request : KillRequest) (fail : Option Error) :
      Exchange s (.kill label (.ok request) false fail)
        ((s.ledger.send (.kill request)).note label (Dispatcher.killEvent fail))
  | holdKill (label : String) (request : KillRequest) (fail : Option Error) :
      Exchange s (.kill label (.ok request) true fail)
        { s.ledger.send (.kill request) with kills := s.kills ++ [(label, fail)] }
  | answerKill {label : String} {fail : Option Error} (hk : s.kills.get? label = some fail) :
      Exchange s (.release label)
        ({ s.ledger with kills := s.kills.remove label }.note label (Dispatcher.killEvent fail))
  | dropKill (label : String) :
      Exchange s (.drop label) { s.ledger with kills := s.kills.remove label }
  /-- The manager answers the call under way. -/
  | answer (label : String) {call : Call} (hu : s.underWay = some ⟨call, false⟩) :
      Exchange s (.release label) { s.ledger with underWay := some ⟨call, true⟩ }
  /-- A wait ends, or its argument is refused. -/
  | finish {x : Dispatcher.Act} (hx : x.isRequest = false) (label : String)
      (outcome : Except Error JobResult) : Exchange s x (s.ledger.note label (.finished outcome))
  /-- The listener sits down. -/
  | sit (now : Nat) (hl : s.listener = .ready) (hu : s.underWay ≠ none) {guests : List Party}
      (hg : guests.Perm (.listener :: s.room.guests)) :
      Exchange s (.move now .listener) { s.ledger with guests, seated := true }
  /-- The listener, which was seated, gets the gate. -/
  | rise (now : Nat) {event : JobRemoved} (hl : s.listener = .seated event)
      (hu : s.underWay = none) :
      Exchange s (.move now .listener)
        { s.ledger with guests := s.room.guests.erase .listener, seated := false }
  /-- A call gets the gate, and its request is sent. -/
  | issue (now : Nat) {call : Call} (hg : .call call ∈ s.room.guests) (hu : s.underWay = none)
      (ho : s.table.closed = false) :
      Exchange s (.move now (.call call.number))
        { s.ledger.send (.job call.request) with
          guests := s.room.guests.erase (.call call)
          underWay := some ⟨call, !call.held⟩ }
  /-- A call gets the gate after the table was closed. -/
  | turnAway (now : Nat) {call : Call} (hg : .call call ∈ s.room.guests) (hu : s.underWay = none)
      (hc : s.table.closed = true) :
      Exchange s (.move now (.call call.number))
        ({ s.ledger with guests := s.room.guests.erase (.call call) }.note call.label
          (.failed .listenerUnavailable))
  /-- The reply of a call is an error, or comes after the table was closed. -/
  | fail (now : Nat) {call : Call} (hu : s.underWay = some ⟨call, true⟩) {error : Error}
      (hr : (s.table.takeUp (s.answer call.reply).1).1 = .error error) :
      Exchange s (.move now (.call call.number))
        ({ s.ledger with
            underWay := none
            numbered := (s.answer call.reply).2 }.note call.label (.failed error))
  /-- The job of a call is registered. -/
  | register (now : Nat) {call : Call} (hu : s.underWay = some ⟨call, true⟩) {path : JobPath}
      (ho : s.table.closed = false) (hr : (s.answer call.reply).1 = .ok path) :
      Exchange s (.move now (.call call.number))
        ({ s.ledger with
            underWay := none
            numbered := (s.answer call.reply).2 }.note call.label
          (.started ⟨call.request.unit, ⟨path, s.table.registered⟩⟩))
  /-- The call under way is abandoned. -/
  | abandon {u : CallUnderWay} (hu : s.underWay = some u) :
      Exchange s (.drop u.call.label) { s.ledger with underWay := none }
  /-- A call that waits for the gate is abandoned. -/
  | giveUp {call : Call} (hg : .call call ∈ s.room.guests) :
      Exchange s (.drop call.label) { s.ledger with guests := s.room.guests.erase (.call call) }

namespace Dispatcher

variable {s : Dispatcher}

/-! ## Calls of the interface -/

theorem start_exchange (label : String) (request : Except Error JobRequest) (before : List Signal)
    (held : Bool) (reply : Reply) :
    Exchange s (.start label request before held reply)
      (s.start label request before held reply).ledger := by
  cases request with
  | error e => exact .refuse label e before held reply
  | ok request => exact .submit label request before held reply (s.room.guests_enter_perm _ true)

theorem kill_exchange (label : String) (request : Except Error KillRequest) (held : Bool)
    (fail : Option Error) :
    Exchange s (.kill label request held fail) (s.kill label request held fail).ledger := by
  cases request with
  | error e => exact .refuseKill label e held fail
  | ok request =>
    cases held with
    | false => exact .kill label request fail
    | true => exact .holdKill label request fail

theorem release_exchange (label : String) :
    Exchange s (.release label) (s.release label).2.ledger := by
  generalize hr : (s.release label).2 = s'
  cases release_cases hr with
  | answer hu => exact .answer label hu
  | kill hk =>
    rw [ledger_stopIfAbandoned]
    exact .answerKill hk
  | missing => exact .stay rfl

theorem wait_exchange (now : Nat) (label : String) (limit : Option Duration) :
    Exchange s (.wait now label limit) (s.wait now label limit).2.ledger := by
  generalize hw : (s.wait now label limit).2 = s'
  cases wait_cases hw with
  | missing | enter => exact .stay rfl
  | refuse => exact .finish rfl label _

theorem drop_exchange (label : String) : Exchange s (.drop label) (s.drop label).2.ledger := by
  generalize hd : (s.drop label).2 = s'
  cases drop_cases hd with
  | handle | wait | missing => exact .stay rfl
  | underWay hu hl =>
    subst hl
    rw [ledger_stopIfAbandoned, ledger_openGate]
    exact .abandon hu
  | seat hm hl =>
    subst hl
    rw [ledger_stopIfAbandoned, ledger_giveUpSeat]
    exact .giveUp hm
  | kill =>
    rw [ledger_stopIfAbandoned]
    exact .dropKill label

/-! ## Moves -/

theorem mem_of_seatedCall? {number : Nat} {call : Call} (h : s.seatedCall? number = some call) :
    .call call ∈ s.room.guests ∧ call.number = number := by
  obtain ⟨party, hm, hp⟩ := List.exists_of_findSome?_eq_some h
  split at hp
  · split at hp
    · rename_i hn
      cases hp
      exact ⟨hm, hn⟩
    · cases hp
  · cases hp

theorem issue_exchange (now : Nat) {call : Call} (hg : .call call ∈ s.room.guests)
    (hu : s.underWay = none) :
    Exchange s (.move now (.call call.number))
      ({ s with room := s.room.leave (.call call) }.issue call).ledger := by
  have hguests := s.room.guests_leave (.call call)
  unfold issue
  split
  · rename_i hc
    have hleft := Exchange.turnAway now hg hu hc
    rw [← hguests] at hleft
    rw [ledger_stopIfAbandoned, ledger_openGate]
    exact hleft
  · rename_i ho
    have hleft := Exchange.issue now hg hu (Bool.eq_false_iff.2 ho)
    rw [← hguests] at hleft
    rw [ledger_emitSignals]
    exact hleft

theorem takeUp_exchange (now : Nat) {call : Call} (hu : s.underWay = some ⟨call, true⟩) :
    Exchange s (.move now (.call call.number)) (s.takeUp call).ledger := by
  refine takeUp_cases (motive := fun s' => Exchange s _ s'.ledger) s call (fun e hr => ?fail)
    fun path ho hp => ?register
  case fail =>
    rw [failCall, ledger_stopIfAbandoned, ledger_openGate]
    exact .fail now hu hr
  case register =>
    rw [registerCall, ledger_stopIfAbandoned, ledger_note, ledger_keepHandle, ledger_openGate,
      ledger_rouseDecided]
    exact .register now hu ho hp

theorem moveCall?_exchange (now : Nat) {number : Nat} {s' : Dispatcher}
    (h : s.moveCall? number = some s') : Exchange s (.move now (.call number)) s'.ledger := by
  cases moveCall?_cases h with
  | takeUp hu hn => exact hn ▸ takeUp_exchange now hu
  | issue hu hc =>
    obtain ⟨hg, rfl⟩ := mem_of_seatedCall? hc
    exact issue_exchange now hg hu

theorem moveListener?_exchange (now : Nat) {s' : Dispatcher} (h : s.moveListener? = some s') :
    Exchange s (.move now .listener) s'.ledger := by
  -- A listener that is ready was not seated before, so it goes on not to be.
  have hready : s.listener = .ready → { s.ledger with seated := false } = s.ledger := fun hl => by
    rw [ledger, hl]
    rfl
  cases moveListener?_cases h with
  | skip => exact .stay rfl
  | @take event feed hl =>
    have hsame : ({ s with feed }.handle event).ledger = s.ledger :=
      (ledger_handle ..).trans (hready hl)
    rw [hsame]
    exact .stay rfl
  | sit hl hu => exact .sit now hl hu (s.room.guests_enter_perm .listener false)
  | rise hl hu =>
    have hrise := Exchange.rise now hl hu
    rw [← s.room.guests_leave .listener] at hrise
    rw [ledger_handle]
    exact hrise
  | stop hl =>
    rw [ledger_stopListener, hready hl]
    exact .stay rfl

theorem move?_exchange {now : Nat} {actor : Actor} {s' : Dispatcher}
    (h : s.move? now actor = some s') : Exchange s (.move now actor) s'.ledger := by
  cases actor with
  | pump =>
    obtain ⟨feed, -, rfl⟩ := Option.map_eq_some_iff.1 h
    rw [ledger_rouseListener]
    exact .stay rfl
  | listener => exact moveListener?_exchange now h
  | call number => exact moveCall?_exchange now h
  | wait ticket =>
    obtain ⟨w, -, -, outcome, -, rfl⟩ := moveWait?_cases h
    exact .finish rfl w.label outcome

/-- Every act has one of these effects on the ledger. -/
theorem act_exchange (s : Dispatcher) (x : Act) : Exchange s x (s.act x).ledger := by
  cases x with
  | start label request before held reply => exact start_exchange ..
  | kill label request held fail => exact kill_exchange ..
  | release label => exact release_exchange label
  | wait now label limit => exact wait_exchange ..
  | drop label => exact drop_exchange label
  | emit signals =>
    show Exchange s _ (s.emitSignals signals).ledger
    rw [ledger_emitSignals]
    exact .stay rfl
  | disconnect => exact .stay rfl
  | requestStop =>
    rw [act, ledger_requestStop]
    exact .stay rfl
  | addHolder => exact .stay rfl
  | dropHolder label =>
    show Exchange s _ (stopIfAbandoned _).ledger
    rw [ledger_stopIfAbandoned]
    exact .stay rfl
  | withGuests guests =>
    rw [act, withGuests, ledger_stopIfAbandoned]
    exact .stay rfl
  | alarm now => exact .stay rfl
  | move now actor =>
    rw [act]
    cases h : s.move? now actor with
    | none => exact .stay rfl
    | some s' => exact move?_exchange h
  | pause actor =>
    have hguests : (s.pause actor).room.guests = s.room.guests := by
      unfold pause
      split
      · exact s.room.guests_uncall _
      · rfl
    have hsame : (s.act (.pause actor)).ledger = s.ledger :=
      congrArg (fun guests => { s.ledger with guests }) hguests
    rw [hsame]
    exact .stay rfl
  | clear => exact .clear

end Dispatcher

end SystemdControl
