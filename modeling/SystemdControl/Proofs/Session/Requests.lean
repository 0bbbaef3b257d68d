import SystemdControl.Proofs.Job.Dispatcher.Answers
import SystemdControl.Proofs.Job.Request
import SystemdControl.Proofs.Session.Acts
import SystemdControl.Proofs.Text.Labelled
import SystemdControl.Session.Units

/-!
# Only checked requests are sent

Every call that asks for a job or signals a unit checks its arguments before anything else. What is
wrong with them the caller is told at once, whoever holds the gate, and nothing else happens. If
nothing is, one request at most is sent, and it says what the caller said.

* `Session.Refuses` and `Session.Forwards` are the two ways in which a session can treat a call
  (`Session.refuses_of_perform`, `Session.forwards_start`);
* `Connection.step_start` and `Connection.step_kill` say what a connection sends, where the manager
  answers one call at a time;
* `JobMember.Asks` ties a member to what it asks for, with the name and the arguments that this has
  on the wire.
-/

namespace SystemdControl

open Dispatcher (Act Reaches)

/-! ## Arguments -/

namespace Ask

/-- The properties that a caller gave. -/
def properties : Ask → List UnitProperty
  | method _ => []
  | transient properties => properties

/-- The request for a unit of that full name. -/
def request (name : String) (mode : StartMode) : Ask → JobRequest
  | method m => .method m name mode
  | transient properties => .transient name mode properties

variable {ask : Ask} {unit name : String} {mode : StartMode}

@[simp] theorem unit_request : (ask.request name mode).unit = name := by
  cases ask <;> rfl

theorem request?_eq_ok_iff {request : JobRequest} :
    ask.request? unit mode = .ok request ↔
      ∃ name, UnitName.canonicalize unit = .ok name ∧
        (∀ p ∈ ask.properties, PropertyName.Valid p.name) ∧ request = ask.request name mode := by
  cases ask with
  | method m =>
    refine JobRequest.method?_eq_ok_iff.trans (exists_congr fun name => and_congr_right fun _ => ?_)
    exact (and_iff_right (List.forall_mem_nil _)).symm
  | transient properties => exact JobRequest.transient?_eq_ok_iff

theorem request?_onlyRefuses (ask : Ask) (unit : String) (mode : StartMode) :
    OnlyRefuses (ask.request? unit mode) := by
  cases ask with
  | method m => exact JobRequest.method?_onlyRefuses m unit mode
  | transient properties => exact JobRequest.transient?_onlyRefuses unit mode properties

/-- There is no request if the unit or a property has no acceptable name. -/
theorem exists_fault
    (h : (∀ name, UnitName.canonicalize unit ≠ .ok name) ∨
      ∃ p ∈ ask.properties, ¬ PropertyName.Valid p.name) (mode : StartMode) :
    ∃ fault, ask.request? unit mode = .error (.invalidInput fault) := by
  refine (ask.request?_onlyRefuses unit mode).exists_fault fun request hr => ?_
  obtain ⟨name, hname, hvalid, -⟩ := request?_eq_ok_iff.1 hr
  rcases h with hn | ⟨p, hp, hn⟩
  · exact hn name hname
  · exact hn (hvalid p hp)

end Ask

/-- There is no request to signal a unit without an acceptable name, or with no signal. -/
theorem KillRequest.exists_fault {unit : String} {signal : Int32}
    (h : (∀ name, UnitName.canonicalize unit ≠ .ok name) ∨ signal ≤ 0) (who : KillWho) :
    ∃ fault, make? unit who signal = .error (.invalidInput fault) := by
  refine (make?_onlyRefuses unit who signal).exists_fault fun request hr => ?_
  obtain ⟨name, hname, hsignal, -⟩ := make?_eq_ok_iff.1 hr
  rcases h with hn | hle
  · exact hn name hname
  · exact Int32.not_lt.2 hle hsignal

theorem Dispatcher.Act.startsAs_of_isOwn {x : Act} (h : x.isOwn = true) (label : String) :
    x.startsAs label = false := by
  cases x with
  | start => cases h
  | _ => rfl

/-! ## Sessions -/

namespace Session

variable {s : Session} {x : Step} {label : String}

/-- What ends first of the jobs under a label is what is seen of it. -/
theorem get?_events {event : JobEvent} (h : s.jobs.events.get? label = some event) :
    s.events.get? label = some (.job event) := by
  rw [events, Labelled.get?_mergeSort]
  refine Labelled.get?_append_of_get? ?_ _
  rw [Labelled.get?_map, h]
  rfl

/-- What has ended is seen after everything has gone on. -/
theorem get?_events_settle {event : JobEvent} (h : s.jobs.events.get? label = some event) :
    s.settle.events.get? label = some (.job event) := by
  obtain ⟨xs, hxs, hjobs⟩ := s.settle_drifts
  have hclear : .clear ∉ xs := fun hm => Bool.false_ne_true (hxs _ hm)
  obtain ⟨more, hmore⟩ := Dispatcher.events_grow hclear s.jobs
  refine get?_events ?_
  rw [hjobs, ← hmore]
  exact Labelled.get?_append_of_get? h more

/-- A session between two steps: some acts have led to it, and all that has ended was reported. -/
structure Between (s : Session) : Prop where
  reaches : ∃ capacity, Reaches { feed := { capacity } } s.jobs
  reported : s.jobs.events = []

namespace Between

theorem connect {options : BusOptions} {refusal : Option Error}
    (h : connect? options refusal = .ok s) : s.Between := by
  cases refusal with
  | some e => cases h
  | none =>
    cases h
    exact ⟨⟨options.capacity, .refl _⟩, rfl⟩

theorem step (h : s.Between) (x : Step) : (s.step x).2.Between := by
  obtain ⟨capacity, hr⟩ := h.reaches
  exact ⟨⟨capacity, hr.trans (s.step_reaches x)⟩, rfl⟩

/-- The blocking interface leads from one such session to another as well. -/
theorem blocking_step (h : s.Between) (executor : Executor) (x : Step) :
    (Blocking.step executor s x).2.Between := by
  obtain ⟨capacity, hr⟩ := h.reaches
  exact ⟨⟨capacity, hr.trans (Blocking.step_reaches executor s x)⟩, rfl⟩

theorem after (h : s.Between) (xs : List Step) : (s.after xs).Between := by
  induction xs generalizing s with
  | nil => exact h
  | cons x xs ih => exact ih (h.step x)

end Between

/-- A session refuses a step at once. -/
structure Refuses (s : Session) (x : Step) (label : String) (fault : InputFault) : Prop where
  /-- Nothing happens but that the caller is told. -/
  performed : s.perform x =
    (.ok, { s with jobs := s.jobs.note label (.failed (.invalidInput fault)) })
  step : Reaches (s.perform x).2.jobs (s.step x).2.jobs
  blocking : ∀ executor : Executor, executor.block = .ok () →
    Reaches (s.perform x).2.jobs (Blocking.step executor s x).2.jobs
  /-- Only others get the gate afterwards. -/
  issues : ∀ ys call, call ∈ (s.perform x).2.jobs.issues ys →
    .call call ∈ s.jobs.room.guests ∨ call ∈ (s.perform x).2.jobs.submissions ys
  reported : (s.step x).1.events.get? label = some (.job (.failed (.invalidInput fault)))
  returned : ∀ executor : Executor, executor.block = .ok () →
    (Blocking.step executor s x).1.answer = .ended (.job (.failed (.invalidInput fault)))

/-- A session lets a call for a job go on. -/
structure Forwards (s : Session) (x : Step) (call : Call) : Prop where
  /-- The call comes to the gate. -/
  performed : (s.perform x).2.jobs =
    s.jobs.act (.start call.label (.ok call.request) call.before call.held call.reply)
  step : Reaches (s.perform x).2.jobs (s.step x).2.jobs
  blocking : ∀ executor : Executor, executor.block = .ok () →
    Reaches (s.perform x).2.jobs (Blocking.step executor s x).2.jobs
  /-- It gets the gate once at most, and as it came. -/
  issues : ∀ ys : List Act,
    (((s.perform x).2.jobs.issues ys).filter (·.number = call.number)).Sublist [call]
  /-- While it holds the gate it is handed out no handle but its own, and it got the gate by then. -/
  started : ∀ (ys : List Act) (y : Act) (other : String) (handle : JobHandle),
    let s' := ys.foldl Dispatcher.act (s.perform x).2.jobs
    s'.inFlight.map (·.number) = some call.number → (other, .started handle) ∉ s'.events →
    (other, .started handle) ∈ (s'.act y).events →
    call ∈ (s.perform x).2.jobs.issues ys ∧ other = call.label ∧
      handle.unit = call.request.unit ∧ (s'.answer call.reply).1 = .ok handle.ticket.path
  /-- A blocking call returns no handle but its own, and its request was sent, if no other call has
  its label. -/
  returned : ∀ executor : Executor, executor.block = .ok () →
    (∀ c, .call c ∈ s.jobs.room.guests ∨ s.jobs.inFlight = some c → c.label ≠ call.label) →
    ∀ handle, (Blocking.step executor s x).1.answer = .ended (.job (.started handle)) →
      .job call.request ∈ (Blocking.step executor s x).1.calls ∧
        handle.unit = call.request.unit ∧ Dispatcher.Replies call.reply handle.ticket.path

theorem step_reaches_of_perform (s : Session) (x : Step) :
    Reaches (s.perform x).2.jobs (s.step x).2.jobs :=
  (settle_reaches _).trans (Reaches.act _ .clear)

/-- A blocking call that begins something waits for its end, while the others go on. -/
theorem blocking_step_of_awaits {executor : Executor} (he : executor.block = .ok ())
    (hx : Blocking.perform s x = Blocking.awaitEnding (s.perform x).2.settle x label) :
    let r := Blocking.awaitEnding (s.perform x).2.settle x label
    Blocking.step executor s x = (⟨r.1, r.2.settle.jobs.sent⟩, r.2.settle.clear) := by
  unfold Blocking.step
  rw [he]
  dsimp only
  rw [hx]

theorem blocking_reaches {executor : Executor} (he : executor.block = .ok ())
    (hx : Blocking.perform s x = Blocking.awaitEnding (s.perform x).2.settle x label) :
    Reaches (s.perform x).2.jobs (Blocking.step executor s x).2.jobs := by
  rw [blocking_step_of_awaits he hx]
  have hend := (Blocking.awaitEnding_drifts (s.perform x).2 x label).reaches
  exact (hend.trans (settle_reaches _)).trans (Reaches.act _ .clear)

theorem awaitUntil_of_ending {event : Event} (h : Blocking.ending? s label = some event)
    (limit n : Nat) : Blocking.awaitUntil label limit (n + 1) s = (.ended event, s) := by
  rw [Blocking.awaitUntil, h]

/-- What a wait answers has ended. -/
theorem ending?_awaitUntil {event : Event} {limit n : Nat} {s : Session}
    (h : (Blocking.awaitUntil label limit n s).1 = .ended event) :
    Blocking.ending? (Blocking.awaitUntil label limit n s).2 label = some event := by
  induction n generalizing s with
  | zero => cases h
  | succ n ih =>
    unfold Blocking.awaitUntil at h ⊢
    cases hend : Blocking.ending? s label with
    | some event' =>
      rw [hend] at h
      cases h
      exact hend
    | none =>
      rw [hend] at h
      dsimp only at h ⊢
      split
      · rename_i hlt
        rw [if_pos hlt] at h
        exact ih h
      · rename_i hge
        rw [if_neg hge] at h
        cases h

/-- What was sent stays sent while everything goes on. -/
theorem mem_sent_settle {call : ManagerCall} (h : call ∈ s.jobs.sent) :
    call ∈ s.settle.jobs.sent := by
  obtain ⟨xs, hxs, hjobs⟩ := s.settle_drifts
  rw [hjobs, Dispatcher.sent_foldl _ fun hm => Bool.false_ne_true (hxs _ hm)]
  exact List.mem_append_left _ h

/-- What is seen to have ended of the jobs did end. -/
theorem mem_events {event : JobEvent} (h : Blocking.ending? s label = some (.job event)) :
    (label, event) ∈ s.jobs.events := by
  obtain ⟨e, he, hevent⟩ := Option.map_eq_some_iff.1 h
  have hlabel : e.1 = label := by simpa using List.find?_some he
  have hm := (List.mergeSort_perm _ _).mem_iff.1 (List.mem_of_find?_eq_some he)
  rcases List.mem_append.1 hm with hm | hm
  · obtain ⟨e', he', rfl⟩ := List.mem_map.1 hm
    cases hevent
    exact hlabel ▸ he'
  · obtain ⟨e', -, rfl⟩ := List.mem_map.1 hm
    cases hevent

theorem refuses_of_perform {fault : InputFault} (h : s.Between)
    (hp : s.perform x =
      (.ok, { s with jobs := s.jobs.note label (.failed (.invalidInput fault)) }))
    (hx : Blocking.perform s x = Blocking.awaitEnding (s.perform x).2.settle x label) :
    s.Refuses x label fault := by
  have hnoted : (s.perform x).2.jobs.events.get? label =
      some (.failed (.invalidInput fault)) := by
    rw [hp]
    show Labelled.get? (s.jobs.events ++ [(label, _)]) label = _
    rw [h.reported]
    simp [Labelled.get?]
  have hsettled := get?_events_settle hnoted
  refine ⟨hp, s.step_reaches_of_perform x, fun executor he => blocking_reaches he hx,
    fun ys call hc => ?_, hsettled, fun executor he => ?_⟩
  · rw [hp] at hc ⊢
    exact Dispatcher.issues_subset hc
  · rw [blocking_step_of_awaits he hx]
    exact congrArg Prod.fst (awaitUntil_of_ending hsettled _ _)

/-- A call for a job whose arguments pass comes to the gate. -/
theorem forwards_start (h : s.Between) {unit : String} {mode : StartMode} {ask : Ask}
    {request : JobRequest} (hreq : ask.request? unit mode = .ok request) (label : String)
    (before : List Signal) (held : Bool) (reply : Reply) :
    s.Forwards (.start label unit mode ask before held reply)
      ⟨s.jobs.begun, label, request, before, held, reply⟩ := by
  let x : Step := .start label unit mode ask before held reply
  obtain ⟨capacity, xs, hxs⟩ := h.reaches
  have hperform : (s.perform x).2.jobs =
      s.jobs.act (.start label (.ok request) before held reply) := hreq ▸ rfl
  have hawaits : Blocking.perform s x = Blocking.awaitEnding (s.perform x).2.settle x label := rfl
  refine ⟨hperform, s.step_reaches_of_perform x, fun executor he => blocking_reaches he hawaits,
    fun ys => ?issues, ?started, fun executor he hlabel handle hanswer => ?returned⟩
  case issues =>
    rw [hperform, hxs]
    exact Dispatcher.issues_start_sublist capacity xs label request before held reply ys
  case started =>
    intro ys y other handle s' hnumber hfresh hstarted
    obtain hm | ⟨c, -, hu, rfl, hunit, hpath⟩ := (s'.act_exchange y).started hstarted
    · exact absurd hm hfresh
    · have hinFlight : s'.inFlight = some c := by
        rw [Dispatcher.inFlight, hu]
        rfl
      rw [hinFlight] at hnumber
      have hstart := @Dispatcher.inFlight_start capacity xs label request before held reply ys c
      rw [← hxs] at hstart
      obtain ⟨rfl, hissued⟩ := hstart (hperform ▸ hinFlight) (Option.some.inj hnumber)
      exact ⟨hperform ▸ hissued, rfl, hunit, hpath⟩
  case returned =>
    have halone : (s.perform x).2.jobs.Alone
        ⟨s.jobs.begun, label, request, before, held, reply⟩ := by
      rw [hperform]
      refine .submit (fun c hc => hlabel c (.inl hc)) (fun c hc => hlabel c (.inr hc))
        (fun handle hm => ?_) request before held reply
      rw [h.reported] at hm
      exact absurd hm List.not_mem_nil
    obtain ⟨ys, hys, hjobs⟩ := Blocking.awaitEnding_drifts (s.perform x).2 x label
    have hend := halone.after (fun y hy => Dispatcher.Act.startsAs_of_isOwn (hys y hy) label)
      fun hm => Bool.false_ne_true (hys _ hm)
    rw [← hjobs] at hend
    rw [blocking_step_of_awaits he hawaits] at hanswer ⊢
    exact (hend.started handle (mem_events (ending?_awaitUntil hanswer))).imp_left mem_sent_settle

/-- A session sends a request to signal a unit at once. -/
structure Sends (s : Session) (x : Step) (request : KillRequest) : Prop where
  step : Reaches (s.perform x).2.jobs (s.step x).2.jobs
  blocking : ∀ executor : Executor, executor.block = .ok () →
    Reaches (s.perform x).2.jobs (Blocking.step executor s x).2.jobs
  sent : (s.perform x).2.jobs.sent = s.jobs.sent ++ [.kill request]
  table : (s.perform x).2.jobs.table = s.jobs.table
  /-- Later ones are of later calls. -/
  requests : ∀ ys, ((s.perform x).2.jobs.requests ys).filterMap ManagerCall.kill? =
    ys.filterMap Act.killed?

theorem sends_kill {unit : String} {who : KillWho} {signal : Int32} {request : KillRequest}
    (hreq : KillRequest.make? unit who signal = .ok request) (label : String) (held : Bool)
    (fail : Option Error) : s.Sends (.kill label unit who signal held fail) request := by
  have hperform : (s.perform (.kill label unit who signal held fail)).2.jobs =
      s.jobs.kill label (.ok request) held fail := hreq ▸ rfl
  refine ⟨s.step_reaches_of_perform _, fun executor he => blocking_reaches he rfl, ?_, ?_,
    fun ys => Dispatcher.requests_filterMap_kill? _ ys⟩
  · rw [hperform]
    cases held <;> rfl
  · rw [hperform]
    cases held <;> rfl

end Session

/-! ## Connections -/

namespace Connection

variable {c : Connection}

/-- A call reaches the manager once at most. An answer other than a fault is the reply to it. -/
theorem send_cases (c : Connection) (call : MethodCall) (reply : BusReply) :
    (c.send call reply).1.Sublist [call] ∧
      ∀ body, (c.send call reply).2 = .ok body →
        (c.send call reply).1 = [call] ∧ reply.body? = .ok body := by
  unfold send
  split
  · exact ⟨List.nil_sublist _, nofun⟩
  · split
    · exact ⟨.refl _, fun body hb => ⟨rfl, hb⟩⟩
    · exact ⟨List.nil_sublist _, nofun⟩

theorem read_eq_ok {α : Type} {options : BusOptions} {action : String} {unit : Option String}
    {reader : Body → Except Fault α} {reply : Except Fault Body} {a : α}
    (h : read options action unit reader reply = .ok a) : reply >>= reader = .ok a := by
  unfold read at h
  split at h
  · rename_i b hb
    cases h
    exact hb
  · cases h

/-- A connection asks for a job once at most. A handle names the unit and the path of the reply, and
then the job was asked for. -/
theorem step_start (c : Connection) (label : String) (request : JobRequest) (reply : BusReply) :
    let r := c.step (.start label (.ok request) reply)
    r.1.Sublist [.ofJob request] ∧
      ∀ handle, r.2.1 = .started handle →
        r.1 = [.ofJob request] ∧ handle.unit = request.unit ∧
          reply.body? >>= Body.jobPath? = .ok handle.ticket.path := by
  obtain ⟨hcalls, hbody⟩ := c.send_cases (.ofJob request) reply
  show (c.start label request reply).1.Sublist _ ∧
    ∀ handle, (c.start label request reply).2.1 = .started handle →
      (c.start label request reply).1 = [.ofJob request] ∧ handle.unit = request.unit ∧
        reply.body? >>= Body.jobPath? = .ok handle.ticket.path
  generalize hsent : c.send (.ofJob request) reply = sent at hcalls hbody
  obtain ⟨calls, body⟩ := sent
  unfold start
  rw [hsent]
  cases hclosed : c.table.closed with
  | true => exact ⟨List.nil_sublist _, fun handle h => by cases h⟩
  | false =>
    cases hread : read c.options request.action (some request.unit) Body.jobPath? body with
    | error e =>
      simp only [hread, JobTable.takeUp, Bool.false_eq_true, if_false]
      exact ⟨hcalls, fun handle h => by cases h⟩
    | ok path =>
      simp only [hread, JobTable.takeUp, hclosed, Bool.false_eq_true, if_false]
      refine ⟨hcalls, fun handle h => ?_⟩
      cases h
      obtain ⟨b, rfl, hpath⟩ := bind_eq_ok_iff.1 (read_eq_ok hread)
      obtain ⟨hcalled, hreply⟩ := hbody b rfl
      exact ⟨hcalled, rfl, bind_eq_ok_iff.2 ⟨b, hreply, hpath⟩⟩

/-- A connection signals a unit once at most, and has done so if it says so. -/
theorem step_kill (c : Connection) (request : KillRequest) (reply : BusReply) :
    let r := c.step (.kill (.ok request) reply)
    r.1.Sublist [.ofKill request] ∧ (r.2.1 = .killed → r.1 = [.ofKill request]) := by
  obtain ⟨hcalls, hbody⟩ := c.send_cases (.ofKill request) reply
  generalize hsent : c.send (.ofKill request) reply = sent at hcalls hbody
  obtain ⟨calls, body⟩ := sent
  simp only [step, hsent]
  split
  · rename_i hread
    obtain ⟨b, rfl, -⟩ := bind_eq_ok_iff.1 (read_eq_ok hread)
    exact ⟨hcalls, fun _ => (hbody b rfl).1⟩
  · exact ⟨hcalls, nofun⟩

end Connection

/-! ## Members -/

/-- A member that asks for a job, and what a call of it is to be on the wire. -/
structure JobMember where
  call : String → StartMode → JobCall
  /-- The member for callers that wait. -/
  blocking : Executor → Session → String → StartMode → String → Treatment →
    Blocking.Report × Session
  /-- The properties that the caller gives. -/
  properties : List UnitProperty
  /-- The request for a unit of that full name. -/
  request : String → StartMode → JobRequest
  /-- The name of the method on the manager's interface. -/
  member : String
  /-- The arguments after unit and mode. -/
  more : List Argument

/-- What a member asks for. -/
structure JobMember.Asks (m : JobMember) (ask : Ask) : Prop where
  call : ∀ unit mode, m.call unit mode = ⟨unit, mode, ask⟩
  blocking : ∀ executor s unit mode label t, m.blocking executor s unit mode label t =
    Blocking.step executor s ((m.call unit mode).step label t)
  properties : m.properties = ask.properties
  request : ∀ name mode, m.request name mode = ask.request name mode
  wire : ∀ name mode, MethodCall.ofJob (m.request name mode) =
    ⟨m.member, .value (.text name) :: .value (.text mode.spelling) :: m.more⟩

namespace JobMember.Asks

theorem method (m : UnitMethod) :
    Asks ⟨Units.enqueue m, fun executor s unit mode =>
      BlockingUnits.await executor s (Units.enqueue m unit mode), [], .method m, m.member, []⟩
      (.method m) :=
  ⟨fun _ _ => rfl, fun _ _ _ _ _ _ => rfl, rfl, fun _ _ => rfl, fun _ _ => rfl⟩

theorem transient (properties : List UnitProperty) :
    Asks ⟨(Units.startTransient · · properties), fun executor s unit mode =>
      BlockingUnits.startTransient executor s unit mode properties, properties,
      (.transient · · properties), "StartTransientUnit",
      [.properties (properties.map Wire.ofProperty), .auxiliary]⟩ (.transient properties) :=
  ⟨fun _ _ => rfl, fun _ _ _ _ _ _ => rfl, rfl, fun _ _ => rfl, fun _ _ => rfl⟩

end JobMember.Asks

end SystemdControl
