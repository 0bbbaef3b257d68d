import SystemdControl.Proofs.Job.Dispatcher.Attended
import SystemdControl.Proofs.Job.Dispatcher.Refusing

/-!
# Who keeps the listener running

Pump and listener are needed as long as someone can make a call or has one under way. They are asked
to stop when the last of these goes away, and otherwise only by a caller; handles and waits do not
count.

* `Dispatcher.InUse` says that they are needed; `Dispatcher.act_minds` is what an act does about it;
* `Dispatcher.Heeded`: they have been asked to stop when nobody needs them;
* `Dispatcher.Coasts`: those who go on by themselves do not come to need them again;
* `Dispatcher.isCut_act`: only the manager ends the stream, after which they end as well.
-/

namespace SystemdControl.Dispatcher

variable {s s' : Dispatcher}

/-- Someone can make a call or has one under way. -/
def InUse (s : Dispatcher) : Prop :=
  s.holders ≠ [] ∨ s.guests ≠ 0 ∨ s.kills ≠ [] ∨ s.underWay ≠ none ∨
    ∃ call, .call call ∈ s.room.guests

theorem abandoned_iff : s.abandoned = true ↔ ¬ s.InUse := by
  have hroom : (∀ party ∈ s.room.guests, party = .listener) ↔
      ¬ ∃ call, .call call ∈ s.room.guests := by
    constructor
    · rintro h ⟨call, hc⟩
      cases h _ hc
    · intro h party hp
      cases party with
      | listener => rfl
      | call call => exact absurd ⟨call, hp⟩ h
  simp only [abandoned, InUse, Bool.and_eq_true, List.isEmpty_iff, beq_iff_eq,
    Option.isNone_iff_eq_none, List.all_eq_true, decide_eq_true_eq, hroom]
  tauto

/-! ## What leaves the use alone -/

section
variable (s : Dispatcher)

@[simp] theorem stopping_rouseListener : s.rouseListener.stopping = s.stopping := by
  unfold rouseListener
  split <;> rfl

@[simp] theorem stopping_openGate : s.openGate.stopping = s.stopping := by
  unfold openGate
  split <;> rfl

@[simp] theorem stopping_giveUpSeat (party : Party) :
    (s.giveUpSeat party).stopping = s.stopping := by
  unfold giveUpSeat
  split
  · exact stopping_openGate _
  · rfl

@[simp] theorem stopping_emitSignals (signals : List Signal) :
    (s.emitSignals signals).stopping = s.stopping := by
  unfold emitSignals
  split <;> rfl

@[simp] theorem stopping_keepHandle (label : String) (handle : JobHandle) :
    (s.keepHandle label handle).stopping = s.stopping := by
  unfold keepHandle
  split <;> rfl

@[simp] theorem guests_rouseListener : s.rouseListener.guests = s.guests := by
  unfold rouseListener
  split <;> rfl

@[simp] theorem guests_openGate : s.openGate.guests = s.guests := by
  unfold openGate
  split <;> rfl

@[simp] theorem guests_handle (event : JobRemoved) : (s.handle event).guests = s.guests := by
  obtain ⟨waits, hwaits⟩ := s.handle_eq event
  rw [hwaits]
  exact guests_openGate _

@[simp] theorem guests_giveUpSeat (party : Party) : (s.giveUpSeat party).guests = s.guests := by
  unfold giveUpSeat
  split
  · exact guests_openGate _
  · rfl

@[simp] theorem guests_requestStop : s.requestStop.guests = s.guests := by
  unfold requestStop
  split
  · rfl
  · exact guests_rouseListener _

@[simp] theorem guests_stopIfAbandoned : s.stopIfAbandoned.guests = s.guests := by
  unfold stopIfAbandoned
  split
  · exact guests_requestStop s
  · rfl

@[simp] theorem guests_emitSignals (signals : List Signal) :
    (s.emitSignals signals).guests = s.guests := by
  unfold emitSignals
  split <;> rfl

@[simp] theorem guests_keepHandle (label : String) (handle : JobHandle) :
    (s.keepHandle label handle).guests = s.guests := by
  unfold keepHandle
  split <;> rfl

theorem abandoned_rouseListener : s.rouseListener.abandoned = s.abandoned := by
  unfold rouseListener
  split <;> rfl

theorem abandoned_openGate : s.openGate.abandoned = s.abandoned := by
  have hguests : s.openGate.room.guests = s.room.guests := congrArg Ledger.guests s.ledger_openGate
  unfold abandoned
  rw [hguests]
  unfold openGate
  split <;> rfl

theorem abandoned_handle (event : JobRemoved) : (s.handle event).abandoned = s.abandoned := by
  obtain ⟨waits, hwaits⟩ := s.handle_eq event
  rw [hwaits]
  exact abandoned_openGate _

theorem abandoned_emitSignals (signals : List Signal) :
    (s.emitSignals signals).abandoned = s.abandoned := by
  unfold emitSignals
  split <;> rfl

theorem abandoned_requestStop : s.requestStop.abandoned = s.abandoned := by
  unfold requestStop
  split
  · rfl
  · exact abandoned_rouseListener _

theorem abandoned_stopIfAbandoned : s.stopIfAbandoned.abandoned = s.abandoned := by
  unfold stopIfAbandoned
  split
  · exact abandoned_requestStop s
  · rfl

theorem stopping_requestStop : s.requestStop.stopping = true := by
  unfold requestStop
  split
  · assumption
  · exact stopping_rouseListener _

end

/-! ## What an act does about it -/

/-- Pump and listener are asked to stop only when nobody needs them, and are asked then. -/
structure Minds (s s' : Dispatcher) : Prop where
  stopping : s'.stopping = true → s.stopping = true ∨ s'.abandoned = true
  abandoned : s'.abandoned = true → s.abandoned = true ∨ s'.stopping = true

namespace Minds

theorem of_abandoned (hs : s'.stopping = s.stopping)
    (ha : s'.abandoned = true → s.abandoned = true) : Minds s s' :=
  ⟨fun h => .inl (hs ▸ h), fun h => .inl (ha h)⟩

@[refl] theorem refl (s : Dispatcher) : Minds s s :=
  of_abandoned rfl id

/-- Whoever ends with a look at who is left minds that. -/
theorem stopIfAbandoned (hs : s'.stopping = s.stopping) : Minds s s'.stopIfAbandoned := by
  unfold Dispatcher.stopIfAbandoned
  split
  · rename_i ha
    exact ⟨fun _ => .inr (s'.abandoned_requestStop ▸ ha), fun _ => .inr s'.stopping_requestStop⟩
  · rename_i ha
    exact ⟨fun h => .inl (hs ▸ h), fun h => absurd h ha⟩

end Minds

theorem not_abandoned_of_underWay (hu : s.underWay ≠ none) : s.abandoned = false :=
  Bool.eq_false_iff.2 fun ha => abandoned_iff.1 ha (.inr (.inr (.inr (.inl hu))))

theorem not_abandoned_of_call {call : Call} (hc : .call call ∈ s.room.guests) :
    s.abandoned = false :=
  Bool.eq_false_iff.2 fun ha => abandoned_iff.1 ha (.inr (.inr (.inr (.inr ⟨call, hc⟩))))

/-- The listener does not count when it leaves the waiting room. -/
theorem abandoned_leave_listener (s : Dispatcher) :
    ({ s with room := s.room.leave .listener } : Dispatcher).abandoned = s.abandoned := by
  have hall : (s.room.leave .listener).guests.all (· = .listener) =
      s.room.guests.all (· = .listener) := by
    rw [s.room.guests_leave]
    by_cases h : .listener ∈ s.room.guests
    · rw [(List.perm_cons_erase h).all_eq]
      simp
    · rw [List.erase_of_not_mem h]
  simp only [abandoned, hall]

/-- A call that finds the table closed leaves the waiting room; one that is issued is under way. -/
theorem issue_minds (s s' : Dispatcher) (hs : s'.stopping = s.stopping) (call : Call) :
    Minds s (s'.issue call) := by
  unfold issue
  split
  · exact .stopIfAbandoned ((stopping_openGate _).trans hs)
  · refine .of_abandoned ((stopping_emitSignals ..).trans hs) fun ha => ?_
    rw [abandoned_emitSignals, not_abandoned_of_underWay (Option.some_ne_none _)] at ha
    cases ha

theorem takeUp_minds (call : Call) : Minds s (s.takeUp call) :=
  takeUp_cases (motive := Minds s) s call (fun _ _ => .stopIfAbandoned (stopping_openGate _))
    fun _ _ _ => .stopIfAbandoned ((stopping_keepHandle ..).trans (stopping_openGate _))

theorem move?_minds {now : Nat} {actor : Actor} (hm : s.move? now actor = some s') :
    Minds s s' := by
  cases actor with
  | pump =>
    obtain ⟨feed, -, rfl⟩ := Option.map_eq_some_iff.1 hm
    refine .of_abandoned (stopping_rouseListener _) fun ha => ?_
    rw [abandoned_rouseListener] at ha
    exact ha
  | listener =>
    cases moveListener?_cases hm with
    | skip | stop => exact .of_abandoned rfl id
    | take =>
      refine .of_abandoned (stopping_handle _) fun ha => ?_
      rw [abandoned_handle] at ha
      exact ha
    | sit hl hu =>
      refine .of_abandoned rfl fun ha => absurd ha (Bool.eq_false_iff.1 ?_)
      exact not_abandoned_of_underWay hu
    | rise =>
      refine .of_abandoned (stopping_handle _) fun ha => ?_
      rw [abandoned_handle, abandoned_leave_listener] at ha
      exact ha
  | call number =>
    cases moveCall?_cases hm with
    | takeUp => exact takeUp_minds _
    | @issue call => exact issue_minds s { s with room := s.room.leave (.call call) } rfl call
  | wait ticket =>
    obtain ⟨w, -, -, outcome, -, rfl⟩ := moveWait?_cases hm
    exact .of_abandoned rfl id

theorem room_guests_pause (s : Dispatcher) (actor : Actor) :
    (s.pause actor).room.guests = s.room.guests := by
  simp only [pause]
  split
  · exact s.room.guests_uncall _
  · rfl

theorem abandoned_pause (s : Dispatcher) (actor : Actor) :
    (s.pause actor).abandoned = s.abandoned := by
  rw [abandoned, abandoned, room_guests_pause]
  rfl

/-- A call of the interface, a move or the end of a turn minds who is left. -/
theorem act_minds {x : Act} (hx : x ≠ .requestStop) : Minds s (s.act x) := by
  cases x with
  | start label request before held reply =>
    cases request with
    | error e => exact .of_abandoned rfl id
    | ok request =>
      refine .of_abandoned rfl fun ha => absurd ha (Bool.eq_false_iff.1 ?_)
      exact not_abandoned_of_call (s.room.mem_guests_enter.2 (.inl rfl))
  | kill label request held fail =>
    cases request with
    | error e => exact .of_abandoned rfl id
    | ok request =>
      cases held with
      | false => exact .of_abandoned rfl id
      | true =>
        refine .of_abandoned rfl fun ha => absurd (.inr (.inr (.inl ?_))) (abandoned_iff.1 ha)
        exact List.append_ne_nil_of_right_ne_nil _ (List.cons_ne_nil _ _)
  | release label =>
    show Minds s (s.release label).2
    generalize hr : (s.release label).2 = s'
    cases release_cases hr with
    | answer =>
      exact .of_abandoned rfl fun ha => absurd ha (Bool.eq_false_iff.1
        (not_abandoned_of_underWay (Option.some_ne_none _)))
    | kill => exact .stopIfAbandoned rfl
    | missing => exact .refl s
  | wait clock label limit =>
    show Minds s (s.wait clock label limit).2
    generalize hw : (s.wait clock label limit).2 = s'
    cases wait_cases hw with
    | missing => exact .refl s
    | refuse | enter => exact .of_abandoned rfl id
  | drop label =>
    show Minds s (s.drop label).2
    generalize hd : (s.drop label).2 = s'
    cases drop_cases hd with
    | handle | wait => exact .of_abandoned rfl id
    | underWay => exact .stopIfAbandoned (stopping_openGate _)
    | seat => exact .stopIfAbandoned (stopping_giveUpSeat ..)
    | kill => exact .stopIfAbandoned rfl
    | missing => exact .refl s
  | emit signals =>
    exact .of_abandoned (s.stopping_emitSignals signals) fun ha =>
      (s.abandoned_emitSignals signals).symm.trans ha
  | requestStop => exact absurd rfl hx
  | addHolder label access =>
    refine .of_abandoned rfl fun ha => absurd (.inl fun hn => ?_) (abandoned_iff.1 ha)
    have hmem : (label, access) ∈ s.holders.set label access :=
      (Labelled.set_perm ..).mem_iff.2 List.mem_cons_self
    rw [show s.holders.set label access = [] from hn] at hmem
    cases hmem
  | dropHolder | withGuests => exact .stopIfAbandoned rfl
  | disconnect | alarm | clear => exact .of_abandoned rfl id
  | move now actor =>
    show Minds s ((s.move? now actor).getD s)
    cases hm : s.move? now actor with
    | none => exact .refl s
    | some s' => exact move?_minds hm
  | pause actor =>
    exact .of_abandoned rfl fun ha => (s.abandoned_pause actor).symm.trans ha

/-- Pump and listener have been asked to stop when nobody needs them. -/
def Heeded (s : Dispatcher) : Prop :=
  s.abandoned = true → s.stopping = true

theorem heeded_act (h : s.Heeded) (x : Act) : (s.act x).Heeded := fun ha => by
  by_cases hx : x = .requestStop
  · rw [hx]
    exact s.stopping_requestStop
  · exact ((act_minds hx).abandoned ha).elim (fun ha' => s.stopping_act x (h ha')) id

/-! ## Those who go on by themselves -/

theorem guests_move? {now : Nat} {actor : Actor} (hm : s.move? now actor = some s') :
    s'.guests = s.guests := by
  cases actor with
  | pump =>
    obtain ⟨feed, -, rfl⟩ := Option.map_eq_some_iff.1 hm
    exact guests_rouseListener _
  | listener =>
    cases moveListener?_cases hm with
    | skip | sit | stop => rfl
    | take | rise => exact guests_handle _ _
  | call number =>
    cases moveCall?_cases hm with
    | takeUp =>
      refine takeUp_cases (motive := fun s' => s'.guests = s.guests) s _ (fun e _ => ?fail)
        fun path _ _ => ?register
      case fail =>
        simp only [failCall, guests_stopIfAbandoned, guests_openGate]
        rfl
      case register =>
        simp only [registerCall, guests_stopIfAbandoned]
        show (keepHandle _ _ _).guests = _
        simp only [guests_keepHandle, guests_openGate]
        rfl
    | issue =>
      unfold issue
      split
      · simp only [guests_stopIfAbandoned, guests_openGate]
        rfl
      · exact guests_emitSignals _ _
  | wait ticket =>
    obtain ⟨w, -, -, outcome, -, rfl⟩ := moveWait?_cases hm
    rfl

/-- Where nobody needs the listener those who go on by themselves do not come to need it. -/
theorem abandoned_move? {now : Nat} {actor : Actor} (ha : s.abandoned = true)
    (hm : s.move? now actor = some s') : s'.abandoned = true := by
  have hn := abandoned_iff.1 ha
  cases actor with
  | pump =>
    obtain ⟨feed, -, rfl⟩ := Option.map_eq_some_iff.1 hm
    exact (abandoned_rouseListener _).trans ha
  | listener =>
    cases moveListener?_cases hm with
    | skip | stop => exact ha
    | take => exact (abandoned_handle ..).trans ha
    | sit hl hu => exact absurd (.inr (.inr (.inr (.inl hu)))) hn
    | rise => exact (abandoned_handle ..).trans (s.abandoned_leave_listener.trans ha)
  | call number =>
    cases moveCall?_cases hm with
    | takeUp hu => exact absurd (.inr (.inr (.inr (.inl (by simp [hu]))))) hn
    | @issue call _ hc =>
      exact absurd (.inr (.inr (.inr (.inr ⟨call, (mem_of_seatedCall? hc).1⟩)))) hn
  | wait ticket =>
    obtain ⟨w, -, -, outcome, -, rfl⟩ := moveWait?_cases hm
    exact ha

/-- Those who go on by themselves begin nothing that needs the listener, and mind who is left. -/
structure Coasts (s s' : Dispatcher) : Prop extends Minds s s' where
  guests : s'.guests = s.guests
  stays_abandoned : s.abandoned = true → s'.abandoned = true
  stays_stopping : s.stopping = true → s'.stopping = true

namespace Coasts

@[refl] theorem refl (s : Dispatcher) : Coasts s s :=
  ⟨.refl s, rfl, id, id⟩

theorem trans {s'' : Dispatcher} (h : Coasts s s') (h' : Coasts s' s'') : Coasts s s'' where
  stopping hs := (h'.stopping hs).elim (fun hs => (h.stopping hs).imp_right h'.stays_abandoned) .inr
  abandoned ha :=
    (h'.abandoned ha).elim (fun ha => (h.abandoned ha).imp_right h'.stays_stopping) .inr
  guests := h'.guests.trans h.guests
  stays_abandoned := h'.stays_abandoned ∘ h.stays_abandoned
  stays_stopping := h'.stays_stopping ∘ h.stays_stopping

theorem heeded (h : Coasts s s') (hs : s.Heeded) : s'.Heeded := fun ha =>
  (h.abandoned ha).elim (fun ha => h.stays_stopping (hs ha)) id

end Coasts

theorem step?_coasts {now : Nat} (h : s.step? now = some s') : Coasts s s' := by
  obtain ⟨actor, -, ⟨hm, hact⟩ | ⟨-, rfl⟩⟩ := step?_cases h
  · exact ⟨move?_minds hm, guests_move? hm, fun ha => abandoned_move? ha hm,
      fun hs => hact ▸ s.stopping_act _ hs⟩
  · refine ⟨.of_abandoned rfl fun ha => ?_, rfl, fun ha => ?_, fun hs => hs⟩
    · exact (s.abandoned_pause actor).symm.trans ha
    · exact (s.abandoned_pause actor).trans ha

theorem steps_coasts (now n : Nat) (s : Dispatcher) : Coasts s (steps now n s) := by
  induction n generalizing s with
  | zero => exact .refl s
  | succ n ih =>
    unfold steps
    split
    · exact .refl s
    · rename_i s' hs
      exact (step?_coasts hs).trans (ih s')

theorem settle_coasts (now : Nat) (s : Dispatcher) : Coasts s (s.settle now) :=
  steps_coasts now _ s

/-- Callers of jobs have nothing to do with calls of other kinds. -/
theorem guests_act {x : Act} (hx : x.isCall = true) (hg : ∀ guests, x ≠ .withGuests guests) :
    (s.act x).guests = s.guests := by
  cases x with
  | start label request before held reply => cases request <;> rfl
  | kill label request held fail => cases request <;> cases held <;> rfl
  | release label =>
    show (s.release label).2.guests = _
    generalize hr : (s.release label).2 = s'
    cases release_cases hr with
    | answer | missing => rfl
    | kill => exact guests_stopIfAbandoned _
  | wait clock label limit =>
    show (s.wait clock label limit).2.guests = _
    generalize hw : (s.wait clock label limit).2 = s'
    cases wait_cases hw <;> rfl
  | drop label =>
    show (s.drop label).2.guests = _
    generalize hd : (s.drop label).2 = s'
    cases drop_cases hd with
    | handle | wait | missing => rfl
    | underWay => exact (guests_stopIfAbandoned _).trans (guests_openGate _)
    | seat => exact (guests_stopIfAbandoned _).trans (guests_giveUpSeat ..)
    | kill => exact guests_stopIfAbandoned _
  | emit signals => exact s.guests_emitSignals signals
  | requestStop => exact s.guests_requestStop
  | dropHolder label => exact guests_stopIfAbandoned _
  | withGuests guests => exact absurd rfl (hg guests)
  | disconnect | addHolder | clear => rfl
  | alarm | move | pause => cases hx

/-! ## The end of the stream -/

/-- Whether the stream of signals has ended. -/
def isCut (s : Dispatcher) : Bool :=
  s.feed.ended

theorem isCut_of_core (h : s'.core = s.core) : s'.isCut = s.isCut :=
  congrArg (·.feed.ended) h

@[simp] theorem isCut_emitSignals (s : Dispatcher) (signals : List Signal) :
    (s.emitSignals signals).isCut = s.isCut := by
  have hemit : (s.feed.emit signals).ended = s.feed.ended := by
    unfold Feed.emit
    split <;> rfl
  exact (congrArg (·.feed.ended) (s.core_emitSignals signals)).trans hemit

theorem isCut_fail (s : Dispatcher) (label : String) (e : Error) :
    ((s.note label (.failed e)).openGate.stopIfAbandoned).isCut = s.isCut :=
  isCut_of_core ((core_stopIfAbandoned _).trans (core_openGate (s.note label (.failed e))))

theorem isCut_move? {now : Nat} {actor : Actor} (hm : s.move? now actor = some s') :
    s'.isCut = s.isCut := by
  have htake : ∀ {signal : Signal} {feed : Feed}, s.feed.take? = some (signal, feed) →
      feed.ended = s.feed.ended := by
    intro signal feed ht
    unfold Feed.take? at ht
    split at ht <;> cases ht
    rfl
  cases actor with
  | pump =>
    obtain ⟨feed, hf, rfl⟩ := Option.map_eq_some_iff.1 hm
    refine (congrArg (·.feed.ended) (core_rouseListener { s with feed })).trans ?_
    obtain ⟨-, hp⟩ := Feed.pump?_cases hf
    cases hp <;> rfl
  | listener =>
    cases moveListener?_cases hm with
    | skip hl ht | sit hl hu ht => exact htake ht
    | take hl hu ht =>
      refine (congrArg (·.feed.ended) (core_handle _)).trans ?_
      exact htake ht
    | rise => exact congrArg (·.feed.ended) (core_handle _)
    | stop => rfl
  | call number =>
    cases moveCall?_cases hm with
    | takeUp =>
      refine takeUp_cases (motive := fun s' => s'.isCut = s.isCut) s _
        (fun e _ => isCut_fail _ _ _) fun path _ _ => ?_
      refine (isCut_of_core (core_stopIfAbandoned _)).trans ?_
      exact (congrArg (·.feed.ended) (keepHandle_core ..)).trans
        (congrArg (·.feed.ended) (core_openGate _))
    | issue =>
      unfold issue
      split
      · exact isCut_fail _ _ _
      · exact isCut_emitSignals _ _
  | wait ticket =>
    obtain ⟨w, -, -, outcome, -, rfl⟩ := moveWait?_cases hm
    rfl

/-- Only the manager ends the stream. -/
theorem isCut_act {x : Act} (hx : x ≠ .disconnect) : (s.act x).isCut = s.isCut := by
  cases x with
  | start label request before held reply => cases request <;> rfl
  | kill label request held fail => cases request <;> cases held <;> rfl
  | release label =>
    show (s.release label).2.isCut = _
    generalize hr : (s.release label).2 = s'
    cases release_cases hr with
    | answer | missing => rfl
    | kill => exact isCut_of_core (core_stopIfAbandoned _)
  | wait clock label limit =>
    show (s.wait clock label limit).2.isCut = _
    generalize hw : (s.wait clock label limit).2 = s'
    cases wait_cases hw <;> rfl
  | drop label =>
    show (s.drop label).2.isCut = _
    generalize hd : (s.drop label).2 = s'
    cases drop_cases hd with
    | handle | wait | missing => rfl
    | underWay =>
      refine (isCut_of_core (core_stopIfAbandoned _)).trans ?_
      exact (isCut_of_core (core_openGate _)).trans rfl
    | seat => exact isCut_of_core ((core_stopIfAbandoned _).trans (core_giveUpSeat s _))
    | kill => exact isCut_of_core (core_stopIfAbandoned _)
  | emit signals => exact s.isCut_emitSignals signals
  | disconnect => exact absurd rfl hx
  | requestStop => exact isCut_of_core s.core_requestStop
  | dropHolder | withGuests => exact isCut_of_core (core_stopIfAbandoned _)
  | addHolder | alarm | pause | clear => rfl
  | move now actor =>
    show ((s.move? now actor).getD s).isCut = _
    cases hm : s.move? now actor with
    | none => rfl
    | some s' => exact isCut_move? hm

theorem isCut_of_act {x : Act} (hs : s.isCut = true) : (s.act x).isCut = true := by
  by_cases hx : x = .disconnect
  · rw [hx]
    rfl
  · rw [isCut_act hx, hs]

end SystemdControl.Dispatcher
