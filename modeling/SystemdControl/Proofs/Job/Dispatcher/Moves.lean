import SystemdControl.Proofs.Job.Dispatcher.Attended
import SystemdControl.Proofs.Job.Dispatcher.Drain

/-!
# Moves, case by case

What a move is when it is known who can make it and why.

* `Dispatcher.movePump?_forward` and `Dispatcher.movePump?_finish`: the pump;
* `Dispatcher.takeSignal` and `Dispatcher.moveListener?_take`: a listener that has signals, and
  `Dispatcher.moveListener?_rise` and `Dispatcher.moveListener?_stop`: one that waits for the gate or
  has to end;
* `Dispatcher.moveCall?_of_free` and `Dispatcher.moveCall?_of_taken`: a call;
* `Dispatcher.takeUp_keeps` and its kin: what of this leaves listener and feed alone.
-/

namespace SystemdControl

/-- The pump moves the next signal. -/
def Feed.forward (f : Feed) (signal : Signal) (rest : List Signal) : Feed :=
  { f with stream := rest, queue := f.queue ++ [signal] }

namespace Dispatcher

variable {s s' : Dispatcher}

theorem rouseListener_of_ready (hl : s.listener = .ready) :
    s.rouseListener = s.rouse .listener := by
  unfold rouseListener
  split
  · rfl
  · rename_i hne
    exact absurd hl hne

theorem rouseListener_of_not_ready (hl : s.listener ≠ .ready) : s.rouseListener = s := by
  unfold rouseListener
  split
  · rename_i hready
    exact absurd hready hl
  · rfl

theorem moveCall?_of_free (hu : s.underWay = none) (number : Nat) :
    s.moveCall? number = (s.seatedCall? number).map fun call =>
      ({ s with room := s.room.leave (.call call) } : Dispatcher).issue call := by
  unfold moveCall?
  split
  · rename_i hu'
    rw [hu] at hu'
    cases hu'
  · rfl

theorem moveCall?_of_taken {call : Call} {answered : Bool} (hu : s.underWay = some ⟨call, answered⟩)
    (number : Nat) : s.moveCall? number =
      if call.number = number && answered then some (s.takeUp call) else none := by
  unfold moveCall?
  split
  · rename_i hu'
    rw [hu] at hu'
    cases hu'
    rfl
  · rename_i hu'
    rw [hu] at hu'
    cases hu'

theorem movePump?_forward (hp : s.feed.pumping = true) (hl : s.listener ≠ .stopped)
    {signal : Signal} {rest : List Signal} (hs : s.feed.stream = signal :: rest)
    (hq : s.feed.queue.length < s.feed.size) :
    s.movePump? =
      some ({ s with feed := s.feed.forward signal rest } : Dispatcher).rouseListener := by
  simp [movePump?, Feed.pump?, Feed.forward, hp, hl, hs, hq]

theorem movePump?_finish (hp : s.feed.pumping = true) (hs : s.feed.stream = [])
    (he : s.feed.ended = true ∨ s.stopping = true) :
    s.movePump? =
      some ({ s with feed := { s.feed with pumping := false } } : Dispatcher).rouseListener := by
  simp [movePump?, Feed.pump?, hp, hs, he]

/-- The listener takes a signal. -/
def takeSignal (s : Dispatcher) (signal : Signal) (rest : List Signal) : Dispatcher :=
  let s' : Dispatcher := { s with feed := { s.feed with queue := rest } }
  match signal with
  | .undecodable _ => s'
  | .removed event =>
    if s.gateFree then s'.handle event
    else { s' with listener := .seated event, room := s.room.enter .listener false }

theorem moveListener?_take (hl : s.listener = .ready) {signal : Signal} {rest : List Signal}
    (hq : s.feed.queue = signal :: rest) : s.moveListener? = some (s.takeSignal signal rest) := by
  have htake : s.feed.take? = some (signal, { s.feed with queue := rest }) := by
    rw [Feed.take?, hq]
  unfold moveListener? takeSignal
  split
  · rw [htake]
    cases signal with
    | undecodable => rfl
    | removed event =>
      dsimp only
      split <;> rfl
  · rename_i hseated
    cases hl.symm.trans hseated
  · rename_i hstopped
    cases hl.symm.trans hstopped

theorem moveListener?_stop (hl : s.listener = .ready) (hq : s.feed.queue = []) :
    s.moveListener? =
      if s.stopping = true ∨ s.feed.pumping = false then some s.stopListener else none := by
  have htake : s.feed.take? = none := by rw [Feed.take?, hq]
  unfold moveListener?
  split
  · rw [htake]
    simp only [Bool.or_eq_true, Bool.not_eq_true']
  · rename_i hseated
    cases hl.symm.trans hseated
  · rename_i hstopped
    cases hl.symm.trans hstopped

theorem moveListener?_rise {event : JobRemoved} (hl : s.listener = .seated event) :
    s.moveListener? = if s.gateFree then
      some (({ s with room := s.room.leave .listener } : Dispatcher).handle event) else none := by
  unfold moveListener?
  split
  · rename_i hready
    exact nomatch hl.symm.trans hready
  · rename_i event' hseated
    cases hl.symm.trans hseated
    rfl
  · rename_i hstopped
    exact nomatch hl.symm.trans hstopped

/-! ## What leaves listener and feed alone -/

theorem keeps_of_core (h : s'.core = s.core) :
    s'.listener = s.listener ∧ s'.feed = s.feed :=
  ⟨congrArg Core.listener h, congrArg Core.feed h⟩

theorem fail_keeps (s : Dispatcher) (label : String) (e : Error) :
    (((s.note label (.failed e)).openGate).stopIfAbandoned).listener = s.listener ∧
      (((s.note label (.failed e)).openGate).stopIfAbandoned).feed = s.feed :=
  keeps_of_core ((core_stopIfAbandoned _).trans (core_openGate _))

theorem takeUp_keeps (s : Dispatcher) (call : Call) :
    (s.takeUp call).listener = s.listener ∧ (s.takeUp call).feed = s.feed := by
  refine takeUp_cases (motive := fun s' => s'.listener = s.listener ∧ s'.feed = s.feed) s call
    (fun e _ => fail_keeps { s with underWay := none, numbered := (s.answer call.reply).2 } _ e)
    fun path _ _ => ?_
  let free : Dispatcher := { s with
    underWay := none
    numbered := (s.answer call.reply).2
    table := (s.table.register path).2 }
  let handle : JobHandle := ⟨call.request.unit, ⟨path, s.table.registered⟩⟩
  obtain ⟨hl, hf⟩ := keeps_of_core (s := free) ((core_openGate _).trans (core_rouseDecided free))
  let kept := free.rouseDecided.openGate.keepHandle call.label handle
  have hkept : kept.listener = free.listener ∧ kept.feed = free.feed := by
    show (Dispatcher.keepHandle _ _ _).listener = _ ∧ (Dispatcher.keepHandle _ _ _).feed = _
    unfold keepHandle
    split <;> exact ⟨hl, hf⟩
  obtain ⟨hl', hf'⟩ := keeps_of_core (s := kept) (core_stopIfAbandoned (kept.note call.label
    (.started handle)))
  exact ⟨hl'.trans hkept.1, hf'.trans hkept.2⟩

theorem feed_handle (s : Dispatcher) (event : JobRemoved) : (s.handle event).feed = s.feed :=
  congrArg Core.feed (core_handle event)

/-- The listener goes on after it has taken a signal. -/
theorem takeSignal_keeps (s : Dispatcher) (hl : s.listener ≠ .stopped) (signal : Signal)
    (rest : List Signal) : (s.takeSignal signal rest).listener ≠ .stopped ∧
      (s.takeSignal signal rest).feed = { s.feed with queue := rest } ∧
      (s.takeSignal signal rest).stopping = s.stopping := by
  unfold takeSignal
  cases signal with
  | undecodable => exact ⟨hl, rfl, rfl⟩
  | removed event =>
    dsimp only
    split
    · refine ⟨?_, feed_handle _ event, stopping_handle event⟩
      rw [listener_handle]
      exact nofun
    · exact ⟨nofun, rfl, rfl⟩

theorem emitSignals_keeps (s : Dispatcher) (signals : List Signal) :
    (s.emitSignals signals).listener = s.listener ∧
      (s.emitSignals signals).feed = s.feed.emit signals :=
  have hcore := s.core_emitSignals signals
  ⟨congrArg Core.listener hcore, congrArg Core.feed hcore⟩

/-! ## Calls of the interface -/

theorem feed_of_core (h : s'.core = s.core) : s'.feed = s.feed :=
  congrArg Core.feed h

/-- Only signals that enter the stream, and its end, change the feed. -/
theorem feed_act {x : Act} (hx : x.isCall = true) (he : ∀ signals, x ≠ .emit signals)
    (hd : x ≠ .disconnect) : (s.act x).feed = s.feed := by
  cases x with
  | start => exact feed_of_core (start_core ..)
  | kill => exact feed_of_core (kill_core ..)
  | release label =>
    show (s.release label).2.feed = s.feed
    generalize hr : (s.release label).2 = s'
    cases release_cases hr with
    | answer | missing => rfl
    | kill =>
      exact feed_of_core (s := { s with kills := s.kills.remove label }) (core_stopIfAbandoned _)
  | wait now label limit =>
    show (s.wait now label limit).2.feed = s.feed
    generalize hw : (s.wait now label limit).2 = s'
    cases wait_cases hw <;> rfl
  | drop label =>
    show (s.drop label).2.feed = s.feed
    generalize hd : (s.drop label).2 = s'
    cases drop_cases hd with
    | handle | wait | missing => rfl
    | underWay =>
      exact feed_of_core (s := { s with underWay := none })
        ((core_stopIfAbandoned _).trans (core_openGate _))
    | seat => exact feed_of_core ((core_stopIfAbandoned _).trans (core_giveUpSeat ..))
    | kill =>
      exact feed_of_core (s := { s with kills := s.kills.remove label }) (core_stopIfAbandoned _)
  | emit signals => exact absurd rfl (he signals)
  | disconnect => exact absurd rfl hd
  | requestStop => exact feed_of_core (core_requestStop s)
  | dropHolder label =>
    exact feed_of_core (s := { s with holders := s.holders.remove label }) (core_stopIfAbandoned _)
  | withGuests guests => exact feed_of_core (s := { s with guests }) (core_stopIfAbandoned _)
  | addHolder | clear => rfl
  | alarm | move | pause => cases hx

end Dispatcher

end SystemdControl
