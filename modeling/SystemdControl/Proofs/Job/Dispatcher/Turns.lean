import SystemdControl.Proofs.Agenda
import SystemdControl.Proofs.Job.Dispatcher.Effects

/-!
# Turns

Whoever moves goes on until it cannot, and only then does another move. Calls of the interface may
come at any time. Who is next is not said here; in a session it is whoever is first on the agenda.

* `Dispatcher.inTurn` says of a run that it is like that;
* `Dispatcher.Rouses`: an act only adds to the end of the agenda, unless a turn is over
  (`Dispatcher.act_rouses`). So whoever is first stays first until its turn is over, and the moves
  of a session keep to turns (`Dispatcher.steps_inTurn`).
-/

namespace SystemdControl

namespace Dispatcher

/-- Whose turn it is after an act. -/
def Act.turn (last : Option Actor) : Act → Option Actor
  | move _ actor => some actor
  | pause _ => none
  | _ => last

/-- Whether an act keeps to the turns. A turn is over when the one whose turn it is cannot go on;
time does not matter for that, because what cannot go on now could not have gone on earlier. -/
def onTurn (s : Dispatcher) (turn : Option Actor) : Act → Bool
  | .move _ actor => turn.all (· = actor)
  | .pause actor => turn.all (· = actor) && (s.move? 0 actor).isNone
  | _ => true

/-- Whether all acts of a run keep to the turns. -/
def inTurn (s : Dispatcher) (turn : Option Actor) : List Act → Bool
  | [] => true
  | x :: xs => s.onTurn turn x && (s.act x).inTurn (x.turn turn) xs

/-- Who is on the agenda stays there, and who is new comes last. -/
def Rouses (s s' : Dispatcher) : Prop :=
  s.agenda.toList <+: s'.agenda.toList

namespace Rouses

variable {s s' s'' : Dispatcher}

@[refl] theorem refl (s : Dispatcher) : Rouses s s :=
  List.prefix_refl _

theorem trans (h : Rouses s s') (h' : Rouses s' s'') : Rouses s s'' :=
  List.IsPrefix.trans h h'

theorem next? (h : Rouses s s') {actor : Actor} (hn : s.agenda.next? = some actor) :
    s'.agenda.next? = some actor := by
  obtain ⟨rest, hrest⟩ := h
  rw [Agenda.next?, ← hrest, List.head?_append]
  rw [Agenda.next?] at hn
  rw [hn]
  rfl

end Rouses

section

variable (s : Dispatcher)

theorem rouses_note (label : String) (event : JobEvent) : Rouses s (s.note label event) :=
  .refl s

theorem rouses_rouse (actor : Actor) : Rouses s (s.rouse actor) :=
  Agenda.toList_prefix_rouse actor

theorem rouses_rouseWaits (waits : List Wait) : Rouses s (s.rouseWaits waits) :=
  s.agenda.toList_prefix_rouseAll _

theorem rouses_rouseListener : Rouses s s.rouseListener := by
  unfold rouseListener
  split
  · exact s.rouses_rouse .listener
  · exact .refl s

theorem rouses_rouseDecided : Rouses s s.rouseDecided :=
  s.rouses_rouseWaits _

theorem rouses_openGate : Rouses s s.openGate := by
  unfold openGate
  split
  · exact rouses_rouse _ _
  · exact .refl s

theorem rouses_giveUpSeat (party : Party) : Rouses s (s.giveUpSeat party) := by
  unfold giveUpSeat
  split
  · exact rouses_openGate { s with room := s.room.leave party }
  · exact .refl s

theorem rouses_requestStop : Rouses s s.requestStop := by
  unfold requestStop
  split
  · exact .refl s
  · exact (rouses_rouse { s with stopping := true } .pump).trans (rouses_rouseListener _)

theorem rouses_stopIfAbandoned : Rouses s s.stopIfAbandoned := by
  unfold stopIfAbandoned
  split
  · exact rouses_requestStop s
  · exact .refl s

theorem rouses_emitSignals (signals : List Signal) : Rouses s (s.emitSignals signals) := by
  unfold emitSignals
  split
  · exact .refl s
  · exact rouses_rouse { s with feed := s.feed.emit signals } .pump

theorem rouses_keepHandle (label : String) (handle : JobHandle) :
    Rouses s (s.keepHandle label handle) := by
  unfold keepHandle
  split <;> exact .refl s

theorem rouses_handle (event : JobRemoved) : Rouses s (s.handle event) := by
  obtain ⟨waits, hwaits⟩ := s.handle_eq event
  rw [hwaits]
  exact (rouses_rouseWaits { s with
    table := (s.table.resolve event.jobPath event.result).2
    listener := .ready } waits).trans (rouses_openGate _)

theorem rouses_stopListener : Rouses s s.stopListener :=
  rouses_rouseDecided { s with listener := .stopped, table := s.table.close }

theorem rouses_issue (call : Call) : Rouses s (s.issue call) := by
  unfold issue
  split
  · exact (rouses_openGate (s.note call.label _)).trans (rouses_stopIfAbandoned _)
  · exact rouses_emitSignals { s with
      sent := s.sent ++ [ManagerCall.job call.request]
      underWay := some ⟨call, !call.held⟩ } _

theorem rouses_takeUp (call : Call) : Rouses s (s.takeUp call) := by
  refine takeUp_cases (motive := Rouses s) s call (fun e _ => ?fail) fun path _ _ => ?register
  case fail =>
    exact (rouses_openGate ({ s with underWay := none, numbered := (s.answer call.reply).2 }.note
      call.label (.failed e))).trans (rouses_stopIfAbandoned _)
  case register =>
    have hroused := (rouses_rouseDecided { s with
      underWay := none
      numbered := (s.answer call.reply).2
      table := (s.table.register path).2 }).trans (rouses_openGate _)
    have hkept := hroused.trans
      (rouses_keepHandle _ call.label ⟨call.request.unit, ⟨path, s.table.registered⟩⟩)
    exact (hkept.trans (rouses_note ..)).trans (rouses_stopIfAbandoned _)

end

variable {s : Dispatcher}

theorem rouses_move? {now : Nat} {actor : Actor} {s' : Dispatcher}
    (h : s.move? now actor = some s') : Rouses s s' := by
  cases actor with
  | pump =>
    obtain ⟨feed, -, rfl⟩ := Option.map_eq_some_iff.1 h
    exact rouses_rouseListener { s with feed }
  | listener =>
    cases moveListener?_cases h with
    | skip | sit => exact .refl s
    | @take event feed => exact rouses_handle { s with feed } event
    | @rise event => exact rouses_handle { s with room := s.room.leave .listener } event
    | stop => exact s.rouses_stopListener
  | call number =>
    cases moveCall?_cases h with
    | takeUp => exact s.rouses_takeUp _
    | @issue call => exact rouses_issue { s with room := s.room.leave (.call call) } call
  | wait ticket =>
    obtain ⟨w, -, -, outcome, -, rfl⟩ := moveWait?_cases h
    exact .refl s

/-- Only the end of a turn takes somebody from the agenda. -/
theorem act_rouses {x : Act} (hx : ∀ actor, x ≠ .pause actor) : Rouses s (s.act x) := by
  cases x with
  | start label request before held reply =>
    cases request with
    | error e => exact .refl s
    | ok request =>
      exact rouses_rouse { s with
        begun := s.begun + 1
        room := s.room.enter (.call ⟨s.begun, label, request, before, held, reply⟩) true } _
  | kill label request held fail =>
    cases request with
    | error e => exact .refl s
    | ok request => cases held <;> exact .refl s
  | release label =>
    show Rouses s (s.release label).2
    generalize hr : (s.release label).2 = s'
    cases release_cases hr with
    | @answer call =>
      exact rouses_rouse { s with underWay := some ⟨call, true⟩ } (.call call.number)
    | @kill fail =>
      exact rouses_stopIfAbandoned
        ({ s with kills := s.kills.remove label }.note label (killEvent fail))
    | missing => exact .refl s
  | wait now label limit =>
    show Rouses s (s.wait now label limit).2
    generalize hw : (s.wait now label limit).2 = s'
    cases wait_cases hw with
    | missing | refuse => exact .refl s
    | @enter handle =>
      exact rouses_rouse { s with
        handles := s.handles.remove label
        waits := s.waits ++ [⟨label, handle.ticket, limit.map fun d => ⟨d, now + d.toNanos⟩⟩] }
        (.wait handle.ticket)
  | drop label =>
    show Rouses s (s.drop label).2
    generalize hd : (s.drop label).2 = s'
    cases drop_cases hd with
    | handle | wait | missing => exact .refl s
    | underWay =>
      exact (rouses_openGate { s with underWay := none }).trans (rouses_stopIfAbandoned _)
    | seat => exact (s.rouses_giveUpSeat _).trans (rouses_stopIfAbandoned _)
    | kill => exact rouses_stopIfAbandoned { s with kills := s.kills.remove label }
  | emit signals => exact s.rouses_emitSignals signals
  | disconnect => exact rouses_rouse { s with feed := s.feed.finish } .pump
  | requestStop => exact s.rouses_requestStop
  | dropHolder label =>
    exact rouses_stopIfAbandoned { s with holders := s.holders.remove label }
  | withGuests guests => exact rouses_stopIfAbandoned { s with guests }
  | alarm now => exact s.rouses_rouseWaits _
  | move now actor =>
    rw [act]
    cases h : s.move? now actor with
    | none => exact .refl s
    | some s' => exact rouses_move? h
  | pause actor => exact absurd rfl (hx actor)
  | addHolder | clear => exact .refl s

/-- What cannot go on now could not have gone on earlier. -/
theorem move?_eq_none_of_le {now earlier : Nat} (hle : earlier ≤ now) {actor : Actor}
    (h : s.move? now actor = none) : s.move? earlier actor = none := by
  cases actor with
  | pump | listener | call => exact h
  | wait ticket =>
    rw [move?, moveWait?, Option.bind_eq_none_iff] at h ⊢
    intro w hw
    have hv := Option.map_eq_none_iff.1 (h w hw)
    rw [Option.map_eq_none_iff]
    unfold verdict? at hv ⊢
    split at hv
    · cases hv
    · split at hv
      · cases hv
      · rename_i hlate
        rw [if_neg fun hm => hlate (Nat.le_trans hm hle)]
    · rfl

/-- The turn of someone goes on with an act that keeps to it, or is over because it cannot go on. -/
theorem turn_of_onTurn {x : Act} {actor : Actor} (h : s.onTurn (some actor) x = true) :
    x.turn (some actor) = some actor ∨ x = .pause actor ∧ s.move? 0 actor = none := by
  cases x with
  | move now other => exact .inl (congrArg some (of_decide_eq_true h).symm)
  | pause other =>
    obtain ⟨ho, hm⟩ := Bool.and_eq_true_iff.1 h
    obtain rfl : actor = other := of_decide_eq_true ho
    exact .inr ⟨rfl, Option.isNone_iff_eq_none.1 hm⟩
  | _ => exact .inl rfl

/-- The moves of a session keep to turns. -/
theorem steps_inTurn (now n : Nat) (s : Dispatcher) (turn : Option Actor)
    (ht : ∀ actor, turn = some actor → s.agenda.next? = some actor) :
    ∃ ys, steps now n s = ys.foldl act s ∧ s.inTurn turn ys = true := by
  induction n generalizing s turn with
  | zero => exact ⟨[], rfl, rfl⟩
  | succ n ih =>
    rw [steps, step?]
    cases hnext : s.agenda.next? with
    | none => exact ⟨[], rfl, rfl⟩
    | some actor =>
      have hturn : turn.all (· = actor) = true := by
        rw [Option.all_eq_true]
        intro other ho
        exact decide_eq_true (Option.some.inj ((ht other ho).symm.trans hnext))
      rw [Option.map_some]
      cases hm : s.move? now actor with
      | none =>
        have hone : s.onTurn turn (.pause actor) = true :=
          Bool.and_eq_true_iff.2 ⟨hturn, by rw [move?_eq_none_of_le (Nat.zero_le now) hm]; rfl⟩
        obtain ⟨ys, hys, hin⟩ := ih (s.pause actor) none fun _ h => by cases h
        exact ⟨.pause actor :: ys, hys, Bool.and_eq_true_iff.2 ⟨hone, hin⟩⟩
      | some s' =>
        have hact : s.act (.move now actor) = s' := by rw [act, hm, Option.getD_some]
        have hrouses : Rouses s s' := rouses_move? hm
        obtain ⟨ys, hys, hin⟩ := ih s' (some actor) fun _ h => h ▸ hrouses.next? hnext
        refine ⟨.move now actor :: ys, ?_, Bool.and_eq_true_iff.2 ⟨hturn, ?_⟩⟩
        · rw [Option.getD_some, List.foldl_cons, hact]
          exact hys
        · rw [hact]
          exact hin

end Dispatcher

end SystemdControl
