import SystemdControl.Proofs.Job.Dispatcher.Effects
import SystemdControl.Proofs.Text.Labelled

/-!
# Deadlines that nobody looks at

Before the end of its time nothing depends on the deadline of a wait: two dispatchers that differ
in that deadline alone go on differing in it alone, whatever is done. Only the order in which those
are roused who can go on may differ as well, and acts do not look at that.

* `Dispatcher.Alike` are two such states; every function of the dispatcher keeps states alike, one
  lemma a function;
* `Dispatcher.Expires` is a move of the wait at the end of its time or later;
* `Dispatcher.Alike.act`: any other act keeps states alike.
-/

namespace SystemdControl

/-- A wait without its deadline, if it is for a given registration. -/
def Wait.unlimited (ticket : Ticket) (w : Wait) : Wait :=
  if w.ticket = ticket then { w with deadline := none } else w

namespace Wait

variable {ticket : Ticket} {w w' : Wait}

@[simp] theorem label_unlimited (ticket : Ticket) (w : Wait) :
    (w.unlimited ticket).label = w.label := by
  unfold unlimited
  split <;> rfl

@[simp] theorem ticket_unlimited (ticket : Ticket) (w : Wait) :
    (w.unlimited ticket).ticket = w.ticket := by
  unfold unlimited
  split <;> rfl

theorem unlimited_of_ne (h : w.ticket ≠ ticket) : w.unlimited ticket = w :=
  if_neg h

end Wait

namespace Dispatcher

/-- Two states that differ in nothing but the agenda and the deadline of the wait for a
registration. -/
def Alike (ticket : Ticket) (s s' : Dispatcher) : Prop :=
  ∃ waits agenda, s' = { s with waits, agenda } ∧
    waits.map (·.unlimited ticket) = s.waits.map (·.unlimited ticket)

variable {s s' : Dispatcher} {ticket : Ticket}

/-- Before the end of its time a wait goes by the table alone. -/
theorem verdict?_of_not_over {now : Nat} {w : Wait} (h : w.isOver now = false) :
    s.verdict? now w = s.table.outcome? w.ticket := by
  unfold verdict?
  cases ho : s.table.outcome? w.ticket with
  | some outcome => rfl
  | none =>
    cases hd : w.deadline with
    | none => rfl
    | some d =>
      rw [Wait.isOver, hd, Option.any_some, decide_eq_false_iff_not] at h
      exact if_neg h

namespace Alike

theorem rouseWaits (h : Alike ticket s s') (ws ws' : List Wait) :
    Alike ticket (s.rouseWaits ws) (s'.rouseWaits ws') := by
  obtain ⟨waits, agenda, rfl, hw⟩ := h
  exact ⟨waits, _, rfl, hw⟩

theorem rouseDecided (h : Alike ticket s s') : Alike ticket s.rouseDecided s'.rouseDecided :=
  h.rouseWaits _ _

theorem rouseAnswered (h : Alike ticket s s') (r : Resolution) :
    Alike ticket (s.rouseAnswered r) (s'.rouseAnswered r) := by
  cases r with
  | delivered => exact h.rouseDecided
  | _ => exact h

theorem rouseListener (h : Alike ticket s s') : Alike ticket s.rouseListener s'.rouseListener := by
  obtain ⟨waits, agenda, rfl, hw⟩ := h
  unfold Dispatcher.rouseListener
  dsimp only
  split
  · exact ⟨waits, _, rfl, hw⟩
  · exact ⟨waits, _, rfl, hw⟩

theorem withTable (h : Alike ticket s s') (t : JobTable) :
    Alike ticket { s with table := t } { s' with table := t } := by
  obtain ⟨waits, agenda, rfl, hw⟩ := h
  exact ⟨waits, agenda, rfl, hw⟩

theorem note (h : Alike ticket s s') (label : String) (event : JobEvent) :
    Alike ticket (s.note label event) (s'.note label event) := by
  obtain ⟨waits, agenda, rfl, hw⟩ := h
  exact ⟨waits, agenda, rfl, hw⟩

theorem openGate (h : Alike ticket s s') : Alike ticket s.openGate s'.openGate := by
  obtain ⟨waits, agenda, rfl, hw⟩ := h
  unfold Dispatcher.openGate
  dsimp only
  split
  · exact ⟨waits, _, rfl, hw⟩
  · exact ⟨waits, _, rfl, hw⟩

theorem giveUpSeat (h : Alike ticket s s') (party : Party) :
    Alike ticket (s.giveUpSeat party) (s'.giveUpSeat party) := by
  obtain ⟨waits, agenda, rfl, hw⟩ := h
  unfold Dispatcher.giveUpSeat
  dsimp only
  split
  · exact openGate ⟨waits, agenda, rfl, hw⟩
  · exact ⟨waits, agenda, rfl, hw⟩

theorem emitSignals (h : Alike ticket s s') (signals : List Signal) :
    Alike ticket (s.emitSignals signals) (s'.emitSignals signals) := by
  obtain ⟨waits, agenda, rfl, hw⟩ := h
  unfold Dispatcher.emitSignals
  dsimp only
  split
  · exact ⟨waits, agenda, rfl, hw⟩
  · exact ⟨waits, _, rfl, hw⟩

theorem requestStop (h : Alike ticket s s') : Alike ticket s.requestStop s'.requestStop := by
  obtain ⟨waits, agenda, rfl, hw⟩ := h
  unfold Dispatcher.requestStop
  dsimp only
  split
  · exact ⟨waits, agenda, rfl, hw⟩
  · exact rouseListener ⟨waits, _, rfl, hw⟩

theorem stopIfAbandoned (h : Alike ticket s s') :
    Alike ticket s.stopIfAbandoned s'.stopIfAbandoned := by
  have hsame : s'.abandoned = s.abandoned := by
    obtain ⟨waits, agenda, rfl, -⟩ := h
    rfl
  rw [Dispatcher.stopIfAbandoned, Dispatcher.stopIfAbandoned, hsame]
  split
  · exact h.requestStop
  · exact h

theorem keepHandle (h : Alike ticket s s') (label : String) (handle : JobHandle) :
    Alike ticket (s.keepHandle label handle) (s'.keepHandle label handle) := by
  obtain ⟨waits, agenda, rfl, hw⟩ := h
  unfold Dispatcher.keepHandle
  dsimp only
  split
  · exact ⟨waits, agenda, rfl, hw⟩
  · exact ⟨waits, agenda, rfl, hw⟩

/-! ### Moves -/

theorem movePump? (h : Alike ticket s s') :
    Option.Rel (Alike ticket) s.movePump? s'.movePump? := by
  obtain ⟨waits, agenda, rfl, hw⟩ := h
  unfold Dispatcher.movePump?
  dsimp only
  cases s.feed.pump? s.stopping (s.listener ≠ .stopped) with
  | none => exact .none
  | some feed => exact .some (rouseListener ⟨waits, agenda, rfl, hw⟩)

theorem handle (h : Alike ticket s s') (event : JobRemoved) :
    Alike ticket (s.handle event) (s'.handle event) := by
  obtain ⟨waits, agenda, rfl, hw⟩ := h
  refine openGate (rouseAnswered ?_ _)
  exact ⟨waits, agenda, rfl, hw⟩

theorem moveListener? (h : Alike ticket s s') :
    Option.Rel (Alike ticket) s.moveListener? s'.moveListener? := by
  obtain ⟨waits, agenda, rfl, hw⟩ := h
  unfold Dispatcher.moveListener? gateFree
  dsimp only
  split
  · split
    · exact .some ⟨waits, agenda, rfl, hw⟩
    · split
      · refine .some (handle ?_ _)
        exact ⟨waits, agenda, rfl, hw⟩
      · exact .some ⟨waits, agenda, rfl, hw⟩
    · split
      · refine .some (rouseDecided ?_)
        exact ⟨waits, agenda, rfl, hw⟩
      · exact .none
  · split
    · refine .some (handle ?_ _)
      exact ⟨waits, agenda, rfl, hw⟩
    · exact .none
  · exact .none

theorem issue (h : Alike ticket s s') (call : Call) :
    Alike ticket (s.issue call) (s'.issue call) := by
  obtain ⟨waits, agenda, rfl, hw⟩ := h
  unfold Dispatcher.issue
  dsimp only
  split
  · refine stopIfAbandoned (openGate ?_)
    exact ⟨waits, agenda, rfl, hw⟩
  · refine emitSignals ?_ _
    exact ⟨waits, agenda, rfl, hw⟩

theorem takeUp (h : Alike ticket s s') (call : Call) :
    Alike ticket (s.takeUp call) (s'.takeUp call) := by
  obtain ⟨waits, agenda, rfl, hw⟩ := h
  unfold Dispatcher.takeUp
  rw [show ({ s with waits, agenda } : Dispatcher).answer call.reply = s.answer call.reply by
    cases call.reply <;> rfl]
  generalize s.answer call.reply = r
  obtain ⟨reply, numbered⟩ := r
  dsimp only
  split
  · refine stopIfAbandoned (openGate ?_)
    exact ⟨waits, agenda, rfl, hw⟩
  · refine stopIfAbandoned (note (keepHandle (openGate (rouseDecided ?_)) _ _) _ _)
    exact ⟨waits, agenda, rfl, hw⟩

theorem moveCall? (h : Alike ticket s s') (number : Nat) :
    Option.Rel (Alike ticket) (s.moveCall? number) (s'.moveCall? number) := by
  have hseat : s'.seatedCall? number = s.seatedCall? number := by
    obtain ⟨waits, agenda, rfl, -⟩ := h
    rfl
  have hunder : s'.underWay = s.underWay := by
    obtain ⟨waits, agenda, rfl, -⟩ := h
    rfl
  unfold Dispatcher.moveCall?
  rw [hunder, hseat]
  split
  · split
    · exact .some (h.takeUp _)
    · exact .none
  · cases s.seatedCall? number with
    | none => exact .none
    | some call =>
      obtain ⟨waits, agenda, rfl, hw⟩ := h
      refine .some (issue ?_ call)
      exact ⟨waits, agenda, rfl, hw⟩

/-- A wait that is found is found in both states, and goes away from both. -/
theorem find?_cases (h : Alike ticket s s') {p : Wait → Bool}
    (hp : ∀ w : Wait, p (w.unlimited ticket) = p w) :
    s.waits.find? p = none ∧ s'.waits.find? p = none ∨
      ∃ w w', s.waits.find? p = some w ∧ s'.waits.find? p = some w' ∧
        w.unlimited ticket = w'.unlimited ticket ∧
        Alike ticket { s with waits := s.waits.erase w }
          { s' with waits := s'.waits.erase w' } := by
  obtain ⟨waits, agenda, rfl, hw⟩ := h
  have hmap : (waits.find? p).map (·.unlimited ticket) =
      (s.waits.find? p).map (·.unlimited ticket) := by
    have hfind : ∀ l : List Wait, (l.find? p).map (·.unlimited ticket) =
        (l.map (·.unlimited ticket)).find? p := fun l => by
      rw [List.find?_map, show p ∘ (·.unlimited ticket) = p from funext hp]
    rw [hfind, hfind, hw]
  cases hs : s.waits.find? p with
  | none =>
    rw [hs] at hmap
    exact .inl ⟨rfl, Option.map_eq_none_iff.1 hmap⟩
  | some w =>
    rw [hs] at hmap
    obtain ⟨w', hs', hww⟩ := Option.map_eq_some_iff.1 hmap
    refine .inr ⟨w, w', rfl, hs', hww.symm, waits.erase w', agenda, rfl, ?_⟩
    rw [map_erase_of_find? (fun w _ => hp w) hs', map_erase_of_find? (fun w _ => hp w) hs, hw, hww]

theorem table (h : Alike ticket s s') : s'.table = s.table := by
  obtain ⟨waits, agenda, rfl, -⟩ := h
  rfl

theorem moveWait? (h : Alike ticket s s') (now : Nat) (other : Ticket)
    (ho : ∀ w ∈ s.waits, w.ticket = other → other = ticket → w.isOver now = false)
    (ho' : ∀ w ∈ s'.waits, w.ticket = other → other = ticket → w.isOver now = false) :
    Option.Rel (Alike ticket) (s.moveWait? now other) (s'.moveWait? now other) := by
  unfold Dispatcher.moveWait?
  rcases h.find?_cases (p := (·.ticket = other)) (by simp) with
    ⟨hs, hs'⟩ | ⟨w, w', hs, hs', hww, herase⟩
  · rw [hs, hs']
    exact .none
  · have ht : w.ticket = other := by simpa using List.find?_some hs
    have ht' : w'.ticket = other := by simpa using List.find?_some hs'
    have hverdict : s'.verdict? now w' = s.verdict? now w := by
      by_cases he : other = ticket
      · rw [verdict?_of_not_over (ho w (List.mem_of_find?_eq_some hs) ht he),
          verdict?_of_not_over (ho' w' (List.mem_of_find?_eq_some hs') ht' he), h.table, ht, ht']
      · rw [Wait.unlimited_of_ne (ht ▸ he), Wait.unlimited_of_ne (ht' ▸ he)] at hww
        rw [hww, Dispatcher.verdict?, Dispatcher.verdict?, h.table]
    have hlabel : w'.label = w.label := by
      rw [← w.label_unlimited ticket, hww, w'.label_unlimited]
    rw [hs, hs', Option.bind_some, Option.bind_some, hverdict, ht, ht', hlabel]
    cases s.verdict? now w with
    | none => exact .none
    | some outcome =>
      refine .some (note ?_ _ _)
      rw [h.table]
      exact herase.withTable _

theorem move? (h : Alike ticket s s') (now : Nat) (actor : Actor)
    (ho : ∀ w ∈ s.waits, actor = .wait ticket → w.ticket = ticket → w.isOver now = false)
    (ho' : ∀ w ∈ s'.waits, actor = .wait ticket → w.ticket = ticket → w.isOver now = false) :
    Option.Rel (Alike ticket) (s.move? now actor) (s'.move? now actor) := by
  cases actor with
  | pump => exact h.movePump?
  | listener => exact h.moveListener?
  | call number => exact h.moveCall? number
  | wait other =>
    refine h.moveWait? now other (fun w hw ht he => ?_) fun w hw ht he => ?_
    · exact ho w hw (he ▸ rfl) (ht.trans he)
    · exact ho' w hw (he ▸ rfl) (ht.trans he)

/-! ### Calls of the interface -/

theorem start (h : Alike ticket s s') (label : String) (request : Except Error JobRequest)
    (before : List Signal) (held : Bool) (reply : Reply) :
    Alike ticket (s.start label request before held reply)
      (s'.start label request before held reply) := by
  obtain ⟨waits, agenda, rfl, hw⟩ := h
  cases request with
  | error e => exact ⟨waits, agenda, rfl, hw⟩
  | ok request => exact ⟨waits, _, rfl, hw⟩

theorem kill (h : Alike ticket s s') (label : String) (request : Except Error KillRequest)
    (held : Bool) (fail : Option Error) :
    Alike ticket (s.kill label request held fail) (s'.kill label request held fail) := by
  obtain ⟨waits, agenda, rfl, hw⟩ := h
  cases request with
  | error e => exact ⟨waits, agenda, rfl, hw⟩
  | ok request => cases held <;> exact ⟨waits, agenda, rfl, hw⟩

theorem releaseKill (h : Alike ticket s s') (label : String) :
    Alike ticket (s.releaseKill label).2 (s'.releaseKill label).2 := by
  obtain ⟨waits, agenda, rfl, hw⟩ := h
  unfold Dispatcher.releaseKill
  dsimp only
  split
  · refine stopIfAbandoned (note ?_ _ _)
    exact ⟨waits, agenda, rfl, hw⟩
  · exact ⟨waits, agenda, rfl, hw⟩

theorem release (h : Alike ticket s s') (label : String) :
    Alike ticket (s.release label).2 (s'.release label).2 := by
  obtain ⟨waits, agenda, rfl, hw⟩ := h
  unfold Dispatcher.release
  dsimp only
  split
  · split
    · exact ⟨waits, _, rfl, hw⟩
    · refine releaseKill ?_ label
      exact ⟨waits, agenda, rfl, hw⟩
  · refine releaseKill ?_ label
    exact ⟨waits, agenda, rfl, hw⟩

theorem wait (h : Alike ticket s s') (now : Nat) (label : String) (limit : Option Duration) :
    Alike ticket (s.wait now label limit).2 (s'.wait now label limit).2 := by
  obtain ⟨waits, agenda, rfl, hw⟩ := h
  have happend : ∀ w : Wait, (waits ++ [w]).map (·.unlimited ticket) =
      (s.waits ++ [w]).map (·.unlimited ticket) := fun w => by
    rw [List.map_append, List.map_append, hw]
  unfold Dispatcher.wait
  dsimp only
  split
  · exact ⟨waits, agenda, rfl, hw⟩
  · split
    · exact ⟨_, _, rfl, happend _⟩
    · split
      · exact ⟨waits, agenda, rfl, hw⟩
      · exact ⟨_, _, rfl, happend _⟩

theorem dropTask? (h : Alike ticket s s') (label : String) :
    Option.Rel (Alike ticket) (s.dropTask? label) (s'.dropTask? label) := by
  have hfind := h.find?_cases (p := (·.label = label)) (by simp)
  have htable := h.table
  obtain ⟨waits, agenda, rfl, hw⟩ := h
  unfold Dispatcher.dropTask?
  dsimp only
  split
  · refine .some (stopIfAbandoned (openGate ?_))
    exact ⟨waits, agenda, rfl, hw⟩
  · split
    · refine .some (stopIfAbandoned (giveUpSeat ?_ _))
      exact ⟨waits, agenda, rfl, hw⟩
    · split
      · refine .some (stopIfAbandoned ?_)
        exact ⟨waits, agenda, rfl, hw⟩
      · rcases hfind with ⟨hs, hs'⟩ | ⟨w, w', hs, hs', hww, herase⟩
        · rw [hs, hs']
          exact .none
        · have ht : w'.ticket = w.ticket := by
            rw [← w.ticket_unlimited ticket, hww, w'.ticket_unlimited]
          rw [hs, hs', Option.map_some, Option.map_some, ht]
          exact .some (herase.withTable _)

theorem drop (h : Alike ticket s s') (label : String) :
    Alike ticket (s.drop label).2 (s'.drop label).2 := by
  have htask := h.dropTask? label
  unfold Dispatcher.drop
  have hhandles : s'.handles = s.handles := by
    obtain ⟨waits, agenda, rfl, -⟩ := h
    rfl
  rw [hhandles]
  split
  · obtain ⟨waits, agenda, rfl, hw⟩ := h
    exact ⟨waits, agenda, rfl, hw⟩
  · generalize s.dropTask? label = o at htask
    generalize s'.dropTask? label = o' at htask
    cases htask with
    | none => exact h
    | some htask => exact htask

end Alike

/-- A move of a wait for a registration at the end of its time or later. -/
def Expires (s : Dispatcher) (ticket : Ticket) (x : Act) : Prop :=
  ∃ now, x = .move now (.wait ticket) ∧ ∃ w ∈ s.waits, w.ticket = ticket ∧ w.isOver now = true

theorem Alike.act (h : Alike ticket s s') {x : Act} (hx : ¬ s.Expires ticket x)
    (hx' : ¬ s'.Expires ticket x) : Alike ticket (s.act x) (s'.act x) := by
  cases x with
  | start label request before held reply => exact h.start label request before held reply
  | kill label request held fail => exact h.kill label request held fail
  | release label => exact h.release label
  | wait now label limit => exact h.wait now label limit
  | drop label => exact h.drop label
  | emit signals => exact h.emitSignals signals
  | requestStop => exact h.requestStop
  | disconnect =>
    obtain ⟨waits, agenda, rfl, hw⟩ := h
    exact ⟨waits, _, rfl, hw⟩
  | addHolder label access =>
    obtain ⟨waits, agenda, rfl, hw⟩ := h
    exact ⟨waits, _, rfl, hw⟩
  | dropHolder label =>
    obtain ⟨waits, agenda, rfl, hw⟩ := h
    refine stopIfAbandoned ?_
    exact ⟨waits, agenda, rfl, hw⟩
  | withGuests guests =>
    obtain ⟨waits, agenda, rfl, hw⟩ := h
    refine stopIfAbandoned ?_
    exact ⟨waits, agenda, rfl, hw⟩
  | alarm now => exact h.rouseWaits _ _
  | move now actor =>
    have hover : ∀ {s : Dispatcher}, ¬ s.Expires ticket (.move now actor) → ∀ w ∈ s.waits,
        actor = .wait ticket → w.ticket = ticket → w.isOver now = false := fun hx w hw ha ht =>
      Bool.eq_false_iff.2 fun ho => hx ⟨now, by rw [ha], w, hw, ht, ho⟩
    have hmove := h.move? now actor (hover hx) (hover hx')
    simp only [Dispatcher.act]
    generalize s.move? now actor = o at hmove
    generalize s'.move? now actor = o' at hmove
    cases hmove with
    | none => exact h
    | some hmove => exact hmove
  | pause actor =>
    obtain ⟨waits, agenda, rfl, hw⟩ := h
    exact ⟨waits, _, rfl, hw⟩
  | clear =>
    obtain ⟨waits, agenda, rfl, hw⟩ := h
    exact ⟨waits, agenda, rfl, hw⟩

end Dispatcher

end SystemdControl
