import SystemdControl.Proofs.Job.Closing
import SystemdControl.Proofs.Job.Dispatcher.Answers
import SystemdControl.Proofs.Job.Dispatcher.Steady
import SystemdControl.Proofs.Job.Dispatcher.Timeout

/-!
# How waits come to an end

A wait goes on until it is answered or its caller abandons it. Once the table is closed nobody is
entered any more and no result is handed over, so every wait can be answered, with what was in its
inbox or because the listener has stopped.

* `Dispatcher.parting`: what can become of a wait in an act, and `Dispatcher.parting_after` in a run;
* `Dispatcher.last_word_after`: what a wait is answered in a closed table.
-/

namespace SystemdControl

/-! ## In an act -/

namespace Dispatcher

variable {s s' : Dispatcher} {w : Wait}

theorem waits_keepHandle (s : Dispatcher) (label : String) (handle : JobHandle) :
    (s.keepHandle label handle).waits = s.waits := by
  unfold keepHandle
  split <;> rfl

/-- Only waits themselves end a wait by a move. -/
theorem waits_move? {now : Nat} {actor : Actor} (ha : ∀ ticket, actor ≠ .wait ticket)
    (hm : s.move? now actor = some s') : s'.waits = s.waits := by
  have hfail : ∀ (s : Dispatcher) (label : String) (e : Error),
      ((s.note label (.failed e)).openGate.stopIfAbandoned).waits = s.waits := fun s label e =>
    congrArg Core.waits ((core_stopIfAbandoned _).trans (core_openGate (s.note label (.failed e))))
  cases actor with
  | pump =>
    obtain ⟨feed, -, rfl⟩ := Option.map_eq_some_iff.1 hm
    exact congrArg Core.waits (core_rouseListener _)
  | listener =>
    cases moveListener?_cases hm with
    | skip | sit | stop => rfl
    | take | rise => exact congrArg Core.waits (core_handle _)
  | call number =>
    cases moveCall?_cases hm with
    | takeUp =>
      refine takeUp_cases (motive := fun s' => s'.waits = s.waits) s _
        (fun e _ => hfail _ _ _) fun path _ _ => ?_
      exact (congrArg Core.waits (core_stopIfAbandoned _)).trans
        ((waits_keepHandle ..).trans (congrArg Core.waits (core_openGate _)))
    | issue =>
      unfold issue
      split
      · exact hfail _ _ _
      · exact congrArg Core.waits (core_emitSignals _ _)
  | wait ticket => exact absurd rfl (ha ticket)

/-- What is abandoned under a label is one wait of that label, or none. -/
theorem waits_drop {label : String} (hw : w ∈ s.waits) (hl : w.label ≠ label) :
    w ∈ (s.drop label).2.waits := by
  have hcore : ∀ {t : Dispatcher}, t.core = s.core → w ∈ t.waits := fun {t} h => by
    show w ∈ t.core.waits
    rw [h]
    exact hw
  generalize hd : (s.drop label).2 = s'
  cases drop_cases hd with
  | handle | missing => exact hw
  | underWay =>
    rw [show ∀ s : Dispatcher, s.openGate.stopIfAbandoned.waits = s.waits from fun s =>
      congrArg Core.waits ((core_stopIfAbandoned _).trans s.core_openGate)]
    exact hw
  | seat => exact hcore ((core_stopIfAbandoned _).trans (s.core_giveUpSeat _))
  | kill => exact hcore (core_stopIfAbandoned _)
  | wait _ hlabel =>
    refine (List.mem_erase_of_ne ?_).2 hw
    rintro rfl
    exact hl hlabel

/-- What can become of a wait in an act, unless its caller abandons it: it goes on, or it ends with
its verdict. -/
inductive Parting (s : Dispatcher) (w : Wait) (x : Act) : Prop
  | stay (hw : w ∈ (s.act x).waits)
  | told {now : Nat} {outcome : Except Error JobResult} (hv : s.verdict? now w = some outcome)
    (he : (s.act x).events = s.events ++ [(w.label, .finished outcome)])

theorem parting (hw : w ∈ s.waits) {x : Act} (hx : x ≠ .drop w.label) : s.Parting w x := by
  have hkeep : ∀ {s' : Dispatcher}, s'.waits = s.waits → w ∈ s'.waits := fun h => by
    rw [h]
    exact hw
  cases x with
  | start label request before held reply => exact .stay (by cases request <;> exact hw)
  | kill label request held fail => exact .stay (by cases request <;> cases held <;> exact hw)
  | release label =>
    refine .stay ?_
    show w ∈ (s.release label).2.waits
    generalize hr : (s.release label).2 = s'
    cases release_cases hr with
    | answer | missing => exact hw
    | kill => exact hkeep (congrArg Core.waits (core_stopIfAbandoned _))
  | wait clock label limit =>
    refine .stay ?_
    show w ∈ (s.wait clock label limit).2.waits
    generalize hs : (s.wait clock label limit).2 = s'
    cases wait_cases hs with
    | missing | refuse => exact hw
    | enter => exact List.mem_append_left _ hw
  | drop label => exact .stay (waits_drop hw fun hl => hx (congrArg Act.drop hl.symm))
  | emit signals =>
    exact .stay (hkeep (congrArg Core.waits (s.core_emitSignals signals)))
  | requestStop => exact .stay (hkeep (congrArg Core.waits s.core_requestStop))
  | dropHolder | withGuests =>
    exact .stay (hkeep (congrArg Core.waits (core_stopIfAbandoned _)))
  | disconnect | addHolder | alarm | pause | clear => exact .stay hw
  | move now actor =>
    cases hm : s.move? now actor with
    | none => exact .stay (by rw [act, hm]; exact hw)
    | some s' =>
      have hact : s.act (.move now actor) = s' := by rw [act, hm, Option.getD_some]
      by_cases ha : ∃ ticket, actor = .wait ticket
      · obtain ⟨ticket, rfl⟩ := ha
        obtain ⟨v, -, -, outcome, hverdict, rfl⟩ := moveWait?_cases hm
        by_cases hne : w = v
        · subst hne
          exact .told hverdict (by rw [hact]; rfl)
        · exact .stay (hact ▸ (List.mem_erase_of_ne hne).2 hw)
      · exact .stay (by rw [hact, waits_move? (fun ticket he => ha ⟨ticket, he⟩) hm]; exact hw)

/-- Only a result that was delivered is told. -/
theorem inbox_of_verdict? {now : Nat} {result : JobResult}
    (h : s.verdict? now w = some (.ok result)) :
    (s.table.waiter? w.ticket).bind (·.inbox) = some result := by
  unfold verdict? at h
  split at h
  · rename_i outcome _ ho
    rw [Option.some.inj h, JobTable.outcome?] at ho
    split at ho
    · rename_i hinbox
      cases ho
      exact hinbox
    · split at ho <;> cases ho
  · split at h <;> cases h
  · cases h

/-- A wait in a run in which its caller does not abandon it and nothing is forgotten. What it is
told is an error, or the result that was delivered to it. -/
theorem parting_after (hw : w ∈ s.waits) {xs : List Act} (hx : ∀ x ∈ xs, x ≠ .drop w.label)
    (hc : .clear ∉ xs) :
    w ∈ (xs.foldl act s).waits ∨
      ∃ outcome, (w.label, .finished outcome) ∈ (xs.foldl act s).events ∧
        ∀ result, outcome = .ok result → ∃ ys, ys <+: xs ∧
          ((ys.foldl act s).table.waiter? w.ticket).bind (·.inbox) = some result := by
  induction xs generalizing s with
  | nil => exact .inl hw
  | cons x xs ih =>
    rw [List.mem_cons, not_or] at hc
    cases parting hw (hx x List.mem_cons_self) with
    | stay hw' =>
      refine (ih hw' (fun y hy => hx y (List.mem_cons_of_mem _ hy)) hc.2).imp_right ?_
      rintro ⟨outcome, he, hok⟩
      refine ⟨outcome, he, fun result hr => ?_⟩
      obtain ⟨ys, hys, hinbox⟩ := hok result hr
      exact ⟨x :: ys, List.cons_prefix_cons.2 ⟨rfl, hys⟩, hinbox⟩
    | @told now outcome hv he =>
      refine .inr ⟨outcome, (events_grow hc.2 (s.act x)).subset ?_, ?_⟩
      · rw [he]
        exact List.mem_append_right _ (List.mem_singleton_self _)
      · rintro result rfl
        exact ⟨[], List.nil_prefix, inbox_of_verdict? hv⟩

/-- A wait with a limit of no time is answered at once, and any other begins. -/
theorem wait_told_or_begun {label : String} {handle : JobHandle}
    (hg : s.handles.get? label = some handle) (now : Nat) (limit : Option Duration) :
    (limit.any (·.isZero) = true ∧ (s.act (.wait now label limit)).events =
      s.events ++ [(label, .finished (.error (.invalidInput .timeoutZero)))]) ∨
    (¬ limit.any (·.isZero) = true ∧ ∃ w : Wait, w.label = label ∧ w.ticket = handle.ticket ∧
      w ∈ (s.act (.wait now label limit)).waits ∧
      (s.act (.wait now label limit)).table = s.table) := by
  rw [act]
  generalize hs : (s.wait now label limit).2 = s'
  cases wait_cases hs with
  | missing hnone => cases hg.symm.trans hnone
  | refuse _ hz => exact .inl ⟨hz, rfl⟩
  | enter hg' hz =>
    cases hg.symm.trans hg'
    exact .inr ⟨Bool.eq_false_iff.1 hz, _, rfl, rfl,
      List.mem_append_right _ (List.mem_singleton_self _), rfl⟩

/-! ## In a closed table -/

/-- What is in the inbox of someone who waits stays there once the table is closed. -/
theorem waiter?_act (h : JobTable.Holds s.table s.core.tickets) (hc : s.table.closed = true)
    (hw : w ∈ s.waits) {x : Act} (hw' : w ∈ (s.act x).waits) :
    (s.act x).table.waiter? w.ticket = s.table.waiter? w.ticket := by
  have hnodup := h.perm.nodup_iff.2 h.nodup
  have hmem : w.ticket ∈ s.core.waits.map (·.ticket) := List.mem_map_of_mem hw
  have heffect := s.act_effect x
  generalize hcore : (s.act x).core = c at heffect
  show (s.act x).core.table.waiter? w.ticket = _
  replace hw' : w ∈ c.waits := hcore ▸ hw'
  rw [hcore]
  have hresolve : ∀ path result, (s.table.resolve path result).2 = s.table := fun path result => by
    simp [JobTable.resolve, hc]
  cases heffect with
  | register _ _ _ _ ho | issue _ _ _ ho =>
    rw [show s.core.table.closed = true from hc] at ho
    cases ho
  | @discard label handle hg =>
    refine JobTable.waiter?_drop_of_ne s.table fun he => ?_
    obtain ⟨e, hfind, rfl⟩ := Option.map_eq_some_iff.1 hg
    exact (List.nodup_append.1 hnodup).2.2 _
      (List.mem_map_of_mem (List.mem_of_find?_eq_some hfind)) _ hmem he.symm
  | @leave v hv =>
    refine JobTable.waiter?_drop_of_ne s.table fun he => ?_
    have hwv : w = v := List.inj_on_of_nodup_map (nodup_waits h) hw hv he
    subst hwv
    exact ((nodup_waits h).of_map _).not_mem_erase hw'
  | take | rise => exact congrArg (JobTable.waiter? · w.ticket) (hresolve _ _)
  | _ => rfl

/-- In a closed table a wait is answered with its last word. -/
theorem last_word_after (h : JobTable.Holds s.table s.core.tickets)
    (hclosed : s.table.closed = true) (hw : w ∈ s.waits) {xs : List Act}
    (hx : ∀ x ∈ xs, x ≠ .drop w.label) (hc : .clear ∉ xs) :
    w ∈ (xs.foldl act s).waits ∨
      (w.label, .finished (lastWord w.ticket ((s.table.waiter? w.ticket).bind (·.inbox)))) ∈
        (xs.foldl act s).events := by
  induction xs generalizing s with
  | nil => exact .inl hw
  | cons x xs ih =>
    rw [List.mem_cons, not_or] at hc
    cases parting hw (hx x List.mem_cons_self) with
    | stay hw' =>
      have hrest := ih (holds_act h x) ((s.act_effect x).stays_closed hclosed) hw'
        (fun y hy => hx y (List.mem_cons_of_mem _ hy)) hc.2
      rwa [waiter?_act h hclosed hw hw'] at hrest
    | told hv he =>
      rw [verdict?, h.toTidy.outcome?_of_closed hclosed] at hv
      cases hv
      refine .inr ((events_grow hc.2 (s.act x)).subset ?_)
      rw [he]
      exact List.mem_append_right _ (List.mem_singleton_self _)

end Dispatcher

end SystemdControl
