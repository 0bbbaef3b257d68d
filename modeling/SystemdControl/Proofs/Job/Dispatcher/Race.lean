import Mathlib.Data.List.Infix
import SystemdControl.Proofs.Job.Dispatcher.Trail

/-!
# Completions that race the reply

A job may end before the reply that names it. Its signal is not missed then, because nothing is
handled while a call is in flight.

* `Trail.classified_step_of_calling`: what a call in flight keeps the listener from;
* `Trail.Answered`: a call from where it is issued to where its reply is taken up;
* `Trail.resolve_first`: the first signal for the job of such a call is delivered to its waiter;
* `Trail.lost_step` and `Trail.line_eq_nil`: where signals can get lost, and where they cannot stay.

The last theorem of the file puts that together for any run.
-/

namespace SystemdControl

open JobTable

namespace Dispatcher

variable (s : Dispatcher)

/-! ## Events of a taken up reply -/

theorem events_openGate : s.openGate.events = s.events := by
  unfold openGate
  split <;> rfl

theorem events_stopIfAbandoned : s.stopIfAbandoned.events = s.events := by
  unfold stopIfAbandoned requestStop rouseListener
  split
  · split
    · rfl
    · split <;> rfl
  · rfl

theorem events_keepHandle (label : String) (handle : JobHandle) :
    (s.keepHandle label handle).events = s.events := by
  unfold keepHandle
  split <;> rfl

variable {s}

/-- The caller gets a handle of the registration. -/
theorem events_takeUp {call : Call} {path : JobPath} (ho : s.table.closed = false)
    (hp : (s.answer call.reply).1 = .ok path) :
    (s.takeUp call).events = s.events ++
      [(call.label, .started ⟨call.request.unit, ⟨path, s.table.registered⟩⟩)] := by
  rw [takeUp_eq_registerCall ho hp, registerCall, events_stopIfAbandoned, note, events_keepHandle,
    events_openGate]
  rfl

theorem act_move_call (now : Nat) {call : Call} (hu : s.underWay = some ⟨call, true⟩) :
    s.act (.move now (.call call.number)) = s.takeUp call := by
  simp [act, move?, moveCall?, hu]

/-! ## Moves that are possible -/

/-- The pump can go on as long as there is something in the stream. Nobody else matters. -/
theorem isSome_movePump? (hp : s.feed.pumping = true) (hs : s.feed.stream ≠ []) :
    s.movePump?.isSome = true := by
  rw [movePump?, Option.isSome_map, Feed.pump?, if_neg (by simp [hp])]
  cases h : s.feed.stream with
  | nil => exact absurd h hs
  | cons signal rest =>
    dsimp only
    split
    · rfl
    · split <;> rfl

/-- At a free gate a listener with a signal can go on. -/
theorem isSome_moveListener? (hu : s.underWay = none) (hl : s.listener ≠ .stopped)
    (hf : s.core.front ≠ []) : s.moveListener?.isSome = true := by
  have hgate : s.gateFree = true := gateFree_iff.2 hu
  unfold moveListener?
  split
  · rename_i hr
    rw [Core.front_of_ready hr] at hf
    replace hf : s.feed.queue ≠ [] := hf
    cases hq : s.feed.queue with
    | nil => exact absurd hq hf
    | cons signal rest =>
      rw [Feed.take?, hq]
      cases signal <;> simp [hgate]
  · rw [if_pos hgate]
    rfl
  · contradiction

end Dispatcher

namespace Trail

variable {t : Trail} {x : Dispatcher.Act}

/-! ## While a call is in flight -/

/-- The call that is in flight. -/
def calling (t : Trail) : Option Call :=
  t.jobs.underWay.map (·.call)

theorem not_calling (h : t.jobs.core.underWay = none) : ¬ t.calling.isSome := by
  have hu : t.jobs.underWay = none := h
  simp [calling, hu]

/-- The listener handles nothing in an act before or after which a call is in flight. -/
theorem classified?_of_calling (h : t.calling.isSome ∨ (t.step x).calling.isSome) :
    t.jobs.core.classified? (t.jobs.act x).core = none := by
  cases he : t.jobs.core.classified? (t.jobs.act x).core with
  | none => rfl
  | some event =>
    obtain ⟨-, -, ⟨hu, hu'⟩, -⟩ := (t.jobs.act_effect x).classify he
    exact absurd h (not_or.2 ⟨not_calling hu, not_calling (t := t.step x) hu'⟩)

theorem classified_step_of_calling (h : t.calling.isSome ∨ (t.step x).calling.isSome) :
    (t.step x).classified = t.classified :=
  classified_step_of_none (classified?_of_calling h)

/-- The listener keeps the signal that it sits with. -/
theorem seated_step_of_calling (h : t.calling.isSome) {event : JobRemoved}
    (hl : t.jobs.listener = .seated event) : (t.step x).jobs.listener = .seated event :=
  (t.jobs.act_effect x).seated hl fun hu => not_calling hu h

theorem classified_after_of_calling {call : Call} {ys : List Dispatcher.Act}
    (h : ∀ us, us <+: ys → (t.after us).calling = some call) :
    (t.after ys).classified = t.classified := by
  induction ys generalizing t with
  | nil => rfl
  | cons y ys ih =>
    have hnow : t.calling = some call := h [] List.nil_prefix
    have hlater : ∀ us, us <+: ys → ((t.step y).after us).calling = some call :=
      fun us hus => h (y :: us) ((List.prefix_cons_inj y).2 hus)
    show ((t.step y).after ys).classified = t.classified
    rw [ih hlater, classified_step_of_calling (.inl (by rw [hnow]; rfl))]

/-- In a run, a call is issued by an act, stays in flight as long as further acts are done, and is
then about to be registered: the manager has answered it with the path of a job, and the table is
open. -/
structure Answered (t : Trail) (issue : Dispatcher.Act) (flight : List Dispatcher.Act) (call : Call)
    (path : JobPath) : Prop where
  free : t.calling = none
  calling : ∀ us, us <+: flight → ((t.step issue).after us).calling = some call
  answered : ((t.step issue).after flight).jobs.underWay = some ⟨call, true⟩
  closed_eq : ((t.step issue).after flight).jobs.table.closed = false
  answer_eq : (((t.step issue).after flight).jobs.answer call.reply).1 = .ok path

/-- Nothing is handled between the issue of a call and the moment at which its reply is ready. -/
theorem Answered.classified_ready {issue : Dispatcher.Act} {flight : List Dispatcher.Act}
    {call : Call} {path : JobPath} (h : Answered t issue flight call path) :
    ((t.step issue).after flight).classified = t.classified := by
  have hissued : (t.step issue).calling = some call := h.calling [] List.nil_prefix
  rw [classified_after_of_calling h.calling,
    classified_step_of_calling (.inr (by rw [hissued]; rfl))]

/-- A ready reply is taken up: the caller gets a handle, and the registration is made. -/
theorem step_register (h : Sound t) {call : Call} {path : JobPath}
    (hu : t.jobs.underWay = some ⟨call, true⟩) (ho : t.jobs.table.closed = false)
    (hp : (t.jobs.answer call.reply).1 = .ok path) (now : Nat) :
    let handle : JobHandle := ⟨call.request.unit, ⟨path, t.jobs.table.registered⟩⟩
    let t' := t.step (.move now (.call call.number))
    t'.jobs.events = t.jobs.events ++ [(call.label, .started handle)] ∧
      t'.jobs.handles.get? call.label = some handle ∧ .registered handle.ticket ∈ t'.journal := by
  intro handle t'
  have hact := Dispatcher.act_move_call now hu
  have hcore := Dispatcher.takeUp_core ho hp
  rw [← hact] at hcore
  have hget : t'.jobs.handles.get? call.label = some handle := by
    show (t.jobs.act (.move now (.call call.number))).core.handles.get? call.label = _
    rw [hcore]
    exact Labelled.get?_set_self ..
  refine ⟨?_, hget, ?_⟩
  · show (t.jobs.act (.move now (.call call.number))).events = _
    rw [hact, Dispatcher.events_takeUp ho hp]
  · have hmem : handle.ticket ∈ t'.jobs.core.tickets :=
      (Core.handles_perm hget).mem_iff.2 List.mem_cons_self
    have hnew : handle.ticket ∉ t.jobs.table.tickets := h.holds.next_not_mem path
    exact List.mem_append_right _
      (Core.registered_mem_deeds ((h.step _).holds.mem_tickets hmem) hnew)

/-! ## The first signal -/

/-- A signal is the first one for the job of its path, apart from those that had been handled before
and those that were lost. -/
structure IsFirst (before t : Trail) (i : Nat) (event : JobRemoved) : Prop where
  signal_eq : t.emitted[i]? = some (.removed event)
  first : ∀ k < i, ∀ e, t.emitted[k]? = some (.removed e) → e.jobPath = event.jobPath →
    k ∈ before.classified.map (·.1) ∨ (k, .lost) ∈ t.fates

variable {before : Trail} {ticket : Ticket} {i : Nat} {event : JobRemoved}

/-- A registration awaits the first signal for its job as long as that is on its way. -/
theorem awaiting_of_isFirst (h : Sound t) (hg : Grows before t)
    (hnew : .registered ticket ∉ before.journal) (hc : Current Deed.Removes t.journal ticket)
    (hi : i ∈ t.line) (hf : IsFirst before t i event) (hp : event.jobPath = ticket.path) :
    Awaiting Deed.Removes t.journal ticket := by
  obtain ⟨deeds, handled, signals, hj, hh, -, hs⟩ := hg
  rw [hj] at hc ⊢
  refine hc.awaiting hnew fun result hm => ?_
  obtain ⟨⟨k, ρ⟩, hk, e, he, hpe⟩ := hs ticket.path result hm
  -- Such a signal came before this one, so it was handled earlier or lost; but it is neither.
  have hkt : (k, ρ) ∈ t.classified := hh ▸ List.mem_append_right _ hk
  have hseen : k ∈ t.seen :=
    List.mem_map.2 ⟨_, List.mem_filter.2 ⟨mem_classified.1 hkt, rfl⟩, rfl⟩
  have hlt : k < i := (List.pairwise_append.1 h.ascending).2.2 k hseen i hi
  rcases hf.first k hlt e he (hpe.trans hp.symm) with hb | hl
  · have hn := h.nodup_classified
    rw [hh, List.map_append] at hn
    exact (List.nodup_append.1 hn).2.2 k hb k (List.mem_map_of_mem hk) rfl
  · exact absurd (h.fate_eq (mem_classified.1 hkt) hl) (by simp)

/-- The first signal for the job of a registration is delivered, with its result. -/
theorem resolve_first (h : Sound t) (hg : Grows before t)
    (hnew : .registered ticket ∉ before.journal) (hc : Current Deed.Removes t.journal ticket)
    (hf : IsFirst before t i event) (hp : event.jobPath = ticket.path) {ρ : Resolution}
    (hx : (t.step x).classified = t.classified ++ [(i, ρ)]) :
    ρ = .delivered ∧ FirstResult Deed.Removes (t.step x).journal ticket event.result := by
  cases he : t.jobs.core.classified? (t.jobs.act x).core with
  | none =>
    rw [classified_step_of_none he] at hx
    simp at hx
  | some event' =>
    obtain ⟨k, hk, -, hl, hcl, hj⟩ := step_of_classified? h.line_eq he
    rw [hx, List.append_cancel_left_eq, List.cons.injEq, Prod.mk.injEq] at hcl
    obtain ⟨⟨rfl, hρ⟩, -⟩ := hcl
    have hev : event' = event := by
      have := hk.symm.trans hf.signal_eq
      simpa using this
    subst hev
    have ha := awaiting_of_isFirst h hg hnew hc (hl ▸ List.mem_cons_self) hf hp
    refine ⟨hρ.trans ?_, ?_⟩
    · exact (h.table.resolve_fst_iff ..).2 ⟨ticket, hp.symm, ha⟩
    · rw [hj, firstResult_concat, hp]
      exact .inr ⟨rfl, ha⟩

/-! ## What the caller is told -/

/-- Whoever waits for a registration gets its result as soon as it goes on, and whoever has a handle
of it needs only to wait. -/
structure Yields (s : Dispatcher) (ticket : Ticket) (result : JobResult) : Prop where
  wait : ∀ w ∈ s.waits, w.ticket = ticket → ∀ now,
    (s.act (.move now (.wait ticket))).events =
      s.events ++ [(w.label, .finished (.ok result))]
  handle : ∀ label handle, s.handles.get? label = some handle → handle.ticket = ticket → ∀ now,
    ((s.act (.wait now label none)).act (.move now (.wait ticket))).events =
      s.events ++ [(label, .finished (.ok result))]

theorem Sound.wait_events (h : Sound t) {result : JobResult}
    (hr : FirstResult Deed.Removes t.journal ticket result) {w : Wait} (hw : w ∈ t.jobs.waits)
    (ht : w.ticket = ticket) (now : Nat) :
    (t.jobs.act (.move now (.wait ticket))).events =
      t.jobs.events ++ [(w.label, .finished (.ok result))] := by
  subst ht
  have hmem : w.ticket ∈ t.jobs.core.tickets :=
    List.mem_append_right _ (List.mem_map_of_mem hw)
  have hnodup : (t.jobs.waits.map (·.ticket)).Nodup :=
    (List.nodup_append.1 (h.holds.perm.nodup_iff.2 h.holds.nodup)).2.1
  have hfind : t.jobs.waits.find? (·.ticket = w.ticket) = some w := find?_key_eq hnodup hw
  have hout : t.jobs.table.outcome? w.ticket = some (.ok result) :=
    (h.table.outcome?_ok_iff (h.holds.mem_tickets hmem) result).2 hr
  have hv : t.jobs.verdict? now w = some (.ok result) := by
    rw [Dispatcher.verdict?, hout]
  simp only [Dispatcher.act, Dispatcher.move?, Dispatcher.moveWait?, hfind, Option.bind_some, hv,
    Option.map_some, Option.getD_some]
  rfl

theorem Sound.yields (h : Sound t) {result : JobResult}
    (hr : FirstResult Deed.Removes t.journal ticket result) : Yields t.jobs ticket result where
  wait _ hw ht now := h.wait_events hr hw ht now
  handle label handle hg ht now := by
    have hact : t.jobs.act (.wait now label none) = (t.step (.wait now label none)).jobs := rfl
    have hwait : (t.step (.wait now label none)).jobs.waits =
        t.jobs.waits ++ [⟨label, ticket, none⟩] := by
      show (t.jobs.wait now label none).2.waits = _
      rw [Dispatcher.wait, hg, ← ht]
      rfl
    have hevents : (t.step (.wait now label none)).jobs.events = t.jobs.events := by
      show (t.jobs.wait now label none).2.events = _
      rw [Dispatcher.wait, hg]
      rfl
    rw [hact, (h.step _).wait_events (hr.append _) (w := ⟨label, ticket, none⟩)
      (by rw [hwait]; exact List.mem_append_right _ (List.mem_singleton_self _)) rfl now, hevents]

/-! ## Signals that do not arrive -/

/-- Only a full queue loses a signal. -/
theorem lost_step (h : Accounted t) (hm : (i, .lost) ∈ (t.step x).fates) :
    (i, .lost) ∈ t.fates ∨ t.jobs.feed.size ≤ t.jobs.feed.queue.length := by
  obtain ⟨adv, -⟩ := step_advance h.line_eq x
  cases adv with
  | stay _ _ hf | emit _ _ _ hf => exact .inl (hf ▸ hm)
  | see k fate hs _ _ hf =>
    rw [hf, List.mem_append, List.mem_singleton, Prod.mk.injEq] at hm
    refine hm.imp_right fun ⟨_, he⟩ => ?_
    rw [← he] at hs
    cases hs
  | miss front ids rest fate _ hq _ _ _ hf =>
    rw [hf, List.mem_append] at hm
    refine hm.imp_right fun hm => ?_
    obtain ⟨k, -, he⟩ := List.mem_map.1 hm
    exact hq (Prod.mk.inj he).2

/-- When neither pump nor listener can go on although the gate is free, no signal is on its way. -/
theorem line_eq_nil (h : Sound t) (hc : t.calling = none) (hl : t.jobs.listener ≠ .stopped)
    (hpump : t.jobs.movePump? = none) (hlisten : t.jobs.moveListener? = none) : t.line = [] := by
  have hstream : t.jobs.feed.stream = [] := by
    by_contra hs
    have hsome := Dispatcher.isSome_movePump? (h.pumping hs) hs
    rw [hpump] at hsome
    cases hsome
  have hfront : t.jobs.core.front = [] := by
    by_contra hf
    have hsome := Dispatcher.isSome_moveListener? (Option.map_eq_none_iff.1 hc) hl hf
    rw [hlisten] at hsome
    cases hsome
  have hline : t.jobs.core.line = [] := by
    rw [Core.line, hfront]
    exact hstream
  have hmap := h.line_eq
  rw [hline] at hmap
  exact List.map_eq_nil_iff.1 hmap.symm

/-! ## Any run -/

/-- At any moment of any run:

* from before a call is issued until it is no longer in flight, no signal is handled, and the
  listener keeps the one that it sits with;
* once a call is answered with a path and registered, the first signal for that path is delivered
  when the listener handles it, wherever it was when the call was issued or whenever it was emitted
  later, and from then on its result is what a wait for the returned handle yields; provided that
  no signal of that path before it is still to be handled, and that until then the waiter has not
  gone, been superseded or lost its entry to the closing;
* every emitted signal is on its way or has one fate, only a full queue loses one, and where pump
  and listener cannot go on although the gate is free, none is on its way. -/
theorem completion_not_missed (capacity : Nat) (xs : List Dispatcher.Act) :
    let t := (start capacity).after xs
    (∀ x, t.calling.isSome ∨ (t.step x).calling.isSome → (t.step x).classified = t.classified) ∧
    (∀ x event, t.calling.isSome → t.jobs.listener = .seated event →
      (t.step x).jobs.listener = .seated event) ∧
    (∀ issue flight call path, Answered t issue flight call path → ∀ now,
      let ready := (t.step issue).after flight
      let handle : JobHandle := ⟨call.request.unit, ⟨path, ready.jobs.table.registered⟩⟩
      let made := ready.step (.move now (.call call.number))
      made.jobs.events = ready.jobs.events ++ [(call.label, .started handle)] ∧
      made.jobs.handles.get? call.label = some handle ∧ .registered handle.ticket ∈ made.journal ∧
      ∀ ys x i event ρ, event.jobPath = path → IsFirst t (made.after ys) i event →
        Current Deed.Removes (made.after ys).journal handle.ticket →
        ((made.after ys).step x).classified = (made.after ys).classified ++ [(i, ρ)] →
        ρ = .delivered ∧ ∀ later,
          Yields (((made.after ys).step x).after later).jobs handle.ticket event.result) ∧
    (t.fates.map (·.1) ++ t.line).Perm (List.range t.emitted.length) ∧
    (∀ x i, (i, .lost) ∈ (t.step x).fates →
      (i, .lost) ∈ t.fates ∨ t.jobs.feed.size ≤ t.jobs.feed.queue.length) ∧
    (t.calling = none → t.jobs.listener ≠ .stopped → t.jobs.movePump? = none →
      t.jobs.moveListener? = none → t.line = []) := by
  intro t
  have h : Sound t := (Sound.start capacity).after xs
  refine ⟨fun x => classified_step_of_calling, fun x event hc => seated_step_of_calling hc, ?_,
    h.perm, fun x i => lost_step h.toAccounted, line_eq_nil h⟩
  intro issue flight call path ha now ready handle made
  have hready : Sound ready := (h.step issue).after flight
  obtain ⟨hevents, hget, hdeed⟩ :=
    step_register hready ha.answered ha.closed_eq ha.answer_eq now
  refine ⟨hevents, hget, hdeed, fun ys x i event ρ hp hf hc hx => ?_⟩
  have hmade : Sound made := hready.step _
  have hg : Grows ready (made.after ys) := (Grows.step hready _).trans (Grows.after hmade ys)
  have hnew : .registered handle.ticket ∉ ready.journal := hready.table.next_not_registered path
  -- Nothing was handled between the issue of the call and its registration.
  have hf' : IsFirst ready (made.after ys) i event :=
    ⟨hf.signal_eq, fun k hk e he hpe => by
      rw [ha.classified_ready]
      exact hf.first k hk e he hpe⟩
  obtain ⟨hρ, hr⟩ := resolve_first (hmade.after ys) hg hnew hc hf' hp hx
  refine ⟨hρ, fun later => ?_⟩
  obtain ⟨deeds, -, -, hj, -⟩ := Grows.after ((hmade.after ys).step x) later
  exact (((hmade.after ys).step x).after later).yields (hj ▸ hr.append deeds)

/-- The path of a job that is long gone is used again, and the new job ends before the reply. -/
theorem completion_not_missed_reused_path :
    let path : JobPath := ⟨"/job/7"⟩
    let old : JobRemoved := ⟨7, path, "a.service", .failed⟩
    let event : JobRemoved := ⟨7, path, "a.service", .done⟩
    let call : Call :=
      ⟨0, "a", .method .start "a.service" .replace, [.removed event], true, .path path⟩
    let t := (start 1).after [.emit [.removed old], .move 0 .pump, .move 0 .listener,
      .start "a" (.ok call.request) call.before true call.reply]
    let flight : List Dispatcher.Act := [.move 0 .pump, .move 0 .listener, .release "a"]
    let ready := (t.step (.move 0 (.call 0))).after flight
    let waiting := (ready.step (.move 0 (.call 0))).after [.wait 0 "a" none]
    let handled := (waiting.step (.move 0 .listener)).after [.pause .listener]
    let ticket : Ticket := ⟨path, ready.jobs.table.registered⟩
    Answered t (.move 0 (.call 0)) flight call path ∧ t.classified = [(0, .unknown)] ∧
      IsFirst t waiting 1 event ∧ Current Deed.Removes waiting.journal ticket ∧
      (waiting.step (.move 0 .listener)).classified = waiting.classified ++ [(1, .delivered)] ∧
      (handled.jobs.act (.move 0 (.wait ticket))).events =
        handled.jobs.events ++ [("a", .finished (.ok .done))] := by
  intro path old event call t flight ready waiting handled ticket
  have ha : Answered t (.move 0 (.call 0)) flight call path := by
    have hprefix : ∀ us ∈ flight.inits, ((t.step (.move 0 (.call 0))).after us).calling =
        some call := by decide +kernel +zetaReduce
    exact ⟨by decide +kernel +zetaReduce,
      fun us hus => hprefix us ((List.mem_inits us flight).2 hus),
      by decide +kernel +zetaReduce, by decide +kernel +zetaReduce, rfl⟩
  have ht : t.classified = [(0, .unknown)] := by decide +kernel +zetaReduce
  have hf : IsFirst t waiting 1 event := by
    refine ⟨by decide +kernel +zetaReduce, fun k hk e _ _ => .inl ?_⟩
    rw [ht, Nat.lt_one_iff.1 hk]
    exact List.mem_singleton_self 0
  have hj : waiting.journal = [.signalled path .failed] ++ .registered ticket :: [] := by
    decide +kernel +zetaReduce
  have hc : Current Deed.Removes waiting.journal ticket :=
    ⟨_, _, hj, fun _ h => absurd h List.not_mem_nil⟩
  have hx : (waiting.step (.move 0 .listener)).classified =
      waiting.classified ++ [(1, .delivered)] := by
    decide +kernel +zetaReduce
  have hw : ⟨"a", ticket, none⟩ ∈ handled.jobs.waits := by decide +kernel +zetaReduce
  obtain ⟨-, -, hrace, -⟩ := completion_not_missed 1 [.emit [.removed old], .move 0 .pump,
    .move 0 .listener, .start "a" (.ok call.request) call.before true call.reply]
  rw [show (start 1).after _ = t from rfl] at hrace
  clear_value t
  obtain ⟨-, -, -, hfirst⟩ := hrace _ _ _ _ ha 0
  obtain ⟨-, hy⟩ :=
    hfirst [.wait 0 "a" none] (.move 0 .listener) 1 event .delivered rfl hf hc hx
  exact ⟨ha, ht, hf, hc, hx, (hy [.pause .listener]).wait _ hw rfl 0⟩

end Trail

end SystemdControl
