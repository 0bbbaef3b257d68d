import SystemdControl.Proofs.Job.Dispatcher.Queue

/-!
# Signals that are queued when the listener ends

A listener that shall stop goes on until its queue is empty, and waits for the gate if it must. So
whatever came into the queue is done with before the table is closed.

* `Fate.Settles`: what becomes of a signal that the listener takes; `Trail.Settled.after` for all of
  them in a run;
* `Trail.accepted_after`: a signal that came into the queue is done with or still waits;
* `Trail.NextFor`: the signal in hand or queue from which a waiter will get its result;
  `NextFor.after_awaiting` says that it does;
* `Trail.Settled.closes`: how many moves the listener needs to come to an end.
-/

namespace SystemdControl

open JobTable

/-- An event is handled while the table is open, and what cannot be decoded is skipped. -/
def Fate.Settles : Signal → Fate → Prop
  | .removed _, .classified resolution => resolution ≠ .closed
  | .undecodable _, .skipped => True
  | _, _ => False

namespace Core

variable {c c' : Core}

theorem closed_of_resolve {t : JobTable} {path : JobPath} {result : JobResult}
    (h : (t.resolve path result).1 = .closed) : t.closed = true := by
  unfold JobTable.resolve at h
  split at h
  · assumption
  · split at h <;> cases h

theorem Drained.seenFate_settles (h : c.Drained) {signal : Signal} {rest : List Signal}
    (hf : c.front = signal :: rest) : Fate.Settles signal c.seenFate := by
  rw [seenFate, hf, List.head?_cons]
  cases signal with
  | undecodable error => trivial
  | removed event =>
    intro hc
    have hnil := h.front_eq_nil (closed_of_resolve hc)
    simp [hf] at hnil

/-- In one act the listener is done with one signal at most. -/
theorem Effect.passed_cases (e : c.Effect c') :
    c.passed c' = 0 ∨
      ∃ signal, c.front = signal :: c'.front ∧ c'.feed.stream = c.feed.stream := by
  cases e.traffic with
  | skip error hf hs => exact .inr ⟨_, hf, hs⟩
  | classify event hf hs => exact .inr ⟨_, hf, hs⟩
  | stay hf | emit _ hf | forward _ hf | lose _ hf | dismiss hf => exact .inl (by simp [passed, hf])

theorem closed_mem_deeds (h : .closed ∈ c.deeds c') :
    c.table.closed = false ∧ c'.table.closed = true := by
  unfold deeds deedsTo at h
  by_cases hc : (c'.table.closed && !c.table.closed) = true
  · simpa [and_comm] using hc
  · rw [if_neg hc] at h
    simp at h

end Core

namespace Dispatcher

variable {s : Dispatcher}

theorem underWay_handle (event : JobRemoved) : (s.handle event).underWay = s.underWay :=
  congrArg (·.underWay) (core_handle event)

/-- At a free gate a move of the listener gets one signal done with. -/
theorem act_listener_front (now : Nat) (hu : s.underWay = none) (hl : s.listener ≠ .stopped)
    {signal : Signal} {rest : List Signal} (hf : s.core.front = signal :: rest) :
    (s.act (.move now .listener)).core.front = rest ∧
      (s.act (.move now .listener)).underWay = s.underWay ∧
      (s.act (.move now .listener)).stopping = s.stopping := by
  have hne : s.core.front ≠ [] := hf ▸ List.cons_ne_nil signal rest
  obtain ⟨s', hm⟩ := Option.isSome_iff_exists.1 (isSome_moveListener? hu hl hne)
  rw [act, move?, hm, Option.getD_some]
  cases moveListener?_cases hm with
  | skip hr ht =>
    rw [Core.front_of_ready hr] at hf
    have hq := List.cons.inj ((Core.queue_of_take? ht).1.symm.trans hf)
    exact ⟨(Core.front_of_ready hr).trans hq.2, rfl, rfl⟩
  | take hr hu' ht =>
    rw [Core.front_of_ready hr] at hf
    have hq := List.cons.inj ((Core.queue_of_take? ht).1.symm.trans hf)
    rw [core_handle, Core.front_of_ready rfl]
    exact ⟨hq.2, underWay_handle _, stopping_handle _⟩
  | sit hr hu' => exact absurd hu hu'
  | rise hr =>
    rw [Core.front_of_seated hr] at hf
    rw [core_handle, Core.front_of_ready rfl]
    exact ⟨(List.cons.inj hf).2, underWay_handle _, stopping_handle _⟩
  | stop hr hq => exact absurd ((Core.front_of_ready hr).trans hq) hne

/-- With nothing left a listener that shall stop closes the table. -/
theorem act_listener_stop (now : Nat) (hs : s.stopping = true) (hl : s.listener = .ready)
    (hq : s.feed.queue = []) : (s.act (.move now .listener)).table.closed = true := by
  have htake : s.feed.take? = none := by rw [Feed.take?, hq]
  have hm : s.moveListener? = some s.stopListener := by
    rw [moveListener?, hl, htake]
    exact if_pos (by rw [hs]; rfl)
  rw [act, move?, hm]
  rfl

/-- Only a closed table makes a wait end for want of a listener. -/
theorem closed_of_verdict? {now : Nat} {w : Wait} {path : String}
    (h : s.verdict? now w = some (.error (.listenerStopped path))) : s.table.closed = true := by
  unfold verdict? at h
  split at h
  · rename_i outcome _ ho
    rw [Option.some.inj h, JobTable.outcome?] at ho
    split at ho
    · cases ho
    · split at ho
      · cases ho
      · rw [JobTable.lossOf] at ho
        by_contra hc
        rw [if_neg hc] at ho
        cases ho
  · split at h <;> cases h
  · cases h

end Dispatcher

namespace Trail

variable {t : Trail} {x : Dispatcher.Act}

/-! ## Fates -/

/-- The table is closed last, and the listener is done with every signal in the way it shall be. -/
structure Settled (t : Trail) : Prop extends Sound t where
  core : t.jobs.core.Drained
  fates : ∀ i fate, (i, fate) ∈ t.fates → fate.isSeen = true →
    ∃ signal, t.emitted[i]? = some signal ∧ fate.Settles signal

/-- An act in which the listener gets nothing done adds only fates of signals that it does not
see. -/
theorem mem_fates_of_passed_eq_zero (hp : t.jobs.core.passed (t.jobs.act x).core = 0) {i : Nat}
    {fate : Fate} (hm : (i, fate) ∈ (t.step x).fates) (hs : fate.isSeen = true) :
    (i, fate) ∈ t.fates := by
  simp only [step, hp, List.take_zero, List.map_nil, List.append_nil] at hm
  refine (List.mem_append.1 hm).resolve_right fun hm => ?_
  obtain ⟨k, -, he⟩ := List.mem_map.1 hm
  rw [← (Prod.mk.inj he).2, Core.isSeen_missedFate] at hs
  cases hs

namespace Settled

theorem start (capacity : Nat) : Settled (Trail.start capacity) where
  toSound := .start capacity
  core := ⟨⟨nofun, nofun⟩, nofun⟩
  fates _ _ hm := absurd hm List.not_mem_nil

theorem step (h : Settled t) (x : Dispatcher.Act) : Settled (t.step x) where
  toSound := h.toSound.step x
  core := h.core.effect (t.jobs.act_effect x)
  fates i fate hm hs := by
    have hold : (i, fate) ∈ t.fates →
        ∃ signal, (t.step x).emitted[i]? = some signal ∧ fate.Settles signal := fun hm => by
      obtain ⟨signal, hi, hf⟩ := h.fates i fate hm hs
      exact ⟨signal, (getElem?_emitted_step t x (List.getElem?_eq_some_iff.1 hi).1).trans hi, hf⟩
    rcases (t.jobs.act_effect x).passed_cases with hp | ⟨signal, hf, hstream⟩
    · exact hold (mem_fates_of_passed_eq_zero hp hm hs)
    · obtain ⟨k, hk, hemitted, -, hfates, -⟩ := step_pass h.line_eq hf hstream
      rw [hfates, List.mem_append, List.mem_singleton] at hm
      refine hm.elim hold fun he => ?_
      obtain ⟨rfl, rfl⟩ := Prod.mk.inj he
      exact ⟨signal, hemitted ▸ hk, h.core.seenFate_settles hf⟩

theorem after (h : Settled t) (xs : List Dispatcher.Act) : Settled (t.after xs) := by
  induction xs generalizing t with
  | nil => exact h
  | cons x xs ih => exact ih (h.step x)

end Settled

/-- What came into the queue is done with or still waits, in the same order. -/
theorem accepted_step (t : Trail) (x : Dispatcher.Act) :
    t.seen ++ t.waiting <+: (t.step x).seen ++ (t.step x).waiting := by
  obtain ⟨more, hmore⟩ := waiting_step t x
  refine ⟨more, ?_⟩
  rw [seen_step, ← hmore, List.append_assoc, List.append_assoc, ← List.append_assoc (List.take _ _),
    List.take_append_drop]

theorem accepted_after (t : Trail) (xs : List Dispatcher.Act) :
    t.seen ++ t.waiting <+: (t.after xs).seen ++ (t.after xs).waiting := by
  induction xs generalizing t with
  | nil => exact List.prefix_rfl
  | cons x xs ih => exact (accepted_step t x).trans (ih (t.step x))

theorem waiting_eq_nil_iff (h : Accounted t) : t.waiting = [] ↔ t.jobs.core.front = [] := by
  rw [← List.map_eq_nil_iff (f := (t.emitted[·]?)), map_waiting h, List.map_eq_nil_iff]

/-- When the table is closed the listener is done with everything that was ever in the queue. -/
theorem Settled.done_of_closed (h : Settled t) {xs : List Dispatcher.Act}
    (hc : (t.after xs).jobs.table.closed = true) {i : Nat} (hi : i ∈ t.waiting) :
    ∃ signal fate, t.emitted[i]? = some signal ∧ (i, fate) ∈ (t.after xs).fates ∧
      fate.Settles signal := by
  have h' : Settled (t.after xs) := h.after xs
  have hnil : (t.after xs).waiting = [] :=
    (waiting_eq_nil_iff h'.toAccounted).2 (h'.core.front_eq_nil hc)
  have hseen : i ∈ (t.after xs).seen := by
    have hmem := (accepted_after t xs).subset (List.mem_append_right _ hi)
    rwa [hnil, List.append_nil] at hmem
  obtain ⟨⟨k, fate⟩, hm, rfl⟩ := List.mem_map.1 hseen
  obtain ⟨hm, hs⟩ := List.mem_filter.1 hm
  obtain ⟨signal, hk, hf⟩ := h'.fates k fate hm hs
  refine ⟨signal, fate, ?_, hm, hf⟩
  obtain ⟨-, -, signals, -, -, hemitted, -⟩ := Grows.after h.toSound xs
  have hlt : k < t.emitted.length :=
    h.lt_length (List.mem_append_right _ (List.mem_of_mem_take hi))
  rwa [hemitted, List.getElem?_append_left hlt] at hk

/-! ## A waiter and its signal -/

/-- The signal in hand or queue that is the next one on its way for the job of its path. -/
structure NextFor (t : Trail) (i : Nat) (event : JobRemoved) : Prop where
  waiting : i ∈ t.waiting
  signal_eq : t.emitted[i]? = some (.removed event)
  first : ∀ k ∈ t.line, k < i → ∀ e, t.emitted[k]? = some (.removed e) → e.jobPath ≠ event.jobPath

/-- Numbers that come to the line are new. -/
theorem mem_line_of_mem_step {k : Nat} (hk : k ∈ (t.step x).line) (hlt : k < t.emitted.length) :
    k ∈ t.line := by
  rcases List.mem_append.1 hk with hk | hk
  · rcases List.mem_append.1 hk with hk | hk
    · exact List.mem_of_mem_take (List.mem_of_mem_drop hk)
    · exact List.mem_of_mem_drop (List.mem_of_mem_drop hk)
  · have hge := (List.mem_range'_1.1 hk).1
    omega

namespace NextFor

variable {i : Nat} {event : JobRemoved}

theorem mem_line (hn : NextFor t i event) : i ∈ t.line :=
  List.mem_of_mem_take hn.waiting

/-- A signal that goes on to wait remains the next one. -/
theorem remain (hn : NextFor t i event) (h : Accounted t) (hi : i ∈ (t.step x).waiting) :
    NextFor (t.step x) i event where
  waiting := hi
  signal_eq := by
    rw [getElem?_emitted_step t x (h.lt_length (List.mem_append_right _ hn.mem_line)), hn.signal_eq]
  first k hk hlt e he := by
    have hlen : k < t.emitted.length :=
      hlt.trans (h.lt_length (List.mem_append_right _ hn.mem_line))
    rw [getElem?_emitted_step t x hlen] at he
    exact hn.first k (mem_line_of_mem_step hk hlen) hlt e he

/-- In an act the next signal goes on to wait, and no other one of its path is handled; or it is
handled itself. -/
theorem step (hn : NextFor t i event) (h : Accounted t) (x : Dispatcher.Act) :
    (NextFor (t.step x) i event ∧
      ∀ result, .signalled event.jobPath result ∉ t.jobs.core.deeds (t.jobs.act x).core) ∨
    t.jobs.core.deeds (t.jobs.act x).core = [.signalled event.jobPath event.result] := by
  have he := t.jobs.act_effect x
  have hwaiting := waiting_step t x
  rcases he.passed_cases with hp | ⟨signal, hf, hs⟩
  · rw [hp, List.drop_zero] at hwaiting
    refine .inl ⟨hn.remain h (hwaiting.subset hn.waiting), fun result hm => ?_⟩
    obtain ⟨e, hc, -⟩ := Core.signalled_mem_deeds.1 hm
    have hpassed : t.jobs.core.passed (t.jobs.act x).core = 1 := by
      simp [Core.passed, (he.classify hc).1]
    exact absurd (hp.symm.trans hpassed) (by simp)
  · obtain ⟨k, hk, -, hl, -⟩ := step_pass h.line_eq hf hs
    have hfirst : t.waiting = k :: (t.step x).line.take (t.jobs.act x).core.front.length := by
      rw [Trail.waiting, hl, hf, List.length_cons, List.take_succ_cons]
    by_cases hki : i = k
    · subst hki
      have hsig : signal = .removed event := by simpa [hk] using hn.signal_eq
      rw [hsig] at hf
      exact .inr (he.classify (Core.classified?_eq_some hf)).2.2.2
    · have hrest : i ∈ (t.step x).line.take (t.jobs.act x).core.front.length :=
        (List.mem_cons.1 (hfirst ▸ hn.waiting)).resolve_left hki
      refine .inl ⟨hn.remain h hrest, fun result hm => ?_⟩
      obtain ⟨e, hc, hpath, -⟩ := Core.signalled_mem_deeds.1 hm
      have hsig : signal = .removed e := by simpa [hf] using (he.classify hc).1
      have hlt : k < i := by
        have hline := (List.pairwise_append.1 h.ascending).2.1
        rw [hl] at hline
        exact (List.pairwise_cons.1 hline).1 i (List.mem_of_mem_take hrest)
      exact hn.first k (hl ▸ List.mem_cons_self) hlt e (hsig ▸ hk) hpath

/-- A waiter for the job of the next signal goes on to await that, or has got its result. -/
theorem step_awaiting (hn : NextFor t i event) (h : Settled t) {ticket : Ticket}
    (hp : event.jobPath = ticket.path) (ha : Awaiting Deed.Removes t.journal ticket)
    (hr : ∀ d ∈ t.jobs.core.deeds (t.jobs.act x).core, ¬ d.Revokes ticket) :
    (NextFor (t.step x) i event ∧ Awaiting Deed.Removes (t.step x).journal ticket) ∨
      FirstResult Deed.Removes (t.step x).journal ticket event.result := by
  have hopen : .closed ∉ t.jobs.core.deeds (t.jobs.act x).core := fun hm => by
    obtain ⟨ho, hc⟩ := Core.closed_mem_deeds hm
    have hnil := (waiting_eq_nil_iff h.toAccounted).2 (Dispatcher.act_closes ho hc).2.1
    exact List.not_mem_nil (hnil ▸ hn.waiting)
  rcases hn.step h.toAccounted x with ⟨hn', hs⟩ | hd
  · refine .inl ⟨hn', ha.append fun d hd hstop => ?_⟩
    rcases hstop with hrem | hsig
    · rcases Deed.removes_iff.1 hrem with hrev | rfl
      · exact hr d hd hrev
      · exact hopen hd
    · cases d with
      | signalled path result =>
        cases (show path = ticket.path from hsig)
        exact hs result (hp ▸ hd)
      | _ => exact hsig
  · refine .inr ?_
    show FirstResult Deed.Removes (t.journal ++ t.jobs.core.deeds (t.jobs.act x).core) ticket _
    rw [hd, firstResult_concat, hp]
    exact .inr ⟨rfl, ha⟩

/-- Whatever is done, as long as the waiter neither goes nor is superseded. -/
theorem after_awaiting (hn : NextFor t i event) (h : Settled t) {ticket : Ticket}
    (hp : event.jobPath = ticket.path) (ha : Awaiting Deed.Removes t.journal ticket)
    {xs : List Dispatcher.Act}
    (hr : ∀ d ∈ (t.after xs).journal.drop t.journal.length, ¬ d.Revokes ticket) :
    (NextFor (t.after xs) i event ∧ Awaiting Deed.Removes (t.after xs).journal ticket) ∨
      FirstResult Deed.Removes (t.after xs).journal ticket event.result := by
  induction xs generalizing t with
  | nil => exact .inl ⟨hn, ha⟩
  | cons x xs ih =>
    obtain ⟨deeds, -, -, hj, -⟩ := Grows.after (h.step x).toSound xs
    have hall : (t.after (x :: xs)).journal =
        t.journal ++ (t.jobs.core.deeds (t.jobs.act x).core ++ deeds) :=
      hj.trans (List.append_assoc ..)
    rw [hall, List.drop_left] at hr
    have hnow := fun d hd => hr d (List.mem_append_left _ hd)
    rcases hn.step_awaiting h hp ha hnow with ⟨hn', ha'⟩ | hfirst
    · refine ih hn' (h.step x) ha' ?_
      rw [hj, List.drop_left]
      exact fun d hd => hr d (List.mem_append_right _ hd)
    · exact .inr (hj ▸ hfirst.append deeds)

end NextFor

/-! ## The closing -/

theorem Settled.closed_step (h : Settled t) (hc : t.jobs.table.closed = true)
    (x : Dispatcher.Act) : (t.step x).jobs.table.closed = true :=
  (((t.jobs.act_effect x).doesAll h.holds).2.of_closed hc).1

/-- A listener that shall stop closes the table after one move for each signal that waits, unless a
call holds the gate. -/
theorem Settled.closes (h : Settled t) (hs : t.jobs.stopping = true)
    (hu : t.jobs.underWay = none) (now : Nat) :
    let t' := t.after (List.replicate (t.jobs.core.front.length + 1) (.move now .listener))
    t'.jobs.table.closed = true := by
  generalize hf : t.jobs.core.front = front
  induction front generalizing t with
  | nil =>
    show (t.step (.move now .listener)).jobs.table.closed = true
    cases hl : t.jobs.listener with
    | ready =>
      rw [Core.front_of_ready hl] at hf
      exact Dispatcher.act_listener_stop now hs hl hf
    | seated event =>
      rw [Core.front_of_seated hl] at hf
      cases hf
    | stopped => exact h.closed_step (h.core.closed_iff.2 hl) _
  | cons signal rest ih =>
    have hl : t.jobs.listener ≠ .stopped := fun hl => by
      have hnil := h.core.front_eq_nil (h.core.closed_iff.2 hl)
      simp [hf] at hnil
    obtain ⟨hf', hu', hs'⟩ := Dispatcher.act_listener_front now hu hl hf
    exact ih (h.step _) (hs'.trans hs) (hu'.trans hu) hf'

/-! ## Any run -/

/-- At any moment of any run:

* what closes the table is a move of the listener with nothing in hand or queue, which was asked to
  stop or has no pump any more because the stream has ended;
* when the table is closed, every signal that was in hand or queue at some moment before has been
  handled, while the table was open, or skipped if it could not be decoded;
* no wait ends for want of a listener before that;
* a waiter that is pending while a signal for its job is in hand or queue gets the result of the
  first such signal, whatever is done, unless it goes or is superseded: the table stays open as long
  as the signal is not handled, which waits for nothing but the gate and the listener's turn;
* the listener never finds the table closed;
* a listener that is asked to stop does, after one move for each signal that waits, as soon as no
  call holds the gate. -/
theorem drained_before_closing (capacity : Nat) (xs : List Dispatcher.Act) :
    let t := (start capacity).after xs
    (∀ x, t.jobs.table.closed = false → (t.step x).jobs.table.closed = true →
      (∃ now, x = .move now .listener) ∧ t.jobs.core.front = [] ∧
        (t.jobs.stopping = true ∨
          t.jobs.feed.ended = true ∧ t.jobs.feed.pumping = false ∧ t.jobs.feed.stream = [])) ∧
    (∀ i ∈ t.waiting, ∀ ys, (t.after ys).jobs.table.closed = true →
      ∃ signal fate, t.emitted[i]? = some signal ∧ (i, fate) ∈ (t.after ys).fates ∧
        fate.Settles signal) ∧
    (∀ now w path, t.jobs.verdict? now w = some (.error (.listenerStopped path)) →
      t.jobs.table.closed = true) ∧
    (∀ ticket i event, ⟨ticket, .pending⟩ ∈ t.jobs.table.entries → NextFor t i event →
      event.jobPath = ticket.path → ∀ ys,
      (∀ d ∈ (t.after ys).journal.drop t.journal.length, ¬ d.Revokes ticket) →
      let t' := t.after ys
      (t'.jobs.table.closed = false ∧ ⟨ticket, .pending⟩ ∈ t'.jobs.table.entries ∧
        (t'.calling.isSome ∨ t'.jobs.moveListener?.isSome)) ∨
        ∀ later, Yields (t'.after later).jobs ticket event.result) ∧
    (∀ i, (i, .classified .closed) ∉ t.fates) ∧
    (t.jobs.stopping = true → t.calling = none → ∀ now,
      (t.after (List.replicate (t.jobs.core.front.length + 1)
        (.move now .listener))).jobs.table.closed = true) := by
  intro t
  have h : Settled t := (Settled.start capacity).after xs
  have hw : t.jobs.Winding := after_of_act (fun s x hs => hs.act x) (.start capacity) xs
  refine ⟨?closing, fun i hi ys hc => h.done_of_closed hc hi,
    fun now w path => Dispatcher.closed_of_verdict?, ?waiter, ?never, ?stops⟩
  case closing =>
    intro x ho hc
    obtain ⟨hx, hf, hend⟩ := Dispatcher.act_closes ho hc
    refine ⟨hx, hf, hend.elim .inl fun hp => ?_⟩
    exact (hw.pump hp).imp_right fun he => ⟨he, hp, h.drained hp⟩
  case waiter =>
    intro ticket i event hp hn hpath ys hr t'
    have h' : Settled t' := h.after ys
    have ha : Awaiting Deed.Removes t.journal ticket := h.table.pending_mem_iff.1 hp
    rcases hn.after_awaiting h hpath ha hr with ⟨hn', ha'⟩ | hfirst
    · have hf : t'.jobs.core.front ≠ [] := fun hf =>
        List.not_mem_nil ((waiting_eq_nil_iff h'.toAccounted).2 hf ▸ hn'.waiting)
      have hopen : t'.jobs.table.closed ≠ true := fun hc => hf (h'.core.front_eq_nil hc)
      refine .inl ⟨Bool.eq_false_iff.2 hopen, h'.table.pending_mem_iff.2 ha', ?_⟩
      refine (Option.eq_none_or_eq_some t'.calling).symm.imp ?_ fun hcall => ?_
      · rintro ⟨call, hcall⟩
        rw [hcall]
        rfl
      · have hl : t'.jobs.listener ≠ .stopped := fun hl => hopen (h'.core.closed_iff.2 hl)
        exact Dispatcher.isSome_moveListener? (Option.map_eq_none_iff.1 hcall) hl hf
    · refine .inr fun later => ?_
      obtain ⟨deeds, -, -, hj, -⟩ := Grows.after h'.toSound later
      exact (h'.toSound.after later).yields (hj ▸ hfirst.append deeds)
  case never =>
    intro i hm
    obtain ⟨signal, -, hs⟩ := h.fates i _ hm rfl
    cases signal with
    | removed event => exact hs rfl
    | undecodable error => exact hs
  case stops =>
    exact fun hs hc now => h.closes hs (Option.map_eq_none_iff.1 hc) now

/-- A shutdown while the listener sits with the signal of a waiter behind a call that the manager
keeps waiting; a signal that cannot be decoded is queued behind that one, and the call is answered
with another job, for which no signal comes any more. -/
theorem drained_before_closing_held_call :
    let path : JobPath := ⟨"/job/1"⟩
    let event : JobRemoved := ⟨1, path, "a.service", .done⟩
    let ticket : Ticket := ⟨path, 0⟩
    let xs : List Dispatcher.Act := [
      .start "a" (.ok (.method .start "a.service" .replace)) [] false (.path path),
      .move 0 (.call 0), .move 0 (.call 0),
      .start "b" (.ok (.method .stop "b.service" .replace)) [] true (.path ⟨"/job/2"⟩),
      .move 0 (.call 1), .emit [.removed event, .undecodable (.io "no path")],
      .move 0 .pump, .move 0 .pump, .move 0 .listener]
    let ys : List Dispatcher.Act := [.wait 0 "a" none, .requestStop, .release "b",
      .move 0 (.call 1), .move 0 .listener, .move 0 .listener]
    let t := (start 2).after xs
    let last := (start 2).after (xs ++ ys)
    let closed := t.after (ys ++ [.move 0 .listener])
    ⟨ticket, .pending⟩ ∈ t.jobs.table.entries ∧ NextFor t 0 event ∧ t.waiting = [0, 1] ∧
      last.jobs.table.closed = false ∧
      (last.step (.move 0 .listener)).jobs.table.closed = true ∧ last.jobs.core.front = [] ∧
      (∀ i ∈ t.waiting, ∃ signal fate, t.emitted[i]? = some signal ∧ (i, fate) ∈ closed.fates ∧
        fate.Settles signal) ∧
      (closed.jobs.act (.move 0 (.wait ticket))).events =
        closed.jobs.events ++ [("a", .finished (.ok .done))] ∧
      closed.jobs.verdict? 0 ⟨"b", ⟨⟨"/job/2"⟩, 1⟩, none⟩ =
        some (.error (.listenerStopped "/job/2")) := by
  intro path event ticket xs ys t last closed
  have hpending : ⟨ticket, .pending⟩ ∈ t.jobs.table.entries := by decide +kernel +zetaReduce
  have hwaiting : t.waiting = [0, 1] := by decide +kernel +zetaReduce
  have hnext : NextFor t 0 event :=
    ⟨by rw [hwaiting]; exact List.mem_cons_self, by decide +kernel +zetaReduce,
      fun k _ hk => absurd hk (Nat.not_lt_zero k)⟩
  have hopen : last.jobs.table.closed = false := by decide +kernel +zetaReduce
  have hcloses : (last.step (.move 0 .listener)).jobs.table.closed = true := by
    decide +kernel +zetaReduce
  have hclosed : closed.jobs.table.closed = true := by decide +kernel +zetaReduce
  have hdeeds : closed.journal.drop t.journal.length =
      [.registered ⟨⟨"/job/2"⟩, 1⟩, .signalled path .done, .closed] := by
    decide +kernel +zetaReduce
  have hkept : ∀ d ∈ closed.journal.drop t.journal.length, ¬ d.Revokes ticket := by
    rw [hdeeds]
    intro d hd
    simp only [List.mem_cons, List.not_mem_nil, or_false] at hd
    rcases hd with rfl | rfl | rfl <;> simp [Deed.Revokes, Deed.Removes, ticket, path]
  have hwait : ⟨"a", ticket, none⟩ ∈ closed.jobs.waits := by decide +kernel +zetaReduce
  have hlost : closed.jobs.verdict? 0 ⟨"b", ⟨⟨"/job/2"⟩, 1⟩, none⟩ =
      some (.error (.listenerStopped "/job/2")) := by
    decide +kernel +zetaReduce
  obtain ⟨-, hdone, -, hwaiter, -⟩ := drained_before_closing 2 xs
  obtain ⟨hclosing, -⟩ := drained_before_closing 2 (xs ++ ys)
  rw [show (start 2).after xs = t from rfl] at hdone hwaiter
  rw [show (start 2).after (xs ++ ys) = last from rfl] at hclosing
  clear_value t last
  have hyields : Yields closed.jobs ticket .done := by
    rcases hwaiter ticket 0 event hpending hnext rfl _ hkept with ⟨ho, -⟩ | hy
    · exact absurd ho (by rw [hclosed]; simp)
    · exact hy []
  exact ⟨hpending, hnext, hwaiting, hopen, hcloses, (hclosing _ hopen hcloses).2.1,
    fun i hi => hdone i hi _ hclosed, hyields.wait _ hwait rfl 0, hlost⟩

end Trail

end SystemdControl
