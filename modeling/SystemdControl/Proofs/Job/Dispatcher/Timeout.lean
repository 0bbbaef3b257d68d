import SystemdControl.Proofs.Job.Dispatcher.Race
import SystemdControl.Proofs.Job.Dispatcher.Unlimited
import SystemdControl.Proofs.Job.Timeout

/-!
# Waits that are cut at a deadline

A caller waits for a job for a limited time. Until it is polled at the end of that time everything
goes on as if it waited without limit; then it ends, with what is known of the job or else with the
limit. However it ends, its entry is gone, and no other one.

* `Core.Sole`: the wait for a registration stays as it is until it ends, and nobody else has a
  handle of that registration;
* `Dispatcher.CutsWait` is the whole course of a limited wait (`Trail.Sound.cutsWait`);
* `Dispatcher.EndsWait` are the ways in which a wait is answered; with `Trail.Sound.reclaims` for
  what that does to the table.

The last theorem of the file says that for the bus and for the table on its own.
-/

namespace SystemdControl

open JobTable

/-! ## The wait for a registration -/

/-- A wait is the only one for its registration, of which there is no handle. -/
structure Core.Sole (c : Core) (w : Wait) : Prop where
  serial_lt : w.ticket.serial < c.table.registered
  eq_of_mem : ∀ v ∈ c.waits, v.ticket = w.ticket → v = w
  handle_ne : ∀ e ∈ c.handles, e.2.ticket ≠ w.ticket

namespace Core

variable {c c' : Core} {w : Wait}

/-- A new wait is for a registration of which there was a handle. -/
theorem Effect.waits_subset (e : c.Effect c') {v : Wait} (hv : v ∈ c'.waits) :
    v ∈ c.waits ∨ ∃ h ∈ c.handles, h.2.ticket = v.ticket := by
  cases e with
  | await hg ht =>
    rcases List.mem_append.1 hv with hv | hv
    · exact .inl hv
    · obtain ⟨e, he, rfl⟩ := Option.map_eq_some_iff.1 hg
      rw [List.mem_singleton.1 hv]
      exact .inr ⟨e, List.mem_of_find?_eq_some he, ht.symm⟩
  | leave hw => exact .inl (List.mem_of_mem_erase hv)
  | _ => exact .inl hv

/-- A new handle is of a new registration. -/
theorem Effect.handles_subset (e : c.Effect c') {h : String × JobHandle} (hh : h ∈ c'.handles) :
    h ∈ c.handles ∨ h.2.ticket.serial = c.table.registered := by
  cases e with
  | register hu label unit path =>
    rcases List.mem_cons.1 ((Labelled.set_perm ..).mem_iff.1 hh) with rfl | hh
    · exact .inr rfl
    · exact .inl (List.mem_of_mem_eraseP hh)
  | await | discard => exact .inl (List.mem_of_mem_eraseP hh)
  | _ => exact .inl hh

theorem Sole.effect (h : c.Sole w) (e : c.Effect c')
    (hr : c.table.registered ≤ c'.table.registered) : c'.Sole w where
  serial_lt := Nat.lt_of_lt_of_le h.serial_lt hr
  eq_of_mem v hv ht := by
    rcases e.waits_subset hv with hv | ⟨g, hg, hgt⟩
    · exact h.eq_of_mem v hv ht
    · exact absurd (hgt.trans ht) (h.handle_ne g hg)
  handle_ne g hg ht := by
    rcases e.handles_subset hg with hg | hs
    · exact h.handle_ne g hg ht
    · have := h.serial_lt
      rw [ht] at hs
      omega

end Core

namespace Trail

variable {t t' : Trail} {w : Wait} {ticket : Ticket} {label : String}

theorem Sound.doesAll (h : Sound t) (x : Dispatcher.Act) :
    DoesAll t.jobs.table (t.jobs.core.deeds (t.step x).jobs.core) (t.step x).jobs.table :=
  ((t.jobs.act_effect x).doesAll h.holds).2

theorem Sound.nodup_waits (h : Sound t) : (t.jobs.waits.map (·.ticket)).Nodup :=
  (List.nodup_append.1 (h.holds.perm.nodup_iff.2 h.holds.nodup)).2.1

theorem Sound.ticket_mem (h : Sound t) (hw : w ∈ t.jobs.waits) : w.ticket ∈ t.jobs.table.tickets :=
  h.holds.mem_tickets (List.mem_append_right _ (List.mem_map_of_mem hw))

theorem Sound.sole (h : Sound t) (hw : w ∈ t.jobs.waits) : t.jobs.core.Sole w where
  serial_lt := h.holds.serial_lt _ (h.ticket_mem hw)
  eq_of_mem v hv ht := List.inj_on_of_nodup_map h.nodup_waits hv hw ht
  handle_ne e he ht := by
    have hn := h.holds.perm.nodup_iff.2 h.holds.nodup
    have hhandle : e.2.ticket ∈ t.jobs.core.handles.map (·.2.ticket) := List.mem_map.2 ⟨e, he, rfl⟩
    have hwait : w.ticket ∈ t.jobs.core.waits.map (·.ticket) := List.mem_map.2 ⟨w, hw, rfl⟩
    exact (List.nodup_append.1 hn).2.2 _ hhandle _ hwait ht

theorem Sound.sole_step (h : Sound t) (hs : t.jobs.core.Sole w) (x : Dispatcher.Act) :
    (t.step x).jobs.core.Sole w :=
  hs.effect (t.jobs.act_effect x) (h.doesAll x).registered_le

theorem Sound.sole_after (h : Sound t) (hs : t.jobs.core.Sole w) (xs : List Dispatcher.Act) :
    (t.after xs).jobs.core.Sole w := by
  induction xs generalizing t with
  | nil => exact hs
  | cons x xs ih => exact ih (h.step x) (h.sole_step hs x)

/-- What a move of a wait does: it ends with its verdict, or goes on. -/
theorem Sound.act_move_wait (h : Sound t) (hw : w ∈ t.jobs.waits) (now : Nat) :
    t.jobs.act (.move now (.wait w.ticket)) =
      ((t.jobs.verdict? now w).map fun outcome =>
        { t.jobs with
          waits := t.jobs.waits.erase w
          table := t.jobs.table.drop w.ticket }.note w.label (.finished outcome)).getD t.jobs := by
  have hfind : t.jobs.waits.find? (·.ticket = w.ticket) = some w := find?_key_eq h.nodup_waits hw
  simp only [Dispatcher.act, Dispatcher.move?, Dispatcher.moveWait?, hfind, Option.bind_some]

end Trail

/-! ## The course of a limited wait -/

namespace Dispatcher

variable {s s' : Dispatcher} {ticket : Ticket}

/-- In a run the time of the wait for a registration is not over. -/
def Lasts (s : Dispatcher) (ticket : Ticket) : List Act → Prop
  | [] => True
  | x :: xs => ¬ s.Expires ticket x ∧ (s.act x).Lasts ticket xs

/-- An act in which a wait for a registration is answered, with what is reported: it ends, or it
does not begin because its limit is zero. -/
inductive EndsWait (s : Dispatcher) (ticket : Ticket) : Act → String × JobEvent → Prop
  | told {w : Wait} {now : Nat} {outcome : Except Error JobResult} (hw : w ∈ s.waits)
      (ht : w.ticket = ticket) (hv : s.verdict? now w = some outcome) :
      EndsWait s ticket (.move now (.wait ticket)) (w.label, .finished outcome)
  | rejected {label : String} {handle : JobHandle} {now : Nat} {limit : Duration}
      (hg : s.handles.get? label = some handle) (ht : handle.ticket = ticket)
      (hz : limit.isZero = true) :
      EndsWait s ticket (.wait now label (some limit))
        (label, .finished (.error (.invalidInput .timeoutZero)))

/-- How a limited wait ends that is polled at the end of its time, against what is reported of a
wait without limit in the same act. -/
inductive CutShort (label : String) (ticket : Ticket) (limit : Duration) :
    Labelled JobEvent → String × JobEvent → Prop
  | outcome (outcome : Except Error JobResult) :
      CutShort label ticket limit [(label, .finished outcome)] (label, .finished outcome)
  | timeout :
      CutShort label ticket limit []
        (label, .finished (.error (.jobTimeout ticket.path.text limit)))

/-- A state with a limited wait, against one with a wait without limit, followed by the same
acts. -/
structure CutsWait (label : String) (ticket : Ticket) (d : Deadline) (cut uncut : Dispatcher) :
    Prop where
  mem_cut : ⟨label, ticket, some d⟩ ∈ cut.waits
  mem_uncut : ⟨label, ticket, none⟩ ∈ uncut.waits
  /-- As long as its time is not over, all is the same apart from the agenda and the deadline: what
  is reported, what is sent, and the table. -/
  same : ∀ ys : List Act, cut.Lasts ticket ys → Alike ticket (ys.foldl act cut) (ys.foldl act uncut)
  /-- Its time is over at a poll at its deadline or later, if it has not ended before. -/
  expires_iff : ∀ (ys : List Act) (now : Nat),
    (ys.foldl act cut).Expires ticket (.move now (.wait ticket)) ↔
      (∃ w ∈ (ys.foldl act cut).waits, w.ticket = ticket) ∧ d.moment ≤ now
  /-- At such a poll it ends, as the other one does if that can end now, or else with the limit. -/
  deadline : ∀ (ys : List Act) (x : Act), cut.Lasts ticket ys →
    (ys.foldl act cut).Expires ticket x →
    ∃ told event, ((ys.foldl act uncut).act x).events = (ys.foldl act uncut).events ++ told ∧
      (ys.foldl act cut).EndsWait ticket x event ∧ CutShort label ticket d.limit told event

theorem Alike.exists_wait (h : Alike ticket s s') {w : Wait} (hw : w ∈ s.waits)
    (ht : w.ticket = ticket) : ∃ w' ∈ s'.waits, w'.ticket = ticket := by
  obtain ⟨waits, agenda, rfl, hmap⟩ := h
  have hm : w.unlimited ticket ∈ s.waits.map (·.unlimited ticket) := List.mem_map_of_mem hw
  rw [← hmap] at hm
  obtain ⟨w', hw', he⟩ := List.mem_map.1 hm
  refine ⟨w', hw', ?_⟩
  rw [← w'.ticket_unlimited ticket, he, w.ticket_unlimited, ht]

/-- A handle is used up for a wait, unless its limit is zero. -/
theorem act_wait {label : String} {handle : JobHandle} (hg : s.handles.get? label = some handle)
    (now : Nat) (limit : Option Duration) (hz : ∀ d ∈ limit, d.isZero = false) :
    s.act (.wait now label limit) =
      { s with
        handles := s.handles.remove label
        waits := s.waits ++
          [(⟨label, handle.ticket, limit.map fun d => ⟨d, now + d.toNanos⟩⟩ : Wait)] }.rouse
        (.wait handle.ticket) := by
  simp only [act, wait, hg]
  cases limit with
  | none => rfl
  | some d =>
    simp only [hz d rfl, Bool.false_eq_true, if_false]
    rfl

theorem mem_waits_act_wait {label : String} {handle : JobHandle}
    (hg : s.handles.get? label = some handle) (now : Nat) (limit : Option Duration)
    (hz : ∀ d ∈ limit, d.isZero = false) :
    (⟨label, handle.ticket, limit.map fun d => ⟨d, now + d.toNanos⟩⟩ : Wait) ∈
      (s.act (.wait now label limit)).waits := by
  rw [act_wait hg now limit hz]
  exact List.mem_append_right _ (List.mem_singleton_self _)

/-- At the beginning of a wait the limit is all that it adds. -/
theorem alike_act_wait {label : String} {handle : JobHandle}
    (hg : s.handles.get? label = some handle) (now : Nat) {limit : Duration}
    (hz : limit.isZero = false) :
    Alike handle.ticket (s.act (.wait now label (some limit))) (s.act (.wait now label none)) := by
  rw [act_wait hg now (some limit) (by simp [hz]), act_wait hg now none (by simp)]
  exact ⟨_, _, rfl, by simp [rouse, Wait.unlimited]⟩

/-- A wait without limit has all the time. -/
theorem not_expires {w : Wait} (h : s.core.Sole w) (hd : w.deadline = none) (x : Act) :
    ¬ s.Expires w.ticket x := by
  rintro ⟨now, -, v, hv, ht, ho⟩
  rw [h.eq_of_mem v hv ht, Wait.isOver, hd] at ho
  cases ho

theorem expires_iff {w : Wait} {d : Deadline} (h : s.core.Sole w) (hd : w.deadline = some d)
    (now : Nat) : s.Expires w.ticket (.move now (.wait w.ticket)) ↔
      (∃ v ∈ s.waits, v.ticket = w.ticket) ∧ d.moment ≤ now := by
  constructor
  · rintro ⟨now', hx, v, hv, ht, ho⟩
    cases hx
    rw [h.eq_of_mem v hv ht, Wait.isOver, hd] at ho
    exact ⟨⟨v, hv, ht⟩, of_decide_eq_true ho⟩
  · rintro ⟨⟨v, hv, ht⟩, hnow⟩
    refine ⟨now, rfl, v, hv, ht, ?_⟩
    rw [h.eq_of_mem v hv ht, Wait.isOver, hd]
    exact decide_eq_true hnow

end Dispatcher

namespace Trail

variable {t t' : Trail} {w : Wait} {ticket : Ticket} {label : String}

/-- As long as its time is not over, a run is the same with a limit and without. -/
theorem alike_after (h : Sound t) (h' : Sound t') (hs : t'.jobs.core.Sole w)
    (hd : w.deadline = none) (ha : Dispatcher.Alike w.ticket t.jobs t'.jobs)
    {ys : List Dispatcher.Act} (hy : t.jobs.Lasts w.ticket ys) :
    Dispatcher.Alike w.ticket (t.after ys).jobs (t'.after ys).jobs := by
  induction ys generalizing t t' with
  | nil => exact ha
  | cons y ys ih =>
    have hstep := ha.act hy.1 (Dispatcher.not_expires hs hd y)
    exact ih (h.step y) (h'.step y) (h'.sole_step hs y) hstep hy.2

/-- What is reported at the end of the time of a wait. -/
theorem cutShort_of_expires (h' : Sound t') {d : Deadline}
    (hs : t.jobs.core.Sole ⟨label, ticket, some d⟩) (hs' : t'.jobs.core.Sole ⟨label, ticket, none⟩)
    (ha : Dispatcher.Alike ticket t.jobs t'.jobs) {x : Dispatcher.Act}
    (hx : t.jobs.Expires ticket x) :
    ∃ told event, (t'.jobs.act x).events = t'.jobs.events ++ told ∧
      t.jobs.EndsWait ticket x event ∧ Dispatcher.CutShort label ticket d.limit told event := by
  obtain ⟨now, rfl, w, hw, ht, ho⟩ := hx
  obtain ⟨w', hw', ht'⟩ := ha.exists_wait hw ht
  obtain rfl := hs.eq_of_mem w hw ht
  obtain rfl := hs'.eq_of_mem w' hw' ht'
  have hnow : d.moment ≤ now := of_decide_eq_true ho
  rw [h'.act_move_wait hw' now]
  cases hout : t.jobs.table.outcome? ticket with
  | some outcome =>
    have hv : t.jobs.verdict? now ⟨label, ticket, some d⟩ = some outcome := by
      simp only [Dispatcher.verdict?, hout]
    have hv' : t'.jobs.verdict? now ⟨label, ticket, none⟩ = some outcome := by
      simp only [Dispatcher.verdict?, ha.table, hout]
    rw [hv']
    exact ⟨_, _, rfl, .told hw rfl hv, .outcome outcome⟩
  | none =>
    have hv : t.jobs.verdict? now ⟨label, ticket, some d⟩ =
        some (.error (.jobTimeout ticket.path.text d.limit)) := by
      simp only [Dispatcher.verdict?, hout, if_pos hnow]
    have hv' : t'.jobs.verdict? now ⟨label, ticket, none⟩ = none := by
      simp only [Dispatcher.verdict?, ha.table, hout]
    rw [hv']
    exact ⟨_, _, (List.append_nil _).symm, .told hw rfl hv, .timeout⟩

/-- A wait for a limited time is a wait that is cut at its deadline. -/
theorem Sound.cutsWait (h : Sound t) {handle : JobHandle} (now : Nat) {limit : Duration}
    (hg : t.jobs.handles.get? label = some handle) (hz : limit.isZero = false) :
    Dispatcher.CutsWait label handle.ticket ⟨limit, now + limit.toNanos⟩
      (t.jobs.act (.wait now label (some limit))) (t.jobs.act (.wait now label none)) := by
  have halike : Dispatcher.Alike handle.ticket (t.step (.wait now label (some limit))).jobs
      (t.step (.wait now label none)).jobs := Dispatcher.alike_act_wait hg now hz
  have hmem : ⟨label, handle.ticket, some ⟨limit, now + limit.toNanos⟩⟩ ∈
      (t.step (.wait now label (some limit))).jobs.waits :=
    Dispatcher.mem_waits_act_wait hg now (some limit) (by simp [hz])
  have hmem' : ⟨label, handle.ticket, none⟩ ∈ (t.step (.wait now label none)).jobs.waits :=
    Dispatcher.mem_waits_act_wait hg now none (by simp)
  have hsound := h.step (.wait now label (some limit))
  have hsound' := h.step (.wait now label none)
  have hsole := hsound.sole hmem
  have hsole' := hsound'.sole hmem'
  have hjobs : ∀ (x : Dispatcher.Act) ys, ys.foldl Dispatcher.act (t.jobs.act x) =
      ((t.step x).after ys).jobs := fun x ys => ((t.step x).jobs_after ys).symm
  have hafter : ∀ ys, (t.step (.wait now label (some limit))).jobs.Lasts handle.ticket ys →
      Dispatcher.Alike handle.ticket ((t.step (.wait now label (some limit))).after ys).jobs
        ((t.step (.wait now label none)).after ys).jobs :=
    fun ys hy => alike_after hsound hsound' hsole' rfl halike hy
  refine ⟨hmem, hmem', fun ys hy => ?_, fun ys later => ?_, fun ys x hy hx => ?_⟩
  · rw [hjobs, hjobs]
    exact hafter ys hy
  · rw [hjobs]
    exact Dispatcher.expires_iff (hsound.sole_after hsole ys) rfl later
  · rw [hjobs] at hx ⊢
    rw [hjobs]
    exact cutShort_of_expires (hsound'.after ys) (hsound.sole_after hsole ys)
      (hsound'.sole_after hsole' ys) (hafter ys hy) hx

/-! ## What is left of a wait -/

/-- The journal of a trail from its start records the table. -/
theorem records_after (capacity : Nat) (xs : List Dispatcher.Act) :
    Records ((start capacity).after xs).journal ((start capacity).after xs).jobs.table := by
  suffices hrun : ∀ t : Trail, Sound t → Records t.journal t.jobs.table →
      Records (t.after xs).journal (t.after xs).jobs.table from
    hrun _ (Sound.start capacity) records_nil
  induction xs with
  | nil => exact fun t _ hr => hr
  | cons x xs ih => exact fun t h hr => ih (t.step x) (h.step x) (hr.doesAll (h.doesAll x))

/-- The journal only grows. -/
theorem mem_journal_after {d : Deed} (h : d ∈ t.journal) (xs : List Dispatcher.Act) :
    d ∈ (t.after xs).journal := by
  induction xs generalizing t with
  | nil => exact h
  | cons x xs ih => exact ih (t := t.step x) (List.mem_append_left _ h)

/-- How a wait is answered, and what remains of its waiter. -/
theorem step_of_endsWait (h : Sound t) {x : Dispatcher.Act} {event : String × JobEvent}
    (hx : t.jobs.EndsWait ticket x event) :
    ticket ∈ t.jobs.table.tickets ∧ (t.step x).jobs.events = t.jobs.events ++ [event] ∧
      (t.step x).jobs.table = t.jobs.table.drop ticket := by
  cases hx with
  | @told w now outcome hw ht hv =>
    subst ht
    have hact := h.act_move_wait hw now
    rw [hv] at hact
    refine ⟨h.ticket_mem hw, ?_, ?_⟩
    · show (t.jobs.act (.move now (.wait w.ticket))).events = _
      rw [hact]
      rfl
    · show (t.jobs.act (.move now (.wait w.ticket))).table = _
      rw [hact]
      rfl
  | @rejected label handle now limit hg ht hz =>
    subst ht
    have hact : t.jobs.act (.wait now label (some limit)) =
        { t.jobs with
          handles := t.jobs.handles.remove label
          table := t.jobs.table.drop handle.ticket }.note label
            (.finished (.error (.invalidInput .timeoutZero))) := by
      simp only [Dispatcher.act, Dispatcher.wait, hg, hz, if_true]
    refine ⟨h.holds.mem_tickets ?_, ?_, ?_⟩
    · exact (Core.handles_perm hg).mem_iff.2 List.mem_cons_self
    · show (t.jobs.act (.wait now label (some limit))).events = _
      rw [hact]
      rfl
    · show (t.jobs.act (.wait now label (some limit))).table = _
      rw [hact]
      rfl

/-- In a run, a waiter whose wait is answered is taken out of the table, and has no part in signals
from then on. -/
theorem reclaims_of_endsWait (capacity : Nat) (xs : List Dispatcher.Act) {x : Dispatcher.Act}
    {event : String × JobEvent} :
    let t := (start capacity).after xs
    t.jobs.EndsWait ticket x event →
      (t.step x).jobs.events = t.jobs.events ++ [event] ∧
      Reclaims t.jobs.table ticket (t.step x).jobs.table ∧
      ∀ zs, Retired ((t.step x).after zs).journal ((t.step x).after zs).jobs.table ticket := by
  intro t hx
  obtain ⟨hl, hevents, htable⟩ := step_of_endsWait ((Sound.start capacity).after xs) hx
  have hrecords : Records t.journal t.jobs.table := records_after capacity xs
  have hr : .registered ticket ∈ t.journal := hrecords.registered_mem_of_mem hl
  have hafter : ∀ zs, (start capacity).after (xs ++ x :: zs) = (t.step x).after zs :=
    fun zs => after_append ..
  have hd : .dropped ticket ∈ (t.step x).journal := by
    have hstep := records_after capacity (xs ++ [x])
    rw [hafter []] at hstep
    refine hstep.dropped_mem (List.mem_append_left _ hr) ?_
    show ticket ∉ (t.step x).jobs.table.tickets
    rw [htable, tickets_drop]
    simp
  refine ⟨hevents, htable ▸ hrecords.reclaims hl, fun zs => ?_⟩
  have hlater := records_after capacity (xs ++ x :: zs)
  rw [hafter zs] at hlater
  exact hlater.retired (mem_journal_after (List.mem_append_left _ hr) zs)
    (mem_journal_after hd zs)

end Trail

/-! ## Any run -/

/-- In any run of a table, and in any run of the bus:

* a wait for a limited time goes on as one without limit until it is polled at the end of its time;
  then it ends, as that one would if it could end now, or else with its path and its limit;
* when a wait is answered, in whatever way, which on the bus may be the refusal of a limit of zero,
  its entry is gone and every other one is untouched; and a signal for its path that comes later is
  handed to a newer live registration if there is one, and is unknown otherwise. -/
theorem limited_wait_cut_and_reclaimed :
    (∀ (xs : List PollStep) (label : String) (number : Nat) (ticket : Ticket),
      let s := PolledTable.after {} xs
      s.activities.get? label = some ⟨number, .idle ticket⟩ → ∀ limit : Duration,
        PolledTable.CutsWait ticket limit (s.step (.waitFor label limit)) (s.step (.wait label)) ∧
        PolledTable.CutShort ticket limit (s.step (.wait label)).1
          (s.step (.waitWithin label limit)).1) ∧
    (∀ (xs : List PollStep) (ticket : Ticket) (x : PollStep) (outcome : Except Error JobResult),
      let s := PolledTable.after {} xs
      PollsWait s ticket x → (s.step x).1 = .polled (.finished outcome) →
        Reclaims s.table ticket (s.step x).2.table ∧
        ∀ zs, Retired (PolledTable.history {} (xs ++ x :: zs))
          (PolledTable.after {} (xs ++ x :: zs)).table ticket) ∧
    ∀ (capacity : Nat) (xs : List Dispatcher.Act),
      let t := (Trail.start capacity).after xs
      (∀ (label : String) (handle : JobHandle) (now : Nat) (limit : Duration),
        t.jobs.handles.get? label = some handle → limit.isZero = false →
          Dispatcher.CutsWait label handle.ticket ⟨limit, now + limit.toNanos⟩
            (t.jobs.act (.wait now label (some limit))) (t.jobs.act (.wait now label none))) ∧
      ∀ (ticket : Ticket) (x : Dispatcher.Act) (event : String × JobEvent),
        t.jobs.EndsWait ticket x event →
          (t.step x).jobs.events = t.jobs.events ++ [event] ∧
          Reclaims t.jobs.table ticket (t.step x).jobs.table ∧
          ∀ zs, Retired ((t.step x).after zs).journal ((t.step x).after zs).jobs.table ticket := by
  refine ⟨?course, ?ending, fun capacity xs => ⟨?_, fun ticket x event hx => ?_⟩⟩
  case course =>
    intro xs label number ticket s hg limit
    exact ⟨PolledTable.cutsWait (PolledTable.Held.start_empty.after xs) hg limit,
      PolledTable.cutShort_waitWithin hg limit⟩
  case ending =>
    intro xs ticket x outcome s hx ho
    have hl : ticket ∈ s.table.tickets :=
      (PolledTable.Held.start_empty.after xs).holds.mem_tickets hx.mem_tickets
    obtain ⟨hreclaims, hretired⟩ := PolledTable.reclaims_of_leaves hl (.told hx ho)
    rw [PolledTable.after_append] at hreclaims
    exact ⟨hreclaims, hretired⟩
  · exact fun label handle now limit hg hz =>
      ((Trail.Sound.start capacity).after xs).cutsWait now hg hz
  · exact Trail.reclaims_of_endsWait capacity xs hx

/-- A waiter that is superseded before its time is over, one whose time is over, and one whose limit
is zero; and what becomes of a later signal for their job. -/
theorem limited_wait_cut_and_reclaimed_three :
    let path : JobPath := ⟨"/job/1"⟩
    let ticket : Ticket := ⟨path, 0⟩
    let limit : Duration := .ofSecs 1
    let xs : List PollStep := [.register "a" (some (.ok path))]
    let ys : List PollStep := [.register "b" (some (.ok path))]
    let s := PolledTable.after {} (xs ++ .waitFor "a" limit :: ys)
    let calls : List Dispatcher.Act :=
      [.start "a" (.ok (.method .start "a.service" .replace)) [] false (.path path),
        .move 0 (.call 0), .move 0 (.call 0)]
    let poll : Dispatcher.Act := .move 0 (.wait ticket)
    let late : Dispatcher.Act := .move 1000000000 (.wait ticket)
    let rejected : Dispatcher.Act := .wait 0 "a" (some (.ofSecs 0))
    let t := (Trail.start 1).after calls
    let t' := (t.step (.wait 0 "a" (some limit))).step poll
    ((s.step (.expire "a")).1 = .polled (.finished (.error (.jobSuperseded "/job/1"))) ∧
      ((s.step (.expire "a")).2.table.resolve path .done).1 = .delivered) ∧
    ((t'.step late).jobs.events =
        t'.jobs.events ++ [("a", .finished (.error (.jobTimeout "/job/1" limit)))] ∧
      ((t'.step late).jobs.table.resolve path .done).1 = .unknown) ∧
    (t.step rejected).jobs.events =
        t.jobs.events ++ [("a", .finished (.error (.invalidInput .timeoutZero)))] ∧
      ((t.step rejected).jobs.table.resolve path .done).1 = .unknown := by
  intro path ticket limit xs ys s calls poll late rejected t t'
  obtain ⟨hcut, hends, hbus⟩ := limited_wait_cut_and_reclaimed
  refine ⟨?superseded, ?_⟩
  case superseded =>
    obtain ⟨⟨-, -, hdeadline⟩, -⟩ := hcut xs "a" 0 ticket rfl limit
    have hshort : PolledTable.CutShort ticket limit
        (.polled (.finished (.error (.jobSuperseded "/job/1")))) (s.step (.expire "a")).1 :=
      hdeadline ys "a" ⟨by simp [PolledTable.Expires], trivial⟩ rfl
    have hexpire : (s.step (.expire "a")).1 =
        .polled (.finished (.error (.jobSuperseded "/job/1"))) := by
      generalize (s.step (.expire "a")).1 = answer at hshort
      cases hshort
      rfl
    obtain ⟨-, hretired⟩ := hends _ ticket (.expire "a") _ (.expire rfl) hexpire
    have hnewer : ⟨⟨path, 1⟩, .pending⟩ ∈
        (PolledTable.after {} (xs ++ .waitFor "a" limit :: ys ++ [.expire "a"])).table.entries := by
      decide
    exact ⟨hexpire, congrArg Prod.fst ((hretired []).handed _ hnewer rfl rfl .done).1⟩
  have hget : t.jobs.handles.get? "a" = some ⟨"a.service", ticket⟩ := by
    decide +kernel +zetaReduce
  have hmem : ∃ w ∈ t'.jobs.waits, w.ticket = ticket := by decide +kernel +zetaReduce
  have hsilent : (((t.jobs.act (.wait 0 "a" none)).act poll).act late).events.length =
      ((t.jobs.act (.wait 0 "a" none)).act poll).events.length := by decide +kernel +zetaReduce
  have hlate : (t'.step late).jobs.table.closed = false ∧
      ∀ e ∈ (t'.step late).jobs.table.entries, e.ticket.path ≠ path := by
    decide +kernel +zetaReduce
  have hzero : (t.step rejected).jobs.table.closed = false ∧
      ∀ e ∈ (t.step rejected).jobs.table.entries, e.ticket.path ≠ path := by
    decide +kernel +zetaReduce
  have ht' : (Trail.start 1).after (calls ++ [.wait 0 "a" (some limit), poll]) = t' := by
    rw [Trail.after_append]
    rfl
  obtain ⟨hwait, hreject⟩ := hbus 1 calls
  obtain ⟨-, hanswer⟩ := hbus 1 (calls ++ [.wait 0 "a" (some limit), poll])
  rw [ht'] at hanswer
  rw [show (Trail.start 1).after calls = t from rfl] at hwait hreject
  clear_value t
  constructor
  · obtain ⟨-, -, -, hover, hdeadline⟩ := hwait "a" _ 0 limit hget rfl
    have hlasts : (t.jobs.act (.wait 0 "a" (some limit))).Lasts ticket [poll] :=
      ⟨fun h => absurd ((hover [] 0).1 h).2 (by decide), trivial⟩
    have hexpires : t'.jobs.Expires ticket late :=
      (hover [poll] 1000000000).2 ⟨hmem, by decide⟩
    obtain ⟨told, event, htold, hevent, hshort⟩ := hdeadline [poll] late hlasts hexpires
    have htold' : told = [] := by
      have hlength := congrArg List.length htold
      rw [List.length_append] at hlength
      exact List.length_eq_zero_iff.1 (Nat.add_eq_left.1 (hlength.symm.trans hsilent))
    subst htold'
    cases hshort
    obtain ⟨hevents, -, hretired⟩ := hanswer ticket late _ hevent
    exact ⟨hevents, congrArg Prod.fst ((hretired []).unknown hlate.1 hlate.2 .done)⟩
  · obtain ⟨hevents, -, hretired⟩ := hreject ticket rejected _ (.rejected hget rfl rfl)
    exact ⟨hevents, congrArg Prod.fst ((hretired []).unknown hzero.1 hzero.2 .done)⟩

end SystemdControl
