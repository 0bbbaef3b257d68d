import SystemdControl.Proofs.Job.Waits

/-!
# Who owns an entry

A table with fewer than `2 ^ 64` registrations holds exactly the live registrations that no newer
one of their path has replaced.

* `JobTable.Alive`: the live waiters are those that were registered and have not gone away, so a
  newest registration that is alive has its entry while the table is open (`Sound.mem_entries`);
* `PolledTable.TableChange` is all that one operation can do to the table, and with it what the end
  of a waiter does to the entries of others (`TableChange.mem_entries`);
* `Leaves` are the ways in which a waiter ends by being told or abandoned.
-/

namespace SystemdControl

namespace JobTable

/-! ## The live waiters -/

/-- The live waiters are those of the registrations that have not gone away. -/
def Alive (j : List Deed) (t : JobTable) : Prop :=
  ∀ ticket, ticket ∈ t.tickets ↔ .registered ticket ∈ j ∧ .dropped ticket ∉ j

theorem alive_nil : Alive [] {} := fun ticket => by simp [tickets]

theorem DoesAll.append {t t' t'' : JobTable} {ds ds' : List Deed} (h : DoesAll t ds t')
    (h' : DoesAll t' ds' t'') : DoesAll t (ds ++ ds') t'' := by
  induction h with
  | nil => exact h'
  | cons hd _ ih => exact .cons hd (ih h')

variable {j : List Deed} {t t' : JobTable} {ticket : Ticket}

theorem mem_entries_drop_iff {e : Entry} :
    e ∈ (t.drop ticket).entries ↔
      e ∈ t.entries ∧ ¬ (e.ticket.path = ticket.path ∧ e.ticket.id = ticket.id) := by
  simp [drop, List.mem_filter, imp_iff_not_or]

theorem Alive.does (h : Alive j t) (hs : Sound j t) {d : Deed} (hd : Does t d t') :
    Alive (j ++ [d]) t' := by
  intro ticket
  cases hd with
  | register path ho =>
    have hnew : .dropped ⟨path, t.registered⟩ ∉ j := fun hm => Nat.lt_irrefl _ (hs.dropped_lt _ hm)
    rw [tickets_register, List.mem_append, h ticket, List.mem_singleton]
    constructor
    · rintro (⟨hr, hg⟩ | rfl)
      · simp [hr, hg]
      · simp [hnew]
    · rintro ⟨hr, hg⟩
      simp only [List.mem_append, List.mem_singleton, Deed.registered.injEq, reduceCtorEq,
        or_false] at hr hg
      exact hr.imp_left (⟨·, hg⟩)
  | resolve path result =>
    rw [tickets_resolve, h ticket]
    simp
  | drop gone hl =>
    rw [tickets_drop, List.mem_filter, h ticket]
    simp [and_assoc]
  | close =>
    rw [tickets_close, h ticket]
    simp

theorem Alive.doesAll (h : Alive j t) (hs : Sound j t) {ds : List Deed} (hd : DoesAll t ds t') :
    Alive (j ++ ds) t' := by
  induction hd generalizing j with
  | nil => rwa [List.append_nil]
  | cons hd _ ih =>
    simpa only [List.append_assoc, List.singleton_append] using ih (h.does hs hd) (hs.does hd)

namespace Sound

theorem ticket_mem (h : Sound j t) {e : Entry} (he : e ∈ t.entries) : e.ticket ∈ t.tickets := by
  obtain ⟨w, hw, ht, -⟩ := h.owner e he
  exact ht ▸ List.mem_map_of_mem hw

/-- Path and number tell the live waiters apart. -/
theorem eq_of_id_eq (h : Sound j t) (hn : t.registered ≤ 2 ^ 64) {a b : Ticket}
    (ha : a ∈ t.tickets) (hb : b ∈ t.tickets) (hp : a.path = b.path) (hi : a.id = b.id) :
    a = b := by
  have ha' := h.serial_lt a ha
  have hb' := h.serial_lt b hb
  exact (Ticket.eq_iff_id_eq (by omega) (by omega)).2 ⟨hp, hi⟩

/-- While the table is open, a live waiter that was not superseded has its entry. -/
theorem mem_entries (h : Sound j t) (ha : Alive j t) (hn : t.registered ≤ 2 ^ 64)
    (ho : t.closed = false) (hl : ticket ∈ t.tickets) (hnew : Newest j ticket) :
    ticket ∈ t.entries.map (·.ticket) := by
  obtain ⟨hr, hg⟩ := (ha ticket).1 hl
  refine (h.entry_iff ticket).2 (hnew.mono fun d hd hs => ?_)
  rw [← h.ends_iff_removes hn hr hd] at hs
  cases d with
  | registered => exact hs
  | signalled => exact hs
  | dropped t' => exact absurd hd (hs ▸ hg)
  | closed => exact absurd (h.closed_iff.2 hd) (by simp [ho])

/-- The end of a waiter leaves the entries of all others. -/
theorem mem_entries_drop (h : Sound j t) (hn : t.registered ≤ 2 ^ 64) (hl : ticket ∈ t.tickets)
    {e : Entry} (he : e ∈ t.entries) (hne : e.ticket ≠ ticket) : e ∈ (t.drop ticket).entries :=
  mem_entries_drop_iff.2
    ⟨he, fun ⟨hp, hi⟩ => hne (h.eq_of_id_eq hn (h.ticket_mem he) hl hp hi)⟩

end Sound

end JobTable

open JobTable

namespace PolledTable

variable {s : PolledTable} {label : String} {ticket : Ticket}

/-! ## Runs -/

theorem Held.doesAll_history (h : Held s) (xs : List PollStep) :
    DoesAll s.table (s.history xs) (s.after xs).table := by
  induction xs generalizing s with
  | nil => exact .nil _
  | cons x xs ih =>
    obtain ⟨hh, hd⟩ := h.step x
    exact hd.append (ih hh)

theorem alive_after (xs : List PollStep) : Alive (history {} xs) (after {} xs).table :=
  alive_nil.doesAll sound_nil (Held.start_empty.doesAll_history xs)

/-- A live waiter is under some label, idle or waited for. -/
theorem Held.mem_tickets_iff (h : Held s) :
    ticket ∈ s.table.tickets ↔ ∃ label, s.ticketAt label = some ticket := by
  rw [← h.holds.perm.mem_iff]
  constructor
  · intro hm
    obtain ⟨⟨label, number, a⟩, he, ht⟩ := List.mem_filterMap.1 hm
    have hg : s.activities.get? label = some ⟨number, a⟩ := Labelled.get?_of_mem h.labels he
    exact ⟨label, by simpa [ticketAt, hg] using ht⟩
  · rintro ⟨label, ht⟩
    refine (s.tickets_perm label).mem_iff.2 (List.mem_append_left _ ?_)
    simp [ht]

/-- No waiter is under two labels. -/
theorem Held.label_eq (h : Held s) {other : String} (ht : s.ticketAt label = some ticket)
    (ho : s.ticketAt other = some ticket) : other = label := by
  by_contra hne
  have hsame : (s.forget label).ticketAt other = s.ticketAt other := by
    simp only [ticketAt, forget, Labelled.get?_remove_of_ne s.activities (Ne.symm hne)]
  have hrest : ticket ∈ (s.forget label).tickets := by
    refine ((s.forget label).tickets_perm other).mem_iff.2 (List.mem_append_left _ ?_)
    simp [hsame, ho]
  have hnodup : s.tickets.Nodup := h.holds.perm.nodup_iff.2 h.holds.nodup
  rw [(s.tickets_perm label).nodup_iff, ht] at hnodup
  exact (List.nodup_cons.1 hnodup).1 hrest

/-! ## What an operation does to the table -/

/-- All that one operation can do to the table. -/
inductive TableChange (t : JobTable) : JobTable → Prop
  | stay : TableChange t t
  /-- A registration is entered; the waiter that was under its label goes away. -/
  | register (path : JobPath) (gone : Option Ticket) :
      TableChange t (gone.elim (t.register path).2 (t.register path).2.drop)
  | resolve (path : JobPath) (result : JobResult) : TableChange t (t.resolve path result).2
  | drop (ticket : Ticket) : TableChange t (t.drop ticket)
  | close : TableChange t t.close

namespace TableChange

variable {t t' : JobTable}

theorem of_effect {a : Activity} {answer : PollAnswer} {rest : Option Activity}
    (e : Effect t a answer rest t') : TableChange t t' := by
  cases e with
  | stay => exact .stay
  | register path => exact .register path none
  | resolve path result => exact .resolve path result
  | finish ticket => exact .drop ticket

theorem drop? (t : JobTable) (gone : Option Ticket) : TableChange t (gone.elim t t.drop) := by
  cases gone with
  | none => exact .stay
  | some ticket => exact .drop ticket

end TableChange

theorem start_change (s : PolledTable) (label : String) (a : Activity) :
    TableChange s.table (s.start label a).2.table := by
  have e := { s with begun := s.begun + 1 }.attempt_effect s.begun a
  simp only [start]
  generalize { s with begun := s.begun + 1 }.attempt s.begun a = r at e ⊢
  obtain ⟨answer, rest, s'⟩ := r
  simp only at e ⊢
  cases rest with
  | none => exact .of_effect e
  | some b =>
    show TableChange s.table (s'.drop label).2.table
    rw [table_drop]
    generalize s'.ticketAt label = gone
    generalize s'.table = t' at e
    cases e with
    | stay => exact .drop? s.table gone
    | register path => exact .register path gone

theorem poll_table {number : Nat} {a : Activity}
    (hg : s.activities.get? label = some ⟨number, a⟩) :
    (s.poll label).2.table = (s.attempt number a).2.2.table := by
  simp only [poll, hg]
  generalize s.attempt number a = r
  obtain ⟨answer, rest, s'⟩ := r
  cases rest <;> rfl

theorem poll_change (s : PolledTable) (label : String) :
    TableChange s.table (s.poll label).2.table := by
  cases hg : s.activities.get? label with
  | none =>
    simp only [poll, hg]
    exact .stay
  | some x =>
    rw [poll_table hg]
    exact .of_effect (s.attempt_effect x.number x.activity)

theorem beginWait_change (s : PolledTable) (label : String) (limit : Option Duration) :
    TableChange s.table (s.beginWait label limit).2.table := by
  simp only [beginWait]
  split
  · rename_i number ticket _
    exact (s.put label number (.waiting ticket limit)).poll_change label
  · exact .stay

theorem step_change (s : PolledTable) (x : PollStep) :
    TableChange s.table (s.step x).2.table := by
  cases x with
  | register label reply => exact s.start_change label _
  | resolve label path result => exact s.start_change label _
  | poll label => exact s.poll_change label
  | wait label => exact s.beginWait_change label none
  | waitFor label limit => exact s.beginWait_change label (some limit)
  | drop label =>
    show TableChange s.table (s.drop label).2.table
    rw [table_drop]
    exact .drop? s.table _
  | close => exact .close
  | answer label reply =>
    simp only [step, answer]
    split <;> exact .stay
  | expire label =>
    simp only [step, expire]
    split
    · exact .drop _
    · exact .stay
  | waitWithin label limit =>
    simp only [step, waitWithin]
    split
    · exact .drop _
    · exact .stay

/-- An operation by which a waiter ends leaves the entry of every other one, unless it enters a
newer registration of its path. -/
theorem TableChange.mem_entries {j : List Deed} {t t' : JobTable} (e : TableChange t t')
    (h : Sound j t) (hn : t.registered ≤ 2 ^ 64) (hl : ticket ∈ t.tickets)
    (hgone : ticket ∉ t'.tickets) {a : Entry} (ha : a ∈ t.entries) (hne : a.ticket ≠ ticket) :
    a ∈ t'.entries ∨ ⟨a.ticket.path, t.registered⟩ ∈ t'.tickets := by
  cases e with
  | stay => exact absurd hl hgone
  | resolve path result =>
    rw [tickets_resolve] at hgone
    exact absurd hl hgone
  | close => exact absurd hl hgone
  | drop gone =>
    rw [tickets_drop, List.mem_filter, not_and] at hgone
    obtain rfl : ticket = gone := by simpa using hgone hl
    exact .inl (h.mem_entries_drop hn hl ha hne)
  | register path gone =>
    cases gone with
    | none =>
      refine absurd ?_ hgone
      rw [Option.elim_none, tickets_register]
      exact List.mem_append_left _ hl
    | some gone =>
      rw [Option.elim_some, tickets_drop, tickets_register] at hgone
      rw [List.mem_filter, List.mem_append, not_and] at hgone
      obtain rfl : ticket = gone := by simpa using hgone (.inl hl)
      by_cases hp : a.ticket.path = path
      · refine .inr ?_
        have hnew : (⟨path, t.registered⟩ : Ticket) ≠ ticket :=
          fun he => h.next_not_mem path (he ▸ hl)
        rw [Option.elim_some, tickets_drop, tickets_register, hp]
        simp [hnew]
      · have hkeep : a ∈ (t.register path).2.entries := by
          refine List.mem_cons_of_mem _ (List.mem_filter.2 ⟨ha, ?_⟩)
          simpa using hp
        refine .inl (mem_entries_drop_iff.2 ⟨hkeep, fun ⟨hp', hi⟩ => ?_⟩)
        exact hne (h.eq_of_id_eq hn (h.ticket_mem ha) hl hp' hi)

end PolledTable

/-! ## How a waiter ends -/

/-- An operation by which a waiter ends: it is told a result, an error or that its time is over, or
it is abandoned, waited for or not. -/
inductive Leaves (s : PolledTable) (ticket : Ticket) : PollStep → Prop
  | told {x : PollStep} {outcome : Except Error JobResult} (h : PollsWait s ticket x)
      (ho : (s.step x).1 = .polled (.finished outcome)) : Leaves s ticket x
  | dropped {label : String} (h : s.ticketAt label = some ticket) : Leaves s ticket (.drop label)

section

variable {s : PolledTable} {ticket : Ticket} {x : PollStep}

theorem PolledTable.attempt_waiting_table {number : Nat} {limit : Option Duration}
    {outcome : Except Error JobResult}
    (ho : (s.attempt number (.waiting ticket limit)).1 = .finished outcome) :
    (s.attempt number (.waiting ticket limit)).2.2.table = s.table.drop ticket := by
  simp only [PolledTable.attempt] at ho ⊢
  cases hout : s.table.outcome? ticket with
  | none =>
    rw [hout] at ho
    cases ho
  | some outcome => rfl

theorem PolledTable.poll_waiting_table {label : String} {number : Nat} {limit : Option Duration}
    {outcome : Except Error JobResult}
    (hg : s.activities.get? label = some ⟨number, .waiting ticket limit⟩)
    (ho : (s.poll label).1 = .finished outcome) :
    (s.poll label).2.table = s.table.drop ticket := by
  rw [PolledTable.poll_fst hg] at ho
  rw [PolledTable.poll_table hg, PolledTable.attempt_waiting_table ho]

/-- A waiter that is told its outcome is gone. -/
theorem PollsWait.table_of_finished (h : PollsWait s ticket x) {outcome : Except Error JobResult}
    (ho : (s.step x).1 = .polled (.finished outcome)) :
    (s.step x).2.table = s.table.drop ticket := by
  have hbegin : ∀ {label number} (limit : Option Duration),
      s.activities.get? label = some ⟨number, .idle ticket⟩ →
      (s.beginWait label limit).1 = .finished outcome →
      (s.beginWait label limit).2.table = s.table.drop ticket := by
    intro label number limit hg hb
    simp only [PolledTable.beginWait, hg] at hb ⊢
    exact PolledTable.poll_waiting_table (s := s.put label number (.waiting ticket limit))
      (s.get?_put label number _) hb
  cases h with
  | wait hg => exact hbegin none hg (StepAnswer.polled.inj ho)
  | waitFor hg limit => exact hbegin (some limit) hg (StepAnswer.polled.inj ho)
  | poll hg => exact PolledTable.poll_waiting_table hg (StepAnswer.polled.inj ho)
  | waitWithin hg => simp [PolledTable.step, PolledTable.waitWithin, hg, outcomeWithin]
  | expire hg => simp [PolledTable.step, PolledTable.expire, hg, outcomeWithin]

theorem Leaves.table_eq (h : Leaves s ticket x) :
    (s.step x).2.table = s.table.drop ticket := by
  cases h with
  | told h ho => exact h.table_of_finished ho
  | @dropped label h =>
    show (s.drop label).2.table = _
    rw [PolledTable.table_drop, h, Option.elim_some]

end

namespace PolledTable

/-- At any moment of a run with at most `2 ^ 64` registrations:

* there is one entry per path at most. It belongs to the one live waiter that has its path and its
  number, and is the newest registration of that path; it is pending as long as the inbox of that
  waiter is empty, and resolved once that holds a result;
* while the table is open, every live waiter that was not superseded has its entry;
* when a waiter ends, in whatever way, its own entry is gone, and every other one stays unless that
  operation enters a newer registration of its path. -/
theorem entries_iff_live_newest (xs : List PollStep)
    (hn : (after {} xs).table.registered ≤ 2 ^ 64) :
    let s := after {} xs
    (s.table.entries.map (·.ticket.path)).Nodup ∧
    (∀ e ∈ s.table.entries, (∃! label, s.ticketAt label = some e.ticket) ∧
      Newest (history {} xs) e.ticket ∧
      ∃ w ∈ s.table.waiters, w.ticket = e.ticket ∧
        (∀ v ∈ s.table.waiters, v.ticket.path = e.ticket.path → v.ticket.id = e.ticket.id → v = w) ∧
        (e.slot = .pending ↔ w.inbox = none) ∧ (e.slot = .resolved ↔ ∃ r, w.inbox = some r)) ∧
    (s.table.closed = false → ∀ label ticket, s.ticketAt label = some ticket →
      Newest (history {} xs) ticket → ticket ∈ s.table.entries.map (·.ticket)) ∧
    ∀ label ticket, s.ticketAt label = some ticket → ∀ x,
      let s' := (s.step x).2
      (Leaves s ticket x → ∀ other, s'.ticketAt other ≠ some ticket) ∧
      ((∀ other, s'.ticketAt other ≠ some ticket) →
        ticket ∉ s'.table.entries.map (·.ticket) ∧
        ∀ e ∈ s.table.entries, e.ticket ≠ ticket → e ∈ s'.table.entries ∨
          ∃ other, s'.ticketAt other = some ⟨e.ticket.path, s.table.registered⟩) := by
  intro s
  have hs : Sound (history {} xs) s.table := sound_after xs
  have hh : s.Held := Held.start_empty.after xs
  refine ⟨hs.paths, fun e he => ⟨?_, (hs.current he).newest, ?_⟩, fun ho label ticket ht hnew => ?_,
    fun label ticket ht x =>
      ⟨fun hx other ho => ?_, fun hgone => ⟨fun hm => ?_, fun e he hne => ?_⟩⟩⟩
  · obtain ⟨label, ht⟩ := hh.mem_tickets_iff.1 (hs.ticket_mem he)
    exact ⟨label, ht, fun other ho => hh.label_eq ht ho⟩
  · obtain ⟨w, hw, ht, hi⟩ := hs.owner e he
    refine ⟨w, hw, ht, fun v hv hp hid => ?_, hi, ?_⟩
    · have hv' : v.ticket ∈ s.table.tickets := List.mem_map_of_mem hv
      have hvw := hs.eq_of_id_eq hn hv' (hs.ticket_mem he) hp hid
      exact hs.waiter_eq hv hw (hvw.trans ht.symm)
    · rw [← Option.ne_none_iff_exists', ne_eq, ← hi]
      cases e.slot <;> simp
  · exact hs.mem_entries (alive_after xs) hn ho (hh.mem_tickets_iff.2 ⟨label, ht⟩) hnew
  · have hm : ticket ∈ (s.step x).2.table.tickets := (hh.step x).1.mem_tickets_iff.2 ⟨other, ho⟩
    rw [hx.table_eq, tickets_drop, List.mem_filter] at hm
    simp at hm
  · have hs' : Sound _ (s.step x).2.table := hs.doesAll (hh.step x).2
    obtain ⟨e, he, rfl⟩ := List.mem_map.1 hm
    obtain ⟨other, ho⟩ := (hh.step x).1.mem_tickets_iff.1 (hs'.ticket_mem he)
    exact hgone other ho
  · have hl : ticket ∈ s.table.tickets := hh.mem_tickets_iff.2 ⟨label, ht⟩
    have hl' : ticket ∉ (s.step x).2.table.tickets := fun hm => by
      obtain ⟨other, ho⟩ := (hh.step x).1.mem_tickets_iff.1 hm
      exact hgone other ho
    refine ((s.step_change x).mem_entries hs hn hl hl' he hne).imp_right fun hm => ?_
    exact (hh.step x).1.mem_tickets_iff.1 hm

/-- A superseded waiter goes away after the newer one of its path got its result. -/
theorem entries_iff_live_newest_superseded :
    let path : JobPath := ⟨"/job/1"⟩
    let xs : List PollStep :=
      [.register "a" (some (.ok path)), .register "b" (some (.ok path)), .resolve "s" path .done]
    let s := after {} xs
    let newer : Entry := ⟨⟨path, 1⟩, .resolved⟩
    s.table.registered ≤ 2 ^ 64 ∧ s.table.closed = false ∧
      s.ticketAt "a" = some ⟨path, 0⟩ ∧ s.ticketAt "b" = some ⟨path, 1⟩ ∧
      newer ∈ s.table.entries ∧ Newest (history {} xs) newer.ticket ∧
      (∃ w ∈ s.table.waiters, w.ticket = newer.ticket ∧ ∃ r, w.inbox = some r) ∧
      Leaves s ⟨path, 0⟩ (.drop "a") ∧ newer ∈ (s.step (.drop "a")).2.table.entries := by
  intro path xs s newer
  have hn : s.table.registered ≤ 2 ^ 64 := by decide
  have ha : s.ticketAt "a" = some ⟨path, 0⟩ := by decide
  have hnewer : newer ∈ s.table.entries := by decide
  have hleaves : Leaves s ⟨path, 0⟩ (.drop "a") := .dropped ha
  obtain ⟨-, hentry, -, hstep⟩ := entries_iff_live_newest xs hn
  obtain ⟨-, hnewest, w, hw, ht, -, -, hi⟩ := hentry newer hnewer
  obtain ⟨hends, hothers⟩ := hstep "a" _ ha (.drop "a")
  have hkept := (hothers (hends hleaves)).2 newer hnewer (by decide)
  refine ⟨hn, by decide, ha, by decide, hnewer, hnewest, ⟨w, hw, ht, hi.1 rfl⟩, hleaves, ?_⟩
  have hheld : Held (s.step (.drop "a")).2 := ((Held.start_empty.after xs).step _).1
  exact hkept.resolve_right fun hm => absurd (hheld.mem_tickets_iff.2 hm) (by decide)

end PolledTable

end SystemdControl
