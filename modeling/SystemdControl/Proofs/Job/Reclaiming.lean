import SystemdControl.Proofs.Job.Ownership

/-!
# Entries that are reclaimed

The end of a waiter takes its own entry away and no other one, and from then on a signal for its job
is the affair of a newer registration of that path, or of nobody.

* `JobTable.Records`: a journal from the start of a table, in which the registrations are numbered
  in the order in which they were made;
* `JobTable.Reclaims` is what the end of a waiter does to a table (`Records.reclaims`);
* `JobTable.Retired` is what becomes of the signals that come later (`Records.retired`).

Path and number of an entry are all that a table goes by; so what is said of entries needs no bound
on the number of registrations, as long as it is said in terms of these two.
-/

namespace SystemdControl

/-- The number of a registration. -/
def Deed.serial? : Deed → Option Nat
  | registered ticket => some ticket.serial
  | _ => none

namespace JobTable

/-! ## Journals from the start -/

/-- The numbers of the registrations, in the order in which they were made. -/
def serials (j : List Deed) : List Nat :=
  j.filterMap Deed.serial?

/-- A journal from the start of a table: the table shows it, the live waiters are those of it, and
the registrations are numbered in order. -/
structure Records (j : List Deed) (t : JobTable) : Prop extends Sound j t where
  alive : Alive j t
  serials_eq : serials j = List.range t.registered

variable {j before after : List Deed} {t t' : JobTable} {ticket a b : Ticket}

theorem serials_does {d : Deed} (h : serials j = List.range t.registered) (hd : Does t d t') :
    serials (j ++ [d]) = List.range t'.registered := by
  rw [serials, List.filterMap_append, ← serials, h]
  cases hd with
  | register path => exact List.range_succ.symm
  | resolve path result => simp [Deed.serial?]
  | drop | close => exact List.append_nil _

/-- Registrations are counted for good. -/
theorem DoesAll.registered_le {ds : List Deed} (h : DoesAll t ds t') :
    t.registered ≤ t'.registered := by
  induction h with
  | nil => exact Nat.le_refl _
  | cons hd _ ih =>
    refine Nat.le_trans ?_ ih
    cases hd with
    | register path => exact Nat.le_succ _
    | resolve path result => exact Nat.le_of_eq (registered_resolve ..).symm
    | drop | close => exact Nat.le_refl _

theorem records_nil : Records [] {} :=
  ⟨sound_nil, alive_nil, rfl⟩

theorem Records.doesAll (h : Records j t) {ds : List Deed} (hd : DoesAll t ds t') :
    Records (j ++ ds) t' := by
  refine ⟨h.toSound.doesAll hd, h.alive.doesAll h.toSound hd, ?_⟩
  have hs := h.serials_eq
  clear h
  induction hd generalizing j with
  | nil => rwa [List.append_nil]
  | cons hd _ ih =>
    simpa only [List.append_assoc, List.singleton_append] using ih (serials_does hs hd)

namespace Records

/-- A registration is before another one if and only if its number is smaller. -/
theorem serial_cases (h : Records (before ++ .registered b :: after) t)
    (ha : .registered a ∈ before ++ .registered b :: after) :
    a.serial < b.serial ∨ a = b ∨ b.serial < a.serial ∧ .registered a ∈ after := by
  have hserials : serials before ++ b.serial :: serials after = List.range t.registered := by
    rw [← h.serials_eq, serials, serials, serials, List.filterMap_append]
    rfl
  have hmem : ∀ {l : List Deed}, .registered a ∈ l → a.serial ∈ serials l := fun hm =>
    List.mem_filterMap.2 ⟨_, hm, rfl⟩
  have hlt : (serials before ++ b.serial :: serials after).Pairwise (· < ·) :=
    hserials ▸ List.pairwise_lt_range
  obtain ⟨-, hafter, hbefore⟩ := List.pairwise_append.1 hlt
  rcases List.mem_append.1 ha with ha | ha
  · exact .inl (hbefore _ (hmem ha) _ List.mem_cons_self)
  · rcases List.mem_cons.1 ha with ha | ha
    · exact .inr (.inl (Deed.registered.inj ha))
    · exact .inr (.inr ⟨List.rel_of_pairwise_cons hafter (hmem ha), ha⟩)

/-- The number of a registration tells which one it is. -/
theorem eq_of_serial_eq (h : Records j t) (ha : .registered a ∈ j) (hb : .registered b ∈ j)
    (hs : a.serial = b.serial) : a = b := by
  obtain ⟨before, after, rfl⟩ := List.append_of_mem hb
  rcases h.serial_cases ha with hlt | rfl | ⟨hlt, -⟩
  · omega
  · rfl
  · omega

/-- The most recent registration of a path has the largest number. -/
theorem serial_lt_of_newest (h : Records j t) (hb : Newest j b) (ha : .registered a ∈ j)
    (hp : a.path = b.path) (hne : a ≠ b) : a.serial < b.serial := by
  obtain ⟨before, after, rfl, hlast⟩ := hb
  rcases h.serial_cases ha with hlt | rfl | ⟨-, hm⟩
  · exact hlt
  · exact absurd rfl hne
  · exact absurd hp (hlast _ hm)

theorem registered_mem_of_mem (h : Records j t) (hl : ticket ∈ t.tickets) :
    .registered ticket ∈ j :=
  ((h.alive ticket).1 hl).1

/-- A registration without a live waiter has lost it. -/
theorem dropped_mem (h : Records j t) (hr : .registered ticket ∈ j) (hl : ticket ∉ t.tickets) :
    .dropped ticket ∈ j := by
  by_contra hd
  exact hl ((h.alive ticket).2 ⟨hr, hd⟩)

/-- While the table is open, the entries are those of the live waiters that were not superseded. -/
theorem mem_entries_iff (h : Records j t) (hn : t.registered ≤ 2 ^ 64) (ho : t.closed = false) :
    ticket ∈ t.entries.map (·.ticket) ↔ ticket ∈ t.tickets ∧ Newest j ticket := by
  constructor
  · intro hm
    obtain ⟨e, he, rfl⟩ := List.mem_map.1 hm
    exact ⟨h.ticket_mem he, (h.current he).newest⟩
  · rintro ⟨hl, hnew⟩
    exact h.toSound.mem_entries h.alive hn ho hl hnew

end Records

/-! ## The end of a waiter -/

/-- A waiter and its entry are taken out of a table. -/
structure Reclaims (t : JobTable) (ticket : Ticket) (t' : JobTable) : Prop where
  /-- Of the path of the waiter no entry has its number. -/
  gone : ∀ e ∈ t'.entries, e.ticket.path = ticket.path → e.ticket.id ≠ ticket.id
  /-- An entry of another path or with another number is untouched. -/
  kept : ∀ e, e.ticket.path ≠ ticket.path ∨ e.ticket.id ≠ ticket.id →
    (e ∈ t'.entries ↔ e ∈ t.entries)
  /-- Among fewer than `2 ^ 64` registrations no entry at all has its number. -/
  id_ne : t.registered ≤ 2 ^ 64 → ∀ e ∈ t'.entries, e.ticket.id ≠ ticket.id
  /-- And the entries of all other registrations are untouched. -/
  entries_eq : t.registered ≤ 2 ^ 64 → t'.entries = t.entries.filter (·.ticket ≠ ticket)
  waiters_eq : t'.waiters = t.waiters.filter (·.ticket ≠ ticket)
  closed_eq : t'.closed = t.closed

/-- The end of a live waiter, in whatever way it comes. -/
theorem Records.reclaims (h : Records j t) (hl : ticket ∈ t.tickets) :
    Reclaims t ticket (t.drop ticket) where
  gone e he hp hi := (mem_entries_drop_iff.1 he).2 ⟨hp, hi⟩
  kept e hne := by
    rw [mem_entries_drop_iff]
    exact ⟨And.left, fun he => ⟨he, fun ⟨hp, hi⟩ => hne.elim (· hp) (· hi)⟩⟩
  id_ne hn e he hi := by
    obtain ⟨he, hother⟩ := mem_entries_drop_iff.1 he
    have hm := h.ticket_mem he
    have hlt := h.serial_lt _ hm
    have hlt' := h.serial_lt _ hl
    have hserial : e.ticket.serial = ticket.serial := by
      have := congrArg UInt64.toNat hi
      simp only [Ticket.id, UInt64.toNat_ofNat'] at this
      rwa [Nat.mod_eq_of_lt (by omega), Nat.mod_eq_of_lt (by omega)] at this
    have heq := h.eq_of_serial_eq (h.registered_mem_of_mem hm) (h.registered_mem_of_mem hl) hserial
    exact hother ⟨congrArg Ticket.path heq, hi⟩
  entries_eq hn := by
    refine List.filter_congr fun e he => ?_
    rw [Bool.eq_iff_iff]
    simp only [Bool.not_eq_true', Bool.and_eq_false_imp, decide_eq_true_eq, decide_eq_false_iff_not,
      ne_eq]
    constructor
    · rintro hne rfl
      exact hne rfl rfl
    · exact fun hne hp hi => hne (h.eq_of_id_eq hn (h.ticket_mem he) hl hp hi)
  waiters_eq := rfl
  closed_eq := rfl

/-! ## Signals that come later -/

/-- What becomes of the signals for the job of a registration whose waiter has gone. -/
structure Retired (j : List Deed) (t : JobTable) (ticket : Ticket) : Prop where
  /-- While the table is open, the entry of its path is that of the most recent registration of the
  path, if the waiter of that is alive. -/
  entry_iff : t.registered ≤ 2 ^ 64 → t.closed = false → ∀ newer : Ticket,
    newer.path = ticket.path →
      (newer ∈ t.entries.map (·.ticket) ↔ newer ∈ t.tickets ∧ Newest j newer)
  /-- Such a registration is newer. -/
  newer : ∀ e ∈ t.entries, e.ticket.path = ticket.path →
    e.ticket ∈ t.tickets ∧ ticket.serial < e.ticket.serial
  /-- It is handed the signal. -/
  handed : ∀ e ∈ t.entries, e.ticket.path = ticket.path → e.slot = .pending → ∀ result,
    t.resolve ticket.path result = (.delivered, t.deliver e.ticket result) ∧
      (t.deliver e.ticket result).outcome? e.ticket = some (.ok result)
  /-- One that was handed a signal before does not take a second one. -/
  again : ∀ e ∈ t.entries, e.ticket.path = ticket.path → e.slot = .resolved → ∀ result,
    t.resolve ticket.path result = (.alreadyResolved, t) ∧
      ∃ first, t.outcome? e.ticket = some (.ok first)
  /-- Without such a registration the signal is unknown. -/
  unknown : t.closed = false → (∀ e ∈ t.entries, e.ticket.path ≠ ticket.path) → ∀ result,
    t.resolve ticket.path result = (.unknown, t)
  closed : t.closed = true → ∀ result, t.resolve ticket.path result = (.closed, t)

namespace Sound

/-- A signal for a pending entry is handed to its waiter. -/
theorem resolve_pending (h : Sound j t) {e : Entry} (he : e ∈ t.entries) (hs : e.slot = .pending)
    (result : JobResult) :
    t.resolve e.ticket.path result = (.delivered, t.deliver e.ticket result) ∧
      (t.deliver e.ticket result).outcome? e.ticket = some (.ok result) := by
  obtain ⟨ticket, slot⟩ := e
  cases (show slot = .pending from hs)
  have ho : ¬ t.closed = true := fun hc => by simp [h.empty hc] at he
  refine ⟨by rw [JobTable.resolve, if_neg ho, h.entry?_eq he], ?_⟩
  have hl : ticket ∈ (t.deliver ticket result).tickets := by
    rw [tickets_deliver]
    exact h.ticket_mem he
  refine ((h.deliver result he).outcome?_ok_iff hl result).2 ?_
  exact firstResult_concat.2 (.inr ⟨rfl, h.pending_mem_iff.1 he⟩)

/-- A signal for a resolved entry changes nothing, and the waiter keeps what it was handed. -/
theorem resolve_resolved (h : Sound j t) {e : Entry} (he : e ∈ t.entries) (hs : e.slot = .resolved)
    (result : JobResult) :
    t.resolve e.ticket.path result = (.alreadyResolved, t) ∧
      ∃ first, t.outcome? e.ticket = some (.ok first) := by
  obtain ⟨ticket, slot⟩ := e
  cases (show slot = .resolved from hs)
  have ho : ¬ t.closed = true := fun hc => by simp [h.empty hc] at he
  refine ⟨by rw [JobTable.resolve, if_neg ho, h.entry?_eq he], ?_⟩
  obtain ⟨w, hw, ht, hi⟩ := h.owner _ he
  obtain ⟨first, hfirst⟩ := Option.ne_none_iff_exists'.1 fun hnone => absurd (hi.2 hnone) (by simp)
  refine ⟨first, ?_⟩
  rw [outcome?, ← ht, h.waiter?_eq hw, Option.bind_some, hfirst]

end Sound

/-- After the end of its waiter a registration has no part in signals any more. -/
theorem Records.retired (h : Records j t) (hr : .registered ticket ∈ j)
    (hd : .dropped ticket ∈ j) : Retired j t ticket where
  entry_iff hn ho _ _ := h.mem_entries_iff hn ho
  newer e he hp := by
    have hl := h.ticket_mem he
    refine ⟨hl, h.serial_lt_of_newest (h.current he).newest hr hp.symm ?_⟩
    rintro rfl
    exact ((h.alive e.ticket).1 hl).2 hd
  handed e he hp hs result := hp ▸ h.resolve_pending he hs result
  again e he hp hs result := hp ▸ h.resolve_resolved he hs result
  unknown ho hn result := by
    have hnone : t.entry? ticket.path = none :=
      List.find?_eq_none.2 fun e he => by simpa using hn e he
    rw [JobTable.resolve, hnone, if_neg (by simp [ho])]
  closed hc result := by rw [JobTable.resolve, if_pos hc]

end JobTable

open JobTable

namespace PolledTable

/-- The history of a run from its start records the table. -/
theorem records_after (xs : List PollStep) : Records (history {} xs) (after {} xs).table :=
  records_nil.doesAll (Held.start_empty.doesAll_history xs)

/-- In a run, a waiter that ends is taken out of the table, and has no part in signals from then
on. -/
theorem reclaims_of_leaves {xs : List PollStep} {ticket : Ticket} {x : PollStep}
    (hl : ticket ∈ (after {} xs).table.tickets) (h : Leaves (after {} xs) ticket x) :
    Reclaims (after {} xs).table ticket (after {} (xs ++ [x])).table ∧
      ∀ zs, Retired (history {} (xs ++ x :: zs)) (after {} (xs ++ x :: zs)).table ticket := by
  have hafter : (after {} (xs ++ [x])).table = (after {} xs).table.drop ticket := by
    rw [after_append]
    exact h.table_eq
  have hr : .registered ticket ∈ history {} xs := (records_after xs).registered_mem_of_mem hl
  have hd : .dropped ticket ∈ history {} (xs ++ [x]) := by
    refine (records_after _).dropped_mem ?_ (by rw [hafter, tickets_drop]; simp)
    rw [history_append]
    exact List.mem_append_left _ hr
  refine ⟨hafter ▸ (records_after xs).reclaims hl, fun zs => (records_after _).retired ?_ ?_⟩
  · rw [history_append]
    exact List.mem_append_left _ hr
  · rw [List.append_cons, history_append]
    exact List.mem_append_left _ hd

end PolledTable

end SystemdControl
