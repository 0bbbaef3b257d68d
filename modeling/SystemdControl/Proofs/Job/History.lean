import SystemdControl.Proofs.Job.Polling

/-!
# Histories from the labels

What happened to a polled table can be seen at its labels, without a look at the table.

* `PolledTable.Follows`: a waiter under a label was there before, or is new. Every operation does
  no more than that (`PolledTable.follows_step`), so no waiter goes from one label to another;
* `PolledTable.registered_mem_deeds_iff`: a registration takes effect in the operation that puts its
  waiter under a label;
* `PolledTable.dropped_mem_deeds_iff`: a waiter is dropped in the operation that takes it from under
  its label, in whatever way.
-/

namespace SystemdControl

open JobTable

variable {s s' s'' : PolledTable} {label other : String} {number : Nat} {a b : Activity}
  {ticket : Ticket} {x : PollStep}

theorem Effect.ticket?_cases {t t' : JobTable} {answer : PollAnswer}
    (e : Effect t a answer (some b) t') (hb : b.ticket? = some ticket) :
    a.ticket? = some ticket ∨ ticket.serial = t.registered := by
  cases e with
  | stay hr => exact .inl (hr.symm.trans hb)
  | register =>
    cases hb
    exact .inr rfl

namespace PolledTable

/-! ## Who is under a label -/

theorem ticketAt_eq_some_iff :
    s.ticketAt label = some ticket ↔
      ∃ number a, s.activities.get? label = some ⟨number, a⟩ ∧ a.ticket? = some ticket := by
  rw [ticketAt, Option.bind_eq_some_iff]
  constructor
  · rintro ⟨⟨number, a⟩, h⟩
    exact ⟨number, a, h⟩
  · rintro ⟨number, a, h⟩
    exact ⟨⟨number, a⟩, h⟩

theorem mem_tickets_of_ticketAt (ht : s.ticketAt label = some ticket) : ticket ∈ s.tickets := by
  refine (s.tickets_perm label).mem_iff.2 (List.mem_append_left _ ?_)
  exact Option.mem_toList.2 ht

theorem mem_tickets_iff (h : s.Held) :
    ticket ∈ s.tickets ↔ ∃ label, s.ticketAt label = some ticket := by
  refine ⟨fun hm => ?_, fun ⟨_, ht⟩ => mem_tickets_of_ticketAt ht⟩
  obtain ⟨⟨label, number, a⟩, he, ha⟩ := List.mem_filterMap.1 hm
  exact ⟨label, ticketAt_eq_some_iff.2 ⟨number, a, Labelled.get?_of_mem h.labels he, ha⟩⟩

/-- A waiter is under one label only. -/
theorem label_eq_of_ticketAt_eq (h : s.Held) (hs : s.ticketAt label = some ticket)
    (ht : s.ticketAt other = some ticket) : label = other := by
  by_contra hne
  have hrest : (s.forget label).ticketAt other = some ticket := by
    rw [ticketAt, forget, Labelled.get?_remove_of_ne _ hne]
    exact ht
  have hnodup := h.holds.perm.nodup_iff.2 h.holds.nodup
  rw [(s.tickets_perm label).nodup_iff, hs] at hnodup
  exact (List.nodup_cons.1 hnodup).1 (mem_tickets_of_ticketAt hrest)

/-- Every waiter under a label was there before, or is new. -/
def Follows (s s' : PolledTable) : Prop :=
  ∀ label ticket, s'.ticketAt label = some ticket →
    s.ticketAt label = some ticket ∨ ticket.serial = s.table.registered

namespace Follows

theorem of_activities_eq (h : s'.activities = s.activities) : s.Follows s' := by
  intro other ticket ht
  rw [ticketAt, h] at ht
  exact .inl ht

theorem of_remove (hl : (Labelled.labels s.activities).Nodup)
    (h : s'.activities = s.activities.remove label) : s.Follows s' := by
  intro other ticket ht
  obtain ⟨number, a, hg, ha⟩ := ticketAt_eq_some_iff.1 ht
  rw [h] at hg
  exact .inl (ticketAt_eq_some_iff.2 ⟨number, a, Labelled.get?_of_get?_remove hl hg, ha⟩)

/-- Something is put under a label whose waiter was there before, or is new. -/
theorem put (h : s.Follows s')
    (ha : ∀ ticket, a.ticket? = some ticket →
      s.ticketAt label = some ticket ∨ ticket.serial = s.table.registered) :
    s.Follows (s'.put label number a) := by
  intro other ticket ht
  obtain ⟨number', a', hg, ha'⟩ := ticketAt_eq_some_iff.1 ht
  rcases Labelled.get?_of_get?_set hg with ⟨rfl, he⟩ | hg
  · cases he
    exact ha ticket ha'
  · exact h other ticket (ticketAt_eq_some_iff.2 ⟨number', a', hg, ha'⟩)

end Follows

/-! ## Operations -/

theorem follows_poll (hl : (Labelled.labels s.activities).Nodup) (label : String) :
    s.Follows (s.poll label).2 := by
  cases hg : s.activities.get? label with
  | none =>
    simp only [poll, hg]
    exact .of_activities_eq rfl
  | some y =>
    obtain ⟨number, a⟩ := y
    have e := s.attempt_effect number a
    have hact := s.attempt_activities number a
    simp only [poll, hg]
    generalize s.attempt number a = r at e hact ⊢
    obtain ⟨answer, rest, s'⟩ := r
    cases rest with
    | none => exact .of_remove hl (congrArg (·.remove label) hact)
    | some b =>
      refine .put (.of_activities_eq hact) fun ticket hb => ?_
      refine (e.ticket?_cases hb).imp_left fun ha => ?_
      exact ticketAt_eq_some_iff.2 ⟨number, a, hg, ha⟩

theorem follows_beginWait (hl : (Labelled.labels s.activities).Nodup) (label : String)
    (limit : Option Duration) : s.Follows (s.beginWait label limit).2 := by
  unfold beginWait
  split
  · rename_i number ticket hg
    -- The waiter that is idle under the label is the one that is waited on.
    have hput : s.Follows (s.put label number (.waiting ticket limit)) :=
      .put (.of_activities_eq rfl) fun t ht => .inl (ticketAt_eq_some_iff.2 ⟨_, _, hg, ht⟩)
    have hpoll := follows_poll (Labelled.nodup_labels_set hl label ⟨number, .waiting ticket limit⟩)
      (s := s.put label number (.waiting ticket limit)) label
    exact fun other t ht => (hpoll other t ht).elim (hput other t) .inr
  · exact .of_activities_eq rfl

/-- What is started has no waiter. -/
theorem follows_start (hl : (Labelled.labels s.activities).Nodup) (label : String)
    (ha : a.ticket? = none) : s.Follows (s.start label a).2 := by
  have e := { s with begun := s.begun + 1 }.attempt_effect s.begun a
  have hact := { s with begun := s.begun + 1 }.attempt_activities s.begun a
  simp only [start]
  generalize { s with begun := s.begun + 1 }.attempt s.begun a = r at e hact ⊢
  obtain ⟨answer, rest, s'⟩ := r
  simp only at e hact ⊢
  cases rest with
  | none => exact .of_activities_eq hact
  | some b =>
    have hdrop : (s'.drop label).2.activities = s.activities.remove label := by
      rw [activities_drop, hact]
    refine .put (.of_remove hl hdrop) fun ticket hb => .inr ?_
    exact (e.ticket?_cases hb).resolve_left (by simp [ha])

theorem follows_step (hl : (Labelled.labels s.activities).Nodup) (x : PollStep) :
    s.Follows (s.step x).2 := by
  cases x with
  | register label reply => exact follows_start hl label rfl
  | resolve label path result => exact follows_start hl label rfl
  | poll label => exact follows_poll hl label
  | wait label => exact follows_beginWait hl label none
  | waitFor label limit => exact follows_beginWait hl label (some limit)
  | answer label reply =>
    simp only [step, answer]
    split
    · exact .put (.of_activities_eq rfl) fun ticket ha => by cases ha
    · exact .put (.of_activities_eq rfl) fun ticket ha => by cases ha
    · exact .of_activities_eq rfl
  | expire label =>
    simp only [step, expire]
    split
    · exact .of_remove hl rfl
    · exact .of_activities_eq rfl
  | waitWithin label limit =>
    simp only [step, waitWithin]
    split
    · exact .of_remove hl rfl
    · exact .of_activities_eq rfl
  | drop label => exact .of_remove hl (s.activities_drop label)
  | close => exact .of_activities_eq rfl

/-! ## What happened -/

/-- A waiter that is under a label after an operation and was under a label before is still under the
same one. -/
theorem ticketAt_of_step (h : s.Held) (hm : ticket ∈ s.tickets)
    (ht : (s.step x).2.ticketAt label = some ticket) : s.ticketAt label = some ticket := by
  refine (follows_step h.labels x label ticket ht).resolve_right fun hserial => ?_
  exact Nat.ne_of_lt (h.holds.serial_lt _ (h.holds.mem_tickets hm)) hserial

theorem registered_mem_deeds_iff_mem_tickets (h : s.Held) :
    .registered ticket ∈ s.deeds x ↔ ticket ∈ (s.step x).2.tickets ∧ ticket ∉ s.tickets := by
  rw [(h.step x).1.holds.perm.mem_iff, h.holds.perm.mem_iff]
  simp [deeds, deedsTo, without]

theorem dropped_mem_deeds_iff_mem_tickets (h : s.Held) :
    .dropped ticket ∈ s.deeds x ↔ ticket ∈ s.tickets ∧ ticket ∉ (s.step x).2.tickets := by
  rw [(h.step x).1.holds.perm.mem_iff, h.holds.perm.mem_iff]
  simp [deeds, deedsTo, without]

/-- A registration takes effect in the operation that puts its waiter under a label. -/
theorem registered_mem_deeds_iff (h : s.Held) :
    .registered ticket ∈ s.deeds x ↔
      ∃ label, (s.step x).2.ticketAt label = some ticket ∧ s.ticketAt label ≠ some ticket := by
  rw [registered_mem_deeds_iff_mem_tickets h, mem_tickets_iff (h.step x).1]
  constructor
  · rintro ⟨⟨label, ht⟩, hn⟩
    exact ⟨label, ht, fun hs => hn ((mem_tickets_iff h).2 ⟨label, hs⟩)⟩
  · rintro ⟨label, ht, hs⟩
    exact ⟨⟨label, ht⟩, fun hm => hs (ticketAt_of_step h hm ht)⟩

/-- A waiter is dropped in the operation that takes it from under its label: it is abandoned, or its
wait is over, or something else takes its place. -/
theorem dropped_mem_deeds_iff (h : s.Held) :
    .dropped ticket ∈ s.deeds x ↔
      ∃ label, s.ticketAt label = some ticket ∧ (s.step x).2.ticketAt label ≠ some ticket := by
  rw [dropped_mem_deeds_iff_mem_tickets h]
  constructor
  · rintro ⟨hm, hn⟩
    obtain ⟨label, hs⟩ := (mem_tickets_iff h).1 hm
    exact ⟨label, hs, fun ht => hn ((mem_tickets_iff (h.step x).1).2 ⟨label, ht⟩)⟩
  · rintro ⟨label, hs, hn⟩
    have hm := mem_tickets_of_ticketAt hs
    refine ⟨hm, fun hm' => hn ?_⟩
    -- Under another label it would have been before as well.
    obtain ⟨other, ht⟩ := (mem_tickets_iff (h.step x).1).1 hm'
    rwa [label_eq_of_ticketAt_eq h hs (ticketAt_of_step h hm ht)]

end PolledTable

end SystemdControl
