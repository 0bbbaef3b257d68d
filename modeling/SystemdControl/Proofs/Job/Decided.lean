import SystemdControl.Proofs.Job.Ownership

/-!
# Outcomes that are decided

What a waiter is told is decided before it asks: by the result in its inbox, by a newer registration
of its path, or by the closing.

* `JobTable.Lost`: a registration with neither a result nor an entry receives no result any more. No
  deed changes that (`Lost.does`), so its waiter is told an error whenever it asks
  (`Lost.outcome?_eq`);
* `PolledTable.table_of_registered`: what an operation does to the table that says it registered a
  job, hence `Lost.register` for the waiter that had the path before.

A table does not keep why a registration was lost, only whether it is closed. So a superseded waiter
is told one thing before the closing and another after it.
-/

namespace SystemdControl

namespace JobTable

/-- A registration that has neither a result nor an entry. -/
structure Lost (t : JobTable) (ticket : Ticket) : Prop where
  serial_lt : ticket.serial < t.registered
  inbox : ∀ w ∈ t.waiters, w.ticket = ticket → w.inbox = none
  entry : ticket ∉ t.entries.map (·.ticket)

namespace Lost

variable {t t' : JobTable} {ticket : Ticket}

/-- The next registration is a new one. -/
theorem next_ne (h : Lost t ticket) (path : JobPath) : ticket ≠ ⟨path, t.registered⟩ :=
  fun he => Nat.lt_irrefl t.registered (by simpa [he] using h.serial_lt)

theorem register (h : Lost t ticket) (path : JobPath) : Lost (t.register path).2 ticket where
  serial_lt := Nat.lt_succ_of_lt h.serial_lt
  inbox w hw ht := by
    rcases List.mem_append.1 hw with hw | hw
    · exact h.inbox w hw ht
    · rw [List.mem_singleton.1 hw]
  entry hm := by
    rcases List.mem_cons.1 hm with he | hm
    · exact h.next_ne path he
    · obtain ⟨e, he, ht⟩ := List.mem_map.1 hm
      exact h.entry (List.mem_map.2 ⟨e, List.mem_of_mem_filter he, ht⟩)

/-- A result goes to a registration that has an entry. -/
theorem deliver (h : Lost t ticket) {other : Ticket} (result : JobResult)
    (ho : other ∈ t.entries.map (·.ticket)) : Lost (t.deliver other result) ticket where
  serial_lt := h.serial_lt
  inbox w hw ht := by
    obtain ⟨v, hv, rfl⟩ := List.mem_map.1 hw
    by_cases hvo : v.ticket = other
    · rw [if_pos hvo] at ht
      exact absurd (ht ▸ hvo ▸ ho) h.entry
    · rw [if_neg hvo] at ht ⊢
      exact h.inbox v hv ht
  entry hm := by
    obtain ⟨e, he, ht⟩ := List.mem_map.1 hm
    obtain ⟨f, hf, rfl⟩ := List.mem_map.1 he
    refine h.entry (List.mem_map.2 ⟨f, hf, ?_⟩)
    rw [← ht]
    split <;> rfl

theorem resolve (h : Lost t ticket) (path : JobPath) (result : JobResult) :
    Lost (t.resolve path result).2 ticket := by
  unfold JobTable.resolve
  split
  · exact h
  · split
    · exact h
    · exact h
    · rename_i other he
      exact h.deliver result (List.mem_map_of_mem (List.mem_of_find?_eq_some he))

theorem drop (h : Lost t ticket) (gone : Ticket) : Lost (t.drop gone) ticket where
  serial_lt := h.serial_lt
  inbox w hw := h.inbox w (List.mem_of_mem_filter hw)
  entry hm := by
    obtain ⟨e, he, ht⟩ := List.mem_map.1 hm
    exact h.entry (List.mem_map.2 ⟨e, List.mem_of_mem_filter he, ht⟩)

theorem close (h : Lost t ticket) : Lost t.close ticket :=
  ⟨h.serial_lt, h.inbox, List.not_mem_nil⟩

theorem does (h : Lost t ticket) {d : Deed} (hd : Does t d t') : Lost t' ticket := by
  cases hd with
  | register path => exact h.register path
  | resolve path result => exact h.resolve path result
  | drop gone => exact h.drop gone
  | close => exact h.close

theorem doesAll (h : Lost t ticket) {ds : List Deed} (hd : DoesAll t ds t') : Lost t' ticket := by
  induction hd with
  | nil => exact h
  | cons hd _ ih => exact ih (h.does hd)

/-- What the waiter is told is read off whether the table is closed. -/
theorem outcome?_eq (h : Lost t ticket) : t.outcome? ticket = some (.error (t.lossOf ticket)) := by
  have hinbox : (t.waiter? ticket).bind (·.inbox) = none := by
    cases hw : t.waiter? ticket with
    | none => rfl
    | some w =>
      have ht : w.ticket = ticket := by simpa using List.find?_some hw
      exact h.inbox w (List.mem_of_find?_eq_some hw) ht
  have hopen : t.isOpen ticket = false := by
    refine List.any_eq_false.2 fun e he => ?_
    have hne : e.ticket ≠ ticket := fun ht => h.entry (List.mem_map.2 ⟨e, he, ht⟩)
    simp [hne]
  rw [outcome?, hinbox, hopen]
  rfl

end Lost

/-! ## How a pending registration gets lost -/

namespace Sound

variable {j : List Deed} {t : JobTable} {ticket : Ticket}

/-- The inbox of a pending registration is empty. -/
theorem inbox_of_pending (h : Sound j t) (hp : ⟨ticket, .pending⟩ ∈ t.entries) :
    ∀ w ∈ t.waiters, w.ticket = ticket → w.inbox = none := by
  intro w hw ht
  obtain ⟨v, hv, hvt, hi⟩ := h.owner _ hp
  rw [h.waiter_eq hw hv (ht.trans hvt.symm)]
  exact hi.1 rfl

/-- The closing takes the entry. -/
theorem lost_close (h : Sound j t) (hp : ⟨ticket, .pending⟩ ∈ t.entries) : Lost t.close ticket :=
  ⟨h.serial_lt _ (h.ticket_mem hp), h.inbox_of_pending hp, List.not_mem_nil⟩

/-- A newer registration takes the entry. -/
theorem lost_register (h : Sound j t) (hp : ⟨ticket, .pending⟩ ∈ t.entries) :
    Lost (t.register ticket.path).2 ticket where
  serial_lt := Nat.lt_succ_of_lt (h.serial_lt _ (h.ticket_mem hp))
  inbox w hw ht := by
    rcases List.mem_append.1 hw with hw | hw
    · exact h.inbox_of_pending hp w hw ht
    · rw [List.mem_singleton.1 hw]
  entry hm := by
    rcases List.mem_cons.1 hm with he | hm
    · have hl : ticket ∈ t.tickets := h.ticket_mem hp
      exact h.next_not_mem ticket.path (he ▸ hl)
    · obtain ⟨e, he, rfl⟩ := List.mem_map.1 hm
      simpa using List.of_mem_filter he

end Sound

end JobTable

open JobTable

namespace PolledTable

variable {s : PolledTable} {label : String} {path : JobPath}

/-! ## Operations that register a job -/

theorem takeUp_table_of_registered {number : Nat} {reply : Except Error JobPath}
    (h : (s.takeUp number reply).1 = .registered path) :
    (s.takeUp number reply).2.2.table = (s.table.register path).2 := by
  cases reply with
  | error e => cases h
  | ok p =>
    cases hc : s.table.closed with
    | true => simp [takeUp, JobTable.takeUp, hc] at h
    | false =>
      simp only [takeUp, JobTable.takeUp, hc, Bool.false_eq_true, if_false] at h ⊢
      cases h
      rfl

theorem attempt_table_of_registered {number : Nat} {a : Activity}
    (h : (s.attempt number a).1 = .registered path) :
    (s.attempt number a).2.2.table = (s.table.register path).2 := by
  cases a with
  | idle => cases h
  | atGate reply =>
    simp only [attempt] at h ⊢
    split at h
    · cases h
    · rename_i hgate
      split at h
      · cases h
      · rename_i hc
        rw [if_neg hgate, if_neg hc]
        cases reply with
        | none => cases h
        | some reply => exact takeUp_table_of_registered h
  | inCall reply =>
    cases reply with
    | none => cases h
    | some reply => exact takeUp_table_of_registered h
  | resolving | waiting =>
    simp only [attempt] at h
    split at h <;> cases h

theorem start_table_of_registered {a : Activity} (h : (s.start label a).1 = .registered path) :
    ∃ gone : Option Ticket, (s.start label a).2.table =
      gone.elim (s.table.register path).2 (s.table.register path).2.drop := by
  rw [start_fst] at h
  have ht := attempt_table_of_registered h
  simp only [start]
  generalize { s with begun := s.begun + 1 }.attempt s.begun a = r at ht ⊢
  obtain ⟨answer, rest, s'⟩ := r
  replace ht : s'.table = (s.table.register path).2 := ht
  cases rest with
  | none => exact ⟨none, ht⟩
  | some b =>
    refine ⟨s'.ticketAt label, ?_⟩
    show (s'.drop label).2.table = _
    rw [table_drop, ht]

theorem beginWait_ne_registered (s : PolledTable) (label : String) (limit : Option Duration) :
    (s.beginWait label limit).1 ≠ .registered path := by
  rcases s.beginWait_fst_cases label limit with h | h | ⟨outcome, h⟩ <;> simp [h]

/-- An operation that says it registered a job has entered it; a waiter that was under its label
goes away. -/
theorem table_of_registered {x : PollStep} (h : (s.step x).1 = .polled (.registered path)) :
    ∃ gone : Option Ticket, (s.step x).2.table =
      gone.elim (s.table.register path).2 (s.table.register path).2.drop := by
  cases x with
  | register label reply => exact start_table_of_registered (StepAnswer.polled.inj h)
  | resolve label path result => exact start_table_of_registered (StepAnswer.polled.inj h)
  | poll label =>
    have hp : (s.poll label).1 = .registered path := StepAnswer.polled.inj h
    cases hg : s.activities.get? label with
    | none => simp [poll, hg] at hp
    | some y =>
      rw [poll_fst hg] at hp
      refine ⟨none, ?_⟩
      show (s.poll label).2.table = _
      rw [poll_table hg, attempt_table_of_registered hp]
      rfl
  | wait label => exact absurd (StepAnswer.polled.inj h) (s.beginWait_ne_registered label none)
  | waitFor label limit =>
    exact absurd (StepAnswer.polled.inj h) (s.beginWait_ne_registered label (some limit))
  | expire label =>
    simp only [step, expire] at h
    split at h <;> cases h
  | waitWithin label =>
    simp only [step, waitWithin] at h
    split at h <;> cases h
  | answer | drop => cases h
  | close => cases h

theorem closed_after (h : s.Held) (hc : s.table.closed = true) (xs : List PollStep) :
    (s.after xs).table.closed = true :=
  ((h.doesAll_history xs).of_closed hc).1

/-- A lost registration stays lost, and its waiter is told so whenever it asks. -/
theorem step_of_lost (h : s.Held) {ticket : Ticket} (hl : Lost s.table ticket)
    (later : List PollStep) {y : PollStep} (hy : PollsWait (s.after later) ticket y) :
    ((s.after later).step y).1 =
      .polled (.finished (.error ((s.after later).table.lossOf ticket))) :=
  hy.step_of_some (hl.doesAll (h.doesAll_history later)).outcome?_eq

/-! ## Any run -/

/-- At any moment of any run:

* a waiter that has its result is told it whenever it asks, whatever happens in between;
* a waiter that is superseded while it is pending is told so whenever it asks, unless the table has
  been closed by then: in that case it is told that the listener has stopped;
* a waiter that is pending at the closing is told whenever it asks that the listener has stopped. -/
theorem told_what_was_decided (xs : List PollStep) (ticket : Ticket) :
    let s := after {} xs
    (∀ r, (s.table.waiter? ticket).bind (·.inbox) = some r → ∀ later y,
      PollsWait (s.after later) ticket y →
        ((s.after later).step y).1 = .polled (.finished (.ok r))) ∧
    (⟨ticket, .pending⟩ ∈ s.table.entries →
      (∀ x, (s.step x).1 = .polled (.registered ticket.path) → ∀ later y,
        let s' := (s.step x).2.after later
        PollsWait s' ticket y → (s'.step y).1 = .polled (.finished (.error
          (if s'.table.closed then .listenerStopped ticket.path.text
            else .jobSuperseded ticket.path.text)))) ∧
      ∀ later y, let s' := s.close.after later
        PollsWait s' ticket y →
          (s'.step y).1 = .polled (.finished (.error (.listenerStopped ticket.path.text)))) := by
  intro s
  have hs : Sound (history {} xs) s.table := sound_after xs
  have hh : s.Held := Held.start_empty.after xs
  refine ⟨fun r hr later y hy => ?_, fun hp => ⟨?superseded, ?closed⟩⟩
  · obtain ⟨w, hw, hwr⟩ := Option.bind_eq_some_iff.1 hr
    have hwt : w.ticket = ticket := by simpa using List.find?_some hw
    have hfirst : FirstResult Deed.Removes (history {} xs) ticket r :=
      hwt ▸ (hs.inbox_iff w (List.mem_of_find?_eq_some hw) r).1 hwr
    have hlater : (s.after later).Held := hh.after later
    have hl : ticket ∈ (s.after later).table.tickets := hlater.holds.mem_tickets hy.mem_tickets
    have hs' : Sound (history {} xs ++ s.history later) (s.after later).table :=
      hs.doesAll (hh.doesAll_history later)
    exact hy.step_of_some ((hs'.outcome?_ok_iff hl r).2 (hfirst.append _))
  case superseded =>
    intro x hx later y s' hy
    obtain ⟨gone, ht⟩ := table_of_registered hx
    have hlost : Lost (s.step x).2.table ticket := by
      rw [ht]
      cases gone with
      | none => exact hs.lost_register hp
      | some gone => exact (hs.lost_register hp).drop gone
    show (s'.step y).1 = .polled (.finished (.error (s'.table.lossOf ticket)))
    exact step_of_lost (hh.step x).1 hlost later hy
  case closed =>
    intro later y s' hy
    have hclosed : s'.table.closed = true :=
      closed_after (s := s.close) (hh.step .close).1 rfl later
    have hloss : s'.table.lossOf ticket = .listenerStopped ticket.path.text := if_pos hclosed
    rw [← hloss]
    exact step_of_lost (s := s.close) (hh.step .close).1 (hs.lost_close hp) later hy

/-- Three waiters of which one got its result, one was superseded and one was pending when the table
was closed; they ask after the closing. -/
theorem told_what_was_decided_three :
    let path : JobPath := ⟨"/job/1"⟩
    let before : List PollStep := [.register "a" (some (.ok path)), .resolve "s" path .done]
    let middle : List PollStep := [.register "b" (some (.ok path))]
    let newer : PollStep := .register "c" (some (.ok path))
    let s := after {} (before ++ middle)
    s.table.waiter? ⟨path, 0⟩ = some ⟨⟨path, 0⟩, some .done⟩ ∧
      ⟨⟨path, 1⟩, .pending⟩ ∈ s.table.entries ∧
      (s.step newer).1 = .polled (.registered path) ∧
      ((s.after [newer, .close]).step (.wait "a")).1 = .polled (.finished (.ok .done)) ∧
      (((s.step newer).2.after []).step (.wait "b")).1 =
        .polled (.finished (.error (.jobSuperseded "/job/1"))) ∧
      ((s.close.after []).step (.wait "b")).1 =
        .polled (.finished (.error (.listenerStopped "/job/1"))) := by
  intro path before middle newer s
  have hinbox : s.table.waiter? ⟨path, 0⟩ = some ⟨⟨path, 0⟩, some .done⟩ := by decide
  have hpending : (⟨⟨path, 1⟩, .pending⟩ : Entry) ∈ s.table.entries := by decide
  have hnewer : (s.step newer).1 = .polled (.registered path) := rfl
  obtain ⟨hresult, -⟩ := told_what_was_decided (before ++ middle) ⟨path, 0⟩
  obtain ⟨-, hlost⟩ := told_what_was_decided (before ++ middle) ⟨path, 1⟩
  obtain ⟨hsuperseded, hclosed⟩ := hlost hpending
  refine ⟨hinbox, hpending, hnewer, ?_, ?_, ?_⟩
  · exact hresult .done (by rw [hinbox]; rfl) [newer, .close] (.wait "a") (.wait rfl)
  · exact hsuperseded newer hnewer [] (.wait "b") (.wait rfl)
  · exact hclosed [] (.wait "b") (.wait rfl)

/-- A superseded waiter that asks after the closing is not told that it was superseded, as it would
have been before. -/
theorem superseded_told_listenerStopped :
    let path : JobPath := ⟨"/job/1"⟩
    let s := after {} [.register "a" (some (.ok path)), .register "b" (some (.ok path))]
    (s.step (.wait "a")).1 = .polled (.finished (.error (.jobSuperseded "/job/1"))) ∧
      (s.close.step (.wait "a")).1 = .polled (.finished (.error (.listenerStopped "/job/1"))) :=
  ⟨rfl, rfl⟩

end PolledTable

end SystemdControl
