import SystemdControl.Proofs.Job.History

/-!
# What waits and signals are told

In any run of a polled table, what an operation answers follows from the history alone:

* `PollsWait` are the ways to ask a live waiter how it stands; all of them go by
  `JobTable.outcome?` (`PollsWait.step_of_some`, `PollsWait.step_of_none`);
* a waiter is told a result if and only if the first signal of its registration carried it, and a
  signal is told what its verdict is.
-/

namespace SystemdControl

open JobTable

/-- An operation that polls the wait on a live waiter: for the first time, once more, or at the end
of its time. -/
inductive PollsWait (s : PolledTable) (ticket : Ticket) : PollStep → Prop
  | wait {label : String} {number : Nat}
      (h : s.activities.get? label = some ⟨number, .idle ticket⟩) :
      PollsWait s ticket (.wait label)
  | waitFor {label : String} {number : Nat}
      (h : s.activities.get? label = some ⟨number, .idle ticket⟩) (limit : Duration) :
      PollsWait s ticket (.waitFor label limit)
  | waitWithin {label : String} {number : Nat}
      (h : s.activities.get? label = some ⟨number, .idle ticket⟩) (limit : Duration) :
      PollsWait s ticket (.waitWithin label limit)
  | poll {label : String} {number : Nat} {limit : Option Duration}
      (h : s.activities.get? label = some ⟨number, .waiting ticket limit⟩) :
      PollsWait s ticket (.poll label)
  | expire {label : String} {number : Nat} {limit : Duration}
      (h : s.activities.get? label = some ⟨number, .waiting ticket (some limit)⟩) :
      PollsWait s ticket (.expire label)

namespace PolledTable

variable {s : PolledTable} {label : String} {number : Nat} {a : Activity} {ticket : Ticket}
  {x : PollStep}

theorem poll_fst (h : s.activities.get? label = some ⟨number, a⟩) :
    (s.poll label).1 = (s.attempt number a).1 := by
  simp only [poll, h]
  split <;> simp [*]

theorem start_fst (s : PolledTable) (label : String) (a : Activity) :
    (s.start label a).1 = ({ s with begun := s.begun + 1 }.attempt s.begun a).1 := by
  simp only [start]
  split <;> simp [*]

theorem attempt_waiting_fst (s : PolledTable) (number : Nat) (ticket : Ticket)
    (limit : Option Duration) :
    (s.attempt number (.waiting ticket limit)).1 =
      (s.table.outcome? ticket).elim .pending .finished := by
  simp only [attempt]
  cases s.table.outcome? ticket <;> rfl

theorem beginWait_fst (h : s.activities.get? label = some ⟨number, .idle ticket⟩)
    (limit : Option Duration) :
    (s.beginWait label limit).1 = (s.table.outcome? ticket).elim .pending .finished := by
  simp only [beginWait, h]
  rw [poll_fst (s.get?_put label number (.waiting ticket limit)), attempt_waiting_fst]
  rfl

theorem waitWithin_fst (h : s.activities.get? label = some ⟨number, .idle ticket⟩)
    (limit : Duration) :
    (s.waitWithin label limit).1 = .finished (s.table.outcomeWithin ticket limit).1 := by
  simp only [waitWithin, h]

theorem expire_fst {limit : Duration}
    (h : s.activities.get? label = some ⟨number, .waiting ticket (some limit)⟩) :
    (s.expire label).1 = .finished (s.table.outcomeWithin ticket limit).1 := by
  simp only [expire, h]

end PolledTable

namespace PollsWait

open PolledTable

variable {s : PolledTable} {ticket : Ticket} {x : PollStep}

/-- A wait is on a waiter under some label. -/
theorem mem_tickets (h : PollsWait s ticket x) : ticket ∈ s.tickets := by
  cases h with
  | wait h | waitFor h | waitWithin h | poll h | expire h =>
    exact (tickets_perm_of_get? h).mem_iff.2 (List.mem_append_left _ (by simp [Activity.ticket?]))

/-- Every live waiter can be asked. -/
theorem exists_of_mem (h : s.Held) (hl : ticket ∈ s.table.tickets) : ∃ x, PollsWait s ticket x := by
  obtain ⟨⟨label, number, a⟩, he, ht⟩ := List.mem_filterMap.1 (h.holds.perm.mem_iff.2 hl)
  have hg : s.activities.get? label = some ⟨number, a⟩ := Labelled.get?_of_mem h.labels he
  cases a with
  | idle =>
    cases ht
    exact ⟨_, .wait hg⟩
  | waiting =>
    cases ht
    exact ⟨_, .poll hg⟩
  | _ => cases ht

/-- What is decided is told. -/
theorem step_of_some (h : PollsWait s ticket x) {outcome : Except Error JobResult}
    (ho : s.table.outcome? ticket = some outcome) : (s.step x).1 = .polled (.finished outcome) := by
  cases h with
  | wait h | waitFor h => simp [PolledTable.step, beginWait_fst h, ho]
  | poll h => simp [PolledTable.step, poll_fst h, attempt_waiting_fst, ho]
  | waitWithin h => simp [PolledTable.step, waitWithin_fst h, outcomeWithin, ho]
  | expire h => simp [PolledTable.step, expire_fst h, outcomeWithin, ho]

/-- As long as nothing is decided, a wait goes on or its time is over. -/
theorem step_of_none (h : PollsWait s ticket x) (ho : s.table.outcome? ticket = none) :
    (s.step x).1 = .polled .pending ∨
      ∃ limit, (s.step x).1 =
        .polled (.finished (.error (.jobTimeout ticket.path.text limit))) := by
  cases h with
  | wait h | waitFor h => simp [PolledTable.step, beginWait_fst h, ho]
  | poll h => simp [PolledTable.step, poll_fst h, attempt_waiting_fst, ho]
  | waitWithin h limit => simp [PolledTable.step, waitWithin_fst h, outcomeWithin, ho]
  | expire h => simp [PolledTable.step, expire_fst h, outcomeWithin, ho]

/-- A wait is told a result when that is what is decided. -/
theorem step_eq_ok_iff (h : PollsWait s ticket x) (r : JobResult) :
    (s.step x).1 = .polled (.finished (.ok r)) ↔ s.table.outcome? ticket = some (.ok r) := by
  cases ho : s.table.outcome? ticket with
  | some outcome =>
    rw [h.step_of_some ho]
    simp
  | none =>
    rcases h.step_of_none ho with hs | ⟨limit, hs⟩ <;> simp [hs]

end PollsWait

/-! ## Signals -/

theorem Effect.resolved {t t' : JobTable} {a : Activity} {ρ : Resolution} {rest : Option Activity}
    (e : Effect t a (.resolved ρ) rest t') :
    ∃ path result, a.signal? = some (path, result) ∧ (t.resolve path result).1 = ρ := by
  cases e with
  | stay _ hs => exact absurd rfl (hs ρ)
  | resolve path result => exact ⟨path, result, rfl, rfl⟩

namespace PolledTable

variable {s : PolledTable} {x : PollStep} {ρ : Resolution}

theorem poll_resolved {label : String} (h : (s.poll label).1 = .resolved ρ) :
    ∃ number a, s.activities.get? label = some ⟨number, a⟩ ∧
      (s.attempt number a).1 = .resolved ρ := by
  cases hg : s.activities.get? label with
  | none => simp [poll, hg] at h
  | some y =>
    rw [poll_fst hg] at h
    exact ⟨y.number, y.activity, rfl, h⟩

/-- The first poll of a wait says only how the wait stands. -/
theorem beginWait_fst_cases (s : PolledTable) (label : String) (limit : Option Duration) :
    (s.beginWait label limit).1 = .missing ∨ (s.beginWait label limit).1 = .pending ∨
      ∃ outcome, (s.beginWait label limit).1 = .finished outcome := by
  cases hg : s.activities.get? label with
  | none => simp [beginWait, hg]
  | some y =>
    obtain ⟨number, a⟩ := y
    cases a with
    | idle ticket =>
      rw [beginWait_fst hg]
      cases s.table.outcome? ticket <;> simp
    | _ => simp [beginWait, hg]

theorem beginWait_ne_resolved (s : PolledTable) (label : String) (limit : Option Duration) :
    (s.beginWait label limit).1 ≠ .resolved ρ := by
  rcases s.beginWait_fst_cases label limit with h | h | ⟨outcome, h⟩ <;> simp [h]

/-- An operation that says what became of a signal has handled one. -/
theorem step_resolved (h : (s.step x).1 = .polled (.resolved ρ)) :
    ∃ path result, s.signalOf x = some (path, result) ∧ (s.table.resolve path result).1 = ρ := by
  cases x with
  | resolve label path result =>
    have hs : (s.start label (.resolving path result)).1 = .resolved ρ := StepAnswer.polled.inj h
    rw [start_fst] at hs
    exact (hs ▸ attempt_effect _ _ (.resolving path result)).resolved
  | poll label =>
    obtain ⟨number, a, hg, ha⟩ := poll_resolved (StepAnswer.polled.inj h)
    simpa [signalOf, hg] using (ha ▸ s.attempt_effect number a).resolved
  | register label reply =>
    have hs : (s.start label (.atGate reply)).1 = .resolved ρ := StepAnswer.polled.inj h
    rw [start_fst] at hs
    obtain ⟨_, _, hn, -⟩ := (hs ▸ attempt_effect _ _ (.atGate reply)).resolved
    cases hn
  | wait label => exact absurd (StepAnswer.polled.inj h) (s.beginWait_ne_resolved label none)
  | waitFor label limit =>
    exact absurd (StepAnswer.polled.inj h) (s.beginWait_ne_resolved label (some limit))
  | expire label =>
    simp only [step, expire] at h
    split at h <;> cases h
  | waitWithin label =>
    simp only [step, waitWithin] at h
    split at h <;> cases h
  | answer | drop => cases h
  | close => cases h

/-! ## What is told, from the history -/

theorem firstResult_history {ends : Ticket → Deed → Prop} {xs : List PollStep} {ticket : Ticket}
    {r : JobResult} (h : FirstResult ends (s.history xs) ticket r) (ys : List PollStep) :
    FirstResult ends (s.history (xs ++ ys)) ticket r := by
  rw [history_append]
  exact h.append _

/-- At any moment of a run with at most `2 ^ 64` registrations, a wait is told a result if and only
if the first signal of its registration carried that result, and this is for good; what becomes of a
signal is its verdict.

The history can be read off the labels. An operation adds to it that a registration took effect if it
puts the waiter under a label, and that a waiter was dropped if it takes it from under its label. -/
theorem told_iff_history (xs : List PollStep)
    (hn : (after {} xs).table.registered ≤ 2 ^ 64) :
    (∀ ticket x, PollsWait (after {} xs) ticket x → ∀ r,
      ((after {} xs).step x).1 = .polled (.finished (.ok r)) ↔
        FirstResult Deed.Ends (history {} xs) ticket r) ∧
    (∀ ticket r, FirstResult Deed.Ends (history {} xs) ticket r →
      ∀ ys, FirstResult Deed.Ends (history {} (xs ++ ys)) ticket r) ∧
    (∀ x ρ, ((after {} xs).step x).1 = .polled (.resolved ρ) →
      ∃ path result, (after {} xs).signalOf x = some (path, result) ∧
        ∀ ρ', ρ' = ρ ↔ Verdict Deed.Ends (history {} xs) path ρ') ∧
    ∀ x, history {} (xs ++ [x]) = history {} xs ++ (after {} xs).deeds x ∧
      ∀ ticket,
        (.registered ticket ∈ (after {} xs).deeds x ↔
          ∃ label, ((after {} xs).step x).2.ticketAt label = some ticket ∧
            (after {} xs).ticketAt label ≠ some ticket) ∧
        (.dropped ticket ∈ (after {} xs).deeds x ↔
          ∃ label, (after {} xs).ticketAt label = some ticket ∧
            ((after {} xs).step x).2.ticketAt label ≠ some ticket) := by
  have hs := sound_after xs
  have hends : ∀ ticket, .registered ticket ∈ history {} xs → ∀ d ∈ history {} xs,
      d.Ends ticket ↔ d.Removes ticket := fun ticket hm d hd => hs.ends_iff_removes hn hm hd
  have hheld : (after {} xs).Held := Held.start_empty.after xs
  refine ⟨fun ticket x hx r => ?_, fun ticket r hf => firstResult_history hf, fun x ρ hx => ?_,
    fun x => ⟨?_, fun ticket => ⟨registered_mem_deeds_iff hheld, dropped_mem_deeds_iff hheld⟩⟩⟩
  · have hl := hheld.holds.mem_tickets hx.mem_tickets
    rw [hx.step_eq_ok_iff, hs.outcome?_ok_iff hl, firstResult_congr (hends ticket)]
  · obtain ⟨path, result, hsig, rfl⟩ := step_resolved hx
    refine ⟨path, result, hsig, fun ρ' => ?_⟩
    rw [verdict_congr hends, ← hs.resolve_fst_iff path result ρ', eq_comm]
  · rw [history_append, history, history, List.append_nil]

/-- A signal that comes before the reply, a later duplicate of it, and the closing. -/
theorem told_iff_history_early_signal :
    let path : JobPath := ⟨"/job/1"⟩
    let xs : List PollStep :=
      [.register "w" none, .resolve "early" path .done, .answer "w" (.ok path), .poll "w",
        .poll "early", .resolve "late" path .failed, .close]
    (after {} xs).table.registered ≤ 2 ^ 64 ∧
      PollsWait (after {} xs) ⟨path, 0⟩ (.wait "w") ∧
      FirstResult Deed.Ends (history {} xs) ⟨path, 0⟩ .done ∧
      Verdict Deed.Ends (history {} xs) path .closed := by
  intro path xs
  have hn : (after {} xs).table.registered ≤ 2 ^ 64 := by decide
  have hw : PollsWait (after {} xs) ⟨path, 0⟩ (.wait "w") := .wait rfl
  obtain ⟨hwait, -, hsignal, -⟩ := told_iff_history xs hn
  obtain ⟨_, _, hs, hv⟩ := hsignal (.resolve "again" path .done) .closed rfl
  cases hs
  exact ⟨hn, hw, (hwait _ _ hw .done).1 rfl, (hv .closed).1 rfl⟩

end PolledTable

end SystemdControl
