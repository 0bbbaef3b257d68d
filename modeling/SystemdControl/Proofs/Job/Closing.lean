import SystemdControl.Proofs.Job.Waits

/-!
# Closing a job table

The table can be closed at any moment, also while a registration has its request under way, or is
before the gate. `Shut` is what then holds in every later state of a run (`Shut.step`,
`Shut.after`):

* no registration gets to issue its request, or to enter its job;
* every live waiter was there at the closing, with the inbox that it still has.

So everyone is released.
-/

namespace SystemdControl

open JobTable

/-- What a waiter of a closed table is told. -/
def lastWord (ticket : Ticket) : Option JobResult → Except Error JobResult
  | some result => .ok result
  | none => .error (.listenerStopped ticket.path.text)

theorem JobTable.Tidy.outcome?_of_closed {t : JobTable} (h : Tidy t) (hc : t.closed = true)
    (ticket : Ticket) :
    t.outcome? ticket = some (lastWord ticket ((t.waiter? ticket).bind (·.inbox))) := by
  rw [outcome?]
  cases (t.waiter? ticket).bind (·.inbox) with
  | some result => rfl
  | none =>
    have ho : t.isOpen ticket = false := by
      rw [isOpen, h.empty hc]
      rfl
    rw [ho]
    simp [lastWord, lossOf, hc]

/-- A state `s` of a polled table whose table was closed in a state `c`. -/
structure Shut (c s : PolledTable) : Prop where
  held : s.Held
  closed : s.table.closed = true
  waiters : s.table.waiters ⊆ c.table.waiters
  inCall : ∀ label number reply, s.activities.get? label = some ⟨number, .inCall reply⟩ →
    ∃ reply', c.activities.get? label = some ⟨number, .inCall reply'⟩

namespace PolledTable

variable {c s : PolledTable} {label : String} {number : Nat} {a : Activity}

/-- In a closed table an attempt issues no request. -/
theorem attempt_inCall_of_closed (hc : s.table.closed = true)
    {reply : Option (Except Error JobPath)} (h : (s.attempt number a).2.1 = some (.inCall reply)) :
    ∃ reply', a = .inCall reply' := by
  cases a with
  | inCall reply' => exact ⟨reply', rfl⟩
  | idle => cases h
  | atGate =>
    simp only [attempt, hc] at h
    split at h <;> cases h
  | resolving | waiting =>
    simp only [attempt] at h
    split at h <;> cases h

section

variable {reply : Option (Except Error JobPath)}

theorem poll_inCall_of_closed (hs : s.Held) (hc : s.table.closed = true) {other : String}
    (h : (s.poll other).2.activities.get? label = some ⟨number, .inCall reply⟩) :
    ∃ reply', s.activities.get? label = some ⟨number, .inCall reply'⟩ := by
  cases hg : s.activities.get? other with
  | none =>
    simp only [poll, hg] at h
    exact ⟨reply, h⟩
  | some y =>
    obtain ⟨n, a⟩ := y
    have hact := s.attempt_activities n a
    have hcall : (s.attempt n a).2.1 = some (.inCall reply) → ∃ reply', a = .inCall reply' :=
      attempt_inCall_of_closed hc
    simp only [poll, hg] at h
    generalize s.attempt n a = r at h hact hcall
    obtain ⟨answer, rest, s'⟩ := r
    replace hact : s'.activities = s.activities := hact
    cases rest with
    | none =>
      simp only [forget, hact] at h
      exact ⟨reply, Labelled.get?_of_get?_remove hs.labels h⟩
    | some b =>
      simp only [put, hact] at h
      rcases Labelled.get?_of_get?_set h with ⟨rfl, hb⟩ | h
      · cases hb
        obtain ⟨reply', rfl⟩ := hcall rfl
        exact ⟨reply', hg⟩
      · exact ⟨reply, h⟩

theorem drop_inCall (hs : s.Held) {other : String}
    (h : (s.drop other).2.activities.get? label = some ⟨number, .inCall reply⟩) :
    s.activities.get? label = some ⟨number, .inCall reply⟩ := by
  rw [activities_drop] at h
  exact Labelled.get?_of_get?_remove hs.labels h

theorem start_inCall_of_closed (hs : s.Held) (hc : s.table.closed = true) {other : String}
    (ha : ∀ reply', a ≠ .inCall reply')
    (h : (s.start other a).2.activities.get? label = some ⟨number, .inCall reply⟩) :
    s.activities.get? label = some ⟨number, .inCall reply⟩ := by
  have hact := { s with begun := s.begun + 1 }.attempt_activities s.begun a
  have hcall : ({ s with begun := s.begun + 1 }.attempt s.begun a).2.1 = some (.inCall reply) →
      ∃ reply', a = .inCall reply' :=
    attempt_inCall_of_closed (s := { s with begun := s.begun + 1 }) hc
  simp only [start] at h
  generalize { s with begun := s.begun + 1 }.attempt s.begun a = r at h hact hcall
  obtain ⟨answer, rest, s'⟩ := r
  replace hact : s'.activities = s.activities := hact
  cases rest with
  | none => rwa [hact] at h
  | some b =>
    simp only [put, activities_drop, hact] at h
    rcases Labelled.get?_of_get?_set h with ⟨-, hb⟩ | h
    · cases hb
      obtain ⟨reply', rfl⟩ := hcall rfl
      exact absurd rfl (ha reply')
    · exact Labelled.get?_of_get?_remove hs.labels h

theorem beginWait_inCall_of_closed (hs : s.Held) (hc : s.table.closed = true) {other : String}
    {limit : Option Duration}
    (h : (s.beginWait other limit).2.activities.get? label = some ⟨number, .inCall reply⟩) :
    ∃ reply', s.activities.get? label = some ⟨number, .inCall reply'⟩ := by
  unfold beginWait at h
  split at h
  · rename_i n ticket hg
    obtain ⟨reply', h⟩ := poll_inCall_of_closed (hs.put hg (b := .waiting ticket limit) rfl) hc h
    rcases Labelled.get?_of_get?_set h with ⟨-, hb⟩ | h
    · cases hb
    · exact ⟨reply', h⟩
  · exact ⟨reply, h⟩

/-- An operation on a closed table leaves under a label only such a call as was there. -/
theorem step_inCall_of_closed (hs : s.Held) (hc : s.table.closed = true) (x : PollStep)
    (h : (s.step x).2.activities.get? label = some ⟨number, .inCall reply⟩) :
    ∃ reply', s.activities.get? label = some ⟨number, .inCall reply'⟩ := by
  cases x with
  | register other reply' => exact ⟨reply, start_inCall_of_closed hs hc (by simp) h⟩
  | resolve other path result => exact ⟨reply, start_inCall_of_closed hs hc (by simp) h⟩
  | poll other => exact poll_inCall_of_closed hs hc h
  | wait other => exact beginWait_inCall_of_closed hs hc h
  | waitFor other limit => exact beginWait_inCall_of_closed hs hc h
  | drop other => exact ⟨reply, drop_inCall hs h⟩
  | close => exact ⟨reply, h⟩
  | answer other reply' =>
    simp only [step, answer] at h
    split at h
    · rcases Labelled.get?_of_get?_set h with ⟨-, hb⟩ | h
      · cases hb
      · exact ⟨reply, h⟩
    · rename_i n hg
      rcases Labelled.get?_of_get?_set h with ⟨rfl, hb⟩ | h
      · cases hb
        exact ⟨none, hg⟩
      · exact ⟨reply, h⟩
    · exact ⟨reply, h⟩
  | expire other =>
    simp only [step, expire] at h
    split at h
    · exact ⟨reply, Labelled.get?_of_get?_remove hs.labels h⟩
    · exact ⟨reply, h⟩
  | waitWithin other limit =>
    simp only [step, waitWithin] at h
    split at h
    · exact ⟨reply, Labelled.get?_of_get?_remove hs.labels h⟩
    · exact ⟨reply, h⟩

end

end PolledTable

/-! ## After the closing -/

namespace Shut

open PolledTable

variable {c s : PolledTable}

theorem close (h : c.Held) : Shut c c.close :=
  ⟨(h.step .close).1, rfl, List.Subset.refl _, fun _ _ reply hg => ⟨reply, hg⟩⟩

theorem step (h : Shut c s) (x : PollStep) : Shut c (s.step x).2 := by
  obtain ⟨hh, hd⟩ := h.held.step x
  obtain ⟨hc, hw⟩ := hd.of_closed h.closed
  refine ⟨hh, hc, List.Subset.trans hw h.waiters, fun label number reply hg => ?_⟩
  obtain ⟨reply', hg⟩ := step_inCall_of_closed h.held h.closed x hg
  exact h.inCall label number reply' hg

theorem after (h : Shut c s) (xs : List PollStep) : Shut c (s.after xs) := by
  induction xs generalizing s with
  | nil => exact h
  | cons x xs ih => exact ih (h.step x)

/-- A live waiter has the inbox that it had at the closing. -/
theorem waiter?_eq (h : Shut c s) (hc : c.Held) {ticket : Ticket} (hl : ticket ∈ s.table.tickets) :
    s.table.waiter? ticket = c.table.waiter? ticket := by
  obtain ⟨w, hw, rfl⟩ := List.mem_map.1 hl
  rw [waiter?, find?_key_eq h.held.holds.nodup hw, waiter?,
    find?_key_eq hc.holds.nodup (h.waiters hw)]

end Shut

namespace PolledTable

variable {s : PolledTable}

/-- What a registration is told that gets the gate of a closed table. -/
theorem attempt_atGate_of_closed (hc : s.table.closed = true) (number : Nat)
    (reply : Option (Except Error JobPath)) :
    (s.attempt number (.atGate reply)).1 =
      if s.gate.isSome then .pending else .failed .listenerUnavailable := by
  simp only [attempt, hc, if_true]
  split <;> rfl

/-- From the closing on, whenever it came, the table is closed and without entries; no registration
issues its request or enters its job; and whoever still waits is told at once, namely the result it
had got before the closing, or else that there will be none. -/
theorem released_after_close (before later : List PollStep) :
    let c := PolledTable.after {} before
    let s := PolledTable.after {} (before ++ .close :: later)
    (s.table.closed = true ∧ s.table.entries = []) ∧
    (∀ label number reply, s.activities.get? label = some ⟨number, .inCall reply⟩ →
      ∃ reply', c.activities.get? label = some ⟨number, .inCall reply'⟩) ∧
    (∀ label reply, (s.step (.register label reply)).1 =
      .polled (if s.gate.isSome then .pending else .failed .listenerUnavailable)) ∧
    (∀ label number reply, s.activities.get? label = some ⟨number, .atGate reply⟩ →
      (s.step (.poll label)).1 =
        .polled (if s.gate.isSome then .pending else .failed .listenerUnavailable)) ∧
    (∀ label number path, s.activities.get? label = some ⟨number, .inCall (some (.ok path))⟩ →
      (s.step (.poll label)).1 = .polled (.failed (.listenerStopped path.text))) ∧
    ∀ ticket ∈ s.table.tickets, (∃ x, PollsWait s ticket x) ∧
      ∀ x, PollsWait s ticket x → (s.step x).1 =
        .polled (.finished (lastWord ticket ((c.table.waiter? ticket).bind (·.inbox)))) := by
  intro c s
  have hheld : c.Held := Held.start_empty.after before
  have hs : Shut c s := by
    show Shut c (PolledTable.after {} (before ++ .close :: later))
    rw [after_append]
    exact (Shut.close hheld).after later
  have hc : s.table.closed = true := hs.closed
  refine ⟨⟨hc, hs.held.holds.empty hc⟩, hs.inCall, fun label reply => ?_,
    fun label number reply hg => ?_, fun label number path hg => ?_,
    fun ticket hl => ⟨PollsWait.exists_of_mem hs.held hl, fun x hx => ?_⟩⟩
  · show StepAnswer.polled (s.start label (.atGate reply)).1 = _
    rw [start_fst]
    exact congrArg _ (attempt_atGate_of_closed (s := { s with begun := s.begun + 1 }) hc ..)
  · show StepAnswer.polled (s.poll label).1 = _
    rw [poll_fst hg, attempt_atGate_of_closed hc]
  · show StepAnswer.polled (s.poll label).1 = _
    rw [poll_fst hg]
    simp [attempt, takeUp, JobTable.takeUp, hc]
  · refine hx.step_of_some ?_
    rw [hs.held.holds.toTidy.outcome?_of_closed hc, hs.waiter?_eq hheld hl]

/-- A waiter with a result, one without, a registration with its request under way and one before
the gate. -/
theorem released_after_close_four :
    let before : List PollStep :=
      [.register "a" (some (.ok ⟨"/job/1"⟩)), .resolve "s" ⟨"/job/1"⟩ .done,
        .register "b" (some (.ok ⟨"/job/2"⟩)), .register "c" none, .register "d" none]
    let s := PolledTable.after {} (before ++ .close :: [.answer "c" (.ok ⟨"/job/3"⟩)])
    s.table.entries = [] ∧
      (s.step (.poll "d")).1 = .polled .pending ∧
      (s.step (.poll "c")).1 = .polled (.failed (.listenerStopped "/job/3")) ∧
      (s.step (.wait "a")).1 = .polled (.finished (.ok .done)) ∧
      (s.step (.wait "b")).1 = .polled (.finished (.error (.listenerStopped "/job/2"))) := by
  intro before s
  obtain ⟨⟨-, he⟩, -, -, hgate, hcall, hwait⟩ :=
    released_after_close before [.answer "c" (.ok ⟨"/job/3"⟩)]
  have ha : (⟨⟨"/job/1"⟩, 0⟩ : Ticket) ∈ s.table.tickets := by decide
  have hb : (⟨⟨"/job/2"⟩, 1⟩ : Ticket) ∈ s.table.tickets := by decide
  exact ⟨he, hgate "d" 4 none rfl, hcall "c" 3 ⟨"/job/3"⟩ rfl, (hwait _ ha).2 _ (.wait rfl),
    (hwait _ hb).2 _ (.wait rfl)⟩

end PolledTable

end SystemdControl
