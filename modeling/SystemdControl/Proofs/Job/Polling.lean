import SystemdControl.Job.Polling
import SystemdControl.Proofs.Job.Sound
import SystemdControl.Proofs.Text.Labelled

/-!
# Runs of a polled table

A run is any list of operations. What its table goes through is written down as it happens:
`PolledTable.deeds` are the deeds that can be seen from an operation, `PolledTable.history` those of
a run.

* `Effect` is all that one attempt of an activity can do to the table;
* `PolledTable.Held`: every live waiter is held under exactly one label. Each operation keeps this,
  and its deeds are steps of the table (`Held.step`);
* `PolledTable.sound_after`: so the table always shows the history of its run.
-/

namespace SystemdControl

open JobTable

namespace Activity

/-- The registration whose waiter an activity holds. -/
def ticket? : Activity → Option Ticket
  | idle ticket | waiting ticket _ => some ticket
  | _ => none

/-- The signal that an activity is to handle. -/
def signal? : Activity → Option (JobPath × JobResult)
  | resolving path result => some (path, result)
  | _ => none

end Activity

/-- The signal that a poll was about, if the answer says that it was handled. -/
def PollAnswer.handled (signal : Option (JobPath × JobResult)) :
    PollAnswer → Option (JobPath × JobResult)
  | resolved _ => signal
  | _ => none

/-- The signal that an operation was about, if the answer says that it was handled. -/
def StepAnswer.handled (signal : Option (JobPath × JobResult)) :
    StepAnswer → Option (JobPath × JobResult)
  | polled answer => answer.handled signal
  | _ => none

@[simp] theorem PollAnswer.handled_none (answer : PollAnswer) : answer.handled none = none := by
  cases answer <;> rfl

theorem PollAnswer.handled_eq_none {answer : PollAnswer} (h : ∀ ρ, answer ≠ .resolved ρ)
    (signal : Option (JobPath × JobResult)) : answer.handled signal = none := by
  cases answer with
  | resolved ρ => exact absurd rfl (h ρ)
  | _ => rfl

@[simp] theorem StepAnswer.handled_none (answer : StepAnswer) : answer.handled none = none := by
  cases answer <;> simp [StepAnswer.handled]

/-! ## What an attempt can do -/

/-- What one attempt of an activity may do to a table, with what it says and what then remains. -/
inductive Effect (t : JobTable) : Activity → PollAnswer → Option Activity → JobTable → Prop
  | stay {a : Activity} {answer : PollAnswer} {rest : Option Activity}
      (hr : rest.bind Activity.ticket? = a.ticket?) (hs : ∀ ρ, answer ≠ .resolved ρ) :
      Effect t a answer rest t
  | register {a : Activity} (path : JobPath) (ha : a.ticket? = none) (hs : a.signal? = none)
      (ho : t.closed = false) :
      Effect t a (.registered path) (some (.idle ⟨path, t.registered⟩)) (t.register path).2
  | resolve (path : JobPath) (result : JobResult) :
      Effect t (.resolving path result) (.resolved (t.resolve path result).1) none
        (t.resolve path result).2
  | finish (ticket : Ticket) (limit : Option Duration) {outcome : Except Error JobResult}
      (h : t.outcome? ticket = some outcome) :
      Effect t (.waiting ticket limit) (.finished outcome) none (t.drop ticket)

namespace Effect

variable {t t' : JobTable} {a : Activity} {answer : PollAnswer} {rest : Option Activity}

theorem holds (e : Effect t a answer rest t') {others : List Ticket}
    (h : Holds t (a.ticket?.toList ++ others)) :
    Holds t' ((rest.bind Activity.ticket?).toList ++ others) := by
  cases e with
  | stay hr _ => rwa [hr]
  | register path ha _ ho =>
    rw [ha] at h
    exact h.register path ho
  | resolve path result => exact h.resolve path result
  | finish ticket => exact h.drop

theorem doesAll (e : Effect t a answer rest t') {others : List Ticket}
    (h : Holds t (a.ticket?.toList ++ others)) :
    DoesAll t (t.deedsTo t' (answer.handled a.signal?)) t' := by
  cases e with
  | stay _ hs =>
    rw [PollAnswer.handled_eq_none hs]
    exact Tidy.doesAll_self t
  | register path _ _ ho => exact h.toTidy.doesAll_register path ho
  | resolve path result => exact Tidy.doesAll_resolve t path result
  | finish ticket => exact h.toTidy.doesAll_drop (h.mem_tickets List.mem_cons_self)

/-- As `doesAll`, when another waiter goes away because something remains. -/
theorem doesAll_drop? {b : Activity} (e : Effect t a answer (some b) t') {o : Option Ticket}
    {others : List Ticket} (h : Holds t (o.toList ++ others)) :
    DoesAll t (t.deedsTo (o.elim t' t'.drop) (answer.handled a.signal?)) (o.elim t' t'.drop) := by
  cases e with
  | stay _ hs =>
    rw [PollAnswer.handled_eq_none hs]
    exact h.doesAll_drop?
  | register path _ _ ho => exact h.doesAll_register_drop? path ho

end Effect

namespace PolledTable

/-- The signal that an operation is about. -/
def signalOf (s : PolledTable) : PollStep → Option (JobPath × JobResult)
  | .resolve _ path result => some (path, result)
  | .poll label => (s.activities.get? label).bind (·.activity.signal?)
  | _ => none

/-- What can be seen to happen to the table in an operation. -/
def deeds (s : PolledTable) (x : PollStep) : List Deed :=
  s.table.deedsTo (s.step x).2.table ((s.step x).1.handled (s.signalOf x))

/-- The state after a run. -/
def after (s : PolledTable) (xs : List PollStep) : PolledTable :=
  xs.foldl (fun s x => (s.step x).2) s

/-- What can be seen to happen to the table in a run. -/
def history (s : PolledTable) : List PollStep → List Deed
  | [] => []
  | x :: xs => s.deeds x ++ history (s.step x).2 xs

/-- The registrations whose waiter is under some label. -/
def tickets (s : PolledTable) : List Ticket :=
  s.activities.filterMap (·.2.activity.ticket?)

/-- The registration whose waiter is under a label. -/
def ticketAt (s : PolledTable) (label : String) : Option Ticket :=
  (s.activities.get? label).bind (·.activity.ticket?)

/-- Every live waiter is under exactly one label, and no label is used twice. -/
structure Held (s : PolledTable) : Prop where
  labels : (Labelled.labels s.activities).Nodup
  holds : Holds s.table s.tickets

variable {s : PolledTable} {label : String} {number : Nat} {a : Activity}

theorem after_append (s : PolledTable) (xs ys : List PollStep) :
    s.after (xs ++ ys) = (s.after xs).after ys :=
  List.foldl_append

theorem history_append (s : PolledTable) (xs ys : List PollStep) :
    s.history (xs ++ ys) = s.history xs ++ (s.after xs).history ys := by
  induction xs generalizing s with
  | nil => rfl
  | cons x xs ih =>
    show s.deeds x ++ (s.step x).2.history (xs ++ ys) = _
    rw [ih, ← List.append_assoc]
    rfl

/-! ## Who is under which label -/

theorem tickets_perm_of_get? (h : s.activities.get? label = some ⟨number, a⟩) :
    s.tickets.Perm (a.ticket?.toList ++ (s.forget label).tickets) := by
  have hp := (Labelled.perm_of_get? h).filterMap (·.2.activity.ticket?)
  cases ht : a.ticket? with
  | none => simpa [tickets, forget, ht] using hp
  | some ticket => simpa [tickets, forget, ht] using hp

theorem tickets_perm (s : PolledTable) (label : String) :
    s.tickets.Perm ((s.ticketAt label).toList ++ (s.forget label).tickets) := by
  cases h : s.activities.get? label with
  | none =>
    have ht : (s.forget label).tickets = s.tickets := by
      rw [tickets, forget, Labelled.remove_of_get?_eq_none h, tickets]
    simp [ticketAt, h, ht]
  | some x => simpa [ticketAt, h] using tickets_perm_of_get? h

theorem tickets_put (s : PolledTable) (label : String) (number : Nat) (a : Activity) :
    (s.put label number a).tickets.Perm (a.ticket?.toList ++ (s.forget label).tickets) := by
  have hp := (Labelled.set_perm s.activities label ⟨number, a⟩).filterMap (·.2.activity.ticket?)
  cases ht : a.ticket? with
  | none => simpa [tickets, put, forget, ht] using hp
  | some ticket => simpa [tickets, put, forget, ht] using hp

@[simp] theorem get?_put (s : PolledTable) (label : String) (number : Nat) (a : Activity) :
    (s.put label number a).activities.get? label = some ⟨number, a⟩ :=
  Labelled.get?_set_self ..

@[simp] theorem activities_openGate (s : PolledTable) (number : Nat) :
    (s.openGate number).activities = s.activities := rfl

@[simp] theorem table_openGate (s : PolledTable) (number : Nat) :
    (s.openGate number).table = s.table := rfl

theorem activities_drop (s : PolledTable) (label : String) :
    (s.drop label).2.activities = s.activities.remove label := by
  unfold drop
  split
  · rename_i h
    rw [Labelled.remove_of_get?_eq_none h]
  · split <;> rfl

theorem table_drop (s : PolledTable) (label : String) :
    (s.drop label).2.table = (s.ticketAt label).elim s.table s.table.drop := by
  unfold drop
  split
  · rename_i h
    simp [ticketAt, h]
  · rename_i number a h
    cases a <;> simp [ticketAt, h, Activity.ticket?, forget]

/-! ## Attempts on a polled table -/

theorem takeUp_effect (s : PolledTable) (number : Nat) {a : Activity} (ha : a.ticket? = none)
    (hs : a.signal? = none) (reply : Except Error JobPath) :
    Effect s.table a (s.takeUp number reply).1 (s.takeUp number reply).2.1
      (s.takeUp number reply).2.2.table := by
  unfold takeUp JobTable.takeUp
  cases reply with
  | error e => exact .stay (by simp [ha]) (by simp)
  | ok path =>
    by_cases hc : s.table.closed = true
    · simp only [hc, if_true]
      exact .stay (by simp [ha]) (by simp)
    · simp only [hc, Bool.false_eq_true, if_false]
      exact .register path ha hs (by simpa using hc)

theorem attempt_effect (s : PolledTable) (number : Nat) (a : Activity) :
    Effect s.table a (s.attempt number a).1 (s.attempt number a).2.1
      (s.attempt number a).2.2.table := by
  cases a with
  | idle ticket => exact .stay rfl (by simp [attempt])
  | atGate reply =>
    simp only [attempt]
    split
    · exact .stay rfl (by simp)
    · split
      · exact .stay rfl (by simp)
      · cases reply with
        | none => exact .stay rfl (by simp)
        | some reply => exact s.takeUp_effect number rfl rfl reply
  | inCall reply =>
    cases reply with
    | none => exact .stay rfl (by simp [attempt])
    | some reply => exact s.takeUp_effect number rfl rfl reply
  | resolving path result =>
    simp only [attempt]
    split
    · exact .stay rfl (by simp)
    · exact .resolve path result
  | waiting ticket limit =>
    simp only [attempt]
    split
    · exact .stay rfl (by simp)
    · rename_i outcome ho
      exact .finish ticket limit ho

theorem takeUp_activities (s : PolledTable) (number : Nat) (reply : Except Error JobPath) :
    (s.takeUp number reply).2.2.activities = s.activities := by
  unfold takeUp
  split <;> rfl

theorem attempt_activities (s : PolledTable) (number : Nat) (a : Activity) :
    (s.attempt number a).2.2.activities = s.activities := by
  cases a with
  | idle => rfl
  | atGate reply =>
    simp only [attempt]
    split
    · rfl
    · split
      · rfl
      · cases reply with
        | none => rfl
        | some reply => exact s.takeUp_activities number reply
  | inCall reply =>
    cases reply with
    | none => rfl
    | some reply => exact s.takeUp_activities number reply
  | resolving | waiting =>
    simp only [attempt]
    split <;> rfl

/-! ## Operations -/

theorem tickets_forget_congr {s' : PolledTable} (h : s'.activities = s.activities)
    (label : String) : (s'.forget label).tickets = (s.forget label).tickets := by
  simp only [tickets, forget, h]

theorem tickets_forget_drop (hl : (Labelled.labels s.activities).Nodup) (label : String) :
    ((s.drop label).2.forget label).tickets = (s.forget label).tickets := by
  simp only [tickets, forget, activities_drop, Labelled.remove_remove hl]

theorem held_put (hl : (Labelled.labels s.activities).Nodup)
    (hh : Holds s.table (a.ticket?.toList ++ (s.forget label).tickets)) :
    Held (s.put label number a) :=
  ⟨Labelled.nodup_labels_set hl .., hh.congr (s.tickets_put label number a).symm⟩

theorem held_forget (hl : (Labelled.labels s.activities).Nodup)
    (hh : Holds s.table (s.forget label).tickets) : Held (s.forget label) :=
  ⟨Labelled.nodup_labels_remove hl label, hh⟩

namespace Held

theorem start_empty : Held {} :=
  ⟨.nil, .nil⟩

/-- An activity is replaced by one that holds the same waiter. -/
theorem put (h : Held s) (hg : s.activities.get? label = some ⟨number, a⟩) {b : Activity}
    (hb : b.ticket? = a.ticket?) : Held (s.put label number b) :=
  held_put h.labels (hb ▸ h.holds.congr (tickets_perm_of_get? hg))

/-- The waiter under a label goes away with what is there. -/
theorem drop_ticket (h : Held s) {ticket : Ticket} (ht : s.ticketAt label = some ticket) :
    Held { s.forget label with table := s.table.drop ticket } ∧
      DoesAll s.table (s.table.deedsTo (s.table.drop ticket) none) (s.table.drop ticket) := by
  have hh : Holds s.table (ticket :: (s.forget label).tickets) := by
    simpa [ht] using h.holds.congr (s.tickets_perm label)
  exact ⟨⟨Labelled.nodup_labels_remove h.labels label, hh.drop⟩,
    hh.toTidy.doesAll_drop (hh.mem_tickets List.mem_cons_self)⟩

theorem poll (h : Held s) (label : String) :
    Held (s.poll label).2 ∧
      DoesAll s.table (s.table.deedsTo (s.poll label).2.table
        ((s.poll label).1.handled (s.signalOf (.poll label)))) (s.poll label).2.table := by
  cases hg : s.activities.get? label with
  | none =>
    simp only [PolledTable.poll, hg]
    exact ⟨h, Tidy.doesAll_self _⟩
  | some x =>
    obtain ⟨number, a⟩ := x
    have e := s.attempt_effect number a
    have hact := s.attempt_activities number a
    have hh := h.holds.congr (tickets_perm_of_get? hg)
    simp only [PolledTable.poll, signalOf, hg, Option.bind_some]
    generalize s.attempt number a = r at e hact ⊢
    obtain ⟨answer, rest, s'⟩ := r
    have hl : (Labelled.labels s'.activities).Nodup := by
      rw [hact]
      exact h.labels
    have hh' := e.holds hh
    rw [← tickets_forget_congr hact] at hh'
    cases rest with
    | none => exact ⟨held_forget hl hh', e.doesAll hh⟩
    | some b => exact ⟨held_put hl hh', e.doesAll hh⟩

theorem drop (h : Held s) (label : String) :
    Held (s.drop label).2 ∧
      DoesAll s.table (s.table.deedsTo (s.drop label).2.table none) (s.drop label).2.table := by
  have hh := h.holds.congr (s.tickets_perm label)
  refine ⟨⟨?_, ?_⟩, ?_⟩
  · rw [activities_drop]
    exact Labelled.nodup_labels_remove h.labels label
  · have ht : (s.drop label).2.tickets = (s.forget label).tickets := by
      simp only [tickets, activities_drop, forget]
    rw [table_drop, ht]
    exact hh.drop?
  · rw [table_drop]
    exact hh.doesAll_drop?

theorem beginWait (h : Held s) (label : String) (limit : Option Duration) :
    Held (s.beginWait label limit).2 ∧
      DoesAll s.table (s.table.deedsTo (s.beginWait label limit).2.table none)
        (s.beginWait label limit).2.table := by
  unfold PolledTable.beginWait
  split
  · rename_i number ticket hg
    have hp := (h.put hg (b := .waiting ticket limit) rfl).poll label
    have hs : (s.put label number (.waiting ticket limit)).signalOf (.poll label) = none := by
      simp [signalOf, Activity.signal?]
    rwa [hs, PollAnswer.handled_none] at hp
  · exact ⟨h, Tidy.doesAll_self _⟩

/-- What is started holds no waiter; what was under its label goes away once it holds one. -/
theorem start (h : Held s) (label : String) (ha : a.ticket? = none) :
    Held (s.start label a).2 ∧
      DoesAll s.table (s.table.deedsTo (s.start label a).2.table
        ((s.start label a).1.handled a.signal?)) (s.start label a).2.table := by
  have e := { s with begun := s.begun + 1 }.attempt_effect s.begun a
  have hact := { s with begun := s.begun + 1 }.attempt_activities s.begun a
  simp only [PolledTable.start]
  generalize { s with begun := s.begun + 1 }.attempt s.begun a = r at e hact ⊢
  obtain ⟨answer, rest, s'⟩ := r
  simp only at e hact ⊢
  have hl : (Labelled.labels s'.activities).Nodup := by
    rw [hact]
    exact h.labels
  have hh : Holds s.table (a.ticket?.toList ++ s.tickets) := by
    rw [ha]
    exact h.holds
  have hh' := e.holds hh
  cases rest with
  | none =>
    have ht : s'.tickets = s.tickets := by simp only [tickets, hact]
    exact ⟨⟨hl, ht ▸ hh'⟩, e.doesAll hh⟩
  | some b =>
    have hat : s'.ticketAt label = s.ticketAt label := by simp only [ticketAt, hact]
    constructor
    · refine held_put ?_ ?_
      · rw [activities_drop]
        exact Labelled.nodup_labels_remove hl label
      · rw [tickets_forget_drop hl, tickets_forget_congr hact, table_drop, hat]
        refine (hh'.congr ?_).drop?
        exact ((s.tickets_perm label).append_left _).trans
          (by simpa using List.perm_append_comm_assoc ..)
    · show DoesAll s.table (s.table.deedsTo (s'.drop label).2.table _) (s'.drop label).2.table
      rw [table_drop, hat]
      exact e.doesAll_drop? (h.holds.congr (s.tickets_perm label))

theorem step (h : Held s) (x : PollStep) :
    Held (s.step x).2 ∧ DoesAll s.table (s.deeds x) (s.step x).2.table := by
  cases x with
  | register label reply => exact h.start label rfl
  | resolve label path result => exact h.start label rfl
  | poll label => exact h.poll label
  | answer label reply =>
    simp only [PolledTable.step, PolledTable.answer, deeds]
    split
    · rename_i hg
      exact ⟨h.put hg rfl, Tidy.doesAll_self _⟩
    · rename_i hg
      exact ⟨h.put hg rfl, Tidy.doesAll_self _⟩
    · exact ⟨h, Tidy.doesAll_self _⟩
  | wait label =>
    simp only [deeds, signalOf, StepAnswer.handled_none]
    exact h.beginWait label none
  | waitFor label limit =>
    simp only [deeds, signalOf, StepAnswer.handled_none]
    exact h.beginWait label (some limit)
  | expire label =>
    simp only [PolledTable.step, PolledTable.expire, deeds, signalOf, StepAnswer.handled_none]
    split
    · rename_i hg
      exact h.drop_ticket (by simp [ticketAt, hg, Activity.ticket?])
    · exact ⟨h, Tidy.doesAll_self _⟩
  | waitWithin label limit =>
    simp only [PolledTable.step, PolledTable.waitWithin, deeds, signalOf, StepAnswer.handled_none]
    split
    · rename_i hg
      exact h.drop_ticket (by simp [ticketAt, hg, Activity.ticket?])
    · exact ⟨h, Tidy.doesAll_self _⟩
  | drop label => exact h.drop label
  | close => exact ⟨⟨h.labels, h.holds.close⟩, h.holds.toTidy.doesAll_close⟩

theorem after (h : Held s) (xs : List PollStep) : Held (s.after xs) := by
  induction xs generalizing s with
  | nil => exact h
  | cons x xs ih => exact ih (h.step x).1

end Held

/-! ## Runs -/

/-- In a run the deeds are added to the journal of the table. -/
theorem sound_append {j : List Deed} (hj : Sound j s.table) (h : Held s) (xs : List PollStep) :
    Sound (j ++ s.history xs) (s.after xs).table := by
  induction xs generalizing j s with
  | nil => rwa [history, List.append_nil]
  | cons x xs ih =>
    obtain ⟨hh, hd⟩ := h.step x
    rw [history, ← List.append_assoc]
    exact ih (hj.doesAll hd) hh

/-- The table shows the history of any run from its start. -/
theorem sound_after (xs : List PollStep) :
    Sound (history {} xs) (PolledTable.after {} xs).table :=
  sound_append sound_nil .start_empty xs

end PolledTable

end SystemdControl
