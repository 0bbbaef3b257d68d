import SystemdControl.Proofs.Job.Reclaiming

/-!
# Waits with a limit

A wait with a limit goes on as one without, until it is polled at the end of its time.

* `PolledTable.unlimited` is a state without the limit of the wait on a given registration, and
  `PolledTable.Alike` are two states that differ in nothing else. Every operation keeps two states
  alike and says the same in both, unless it is the poll at the end of that time
  (`PolledTable.Alike.step`);
* `PolledTable.WaitsAt`: a wait stays under its label, with its limit, until it ends;
* `CutShort` is what the poll at the end of the time says, from what a wait without a limit would
  say, and `PolledTable.CutsWait` is the whole course of a limited wait.
-/

namespace SystemdControl

open JobTable

/-! ## Without the limit -/

/-- An activity without the limit of a wait on a given registration. -/
def Activity.unlimited (ticket : Ticket) : Activity → Activity
  | waiting t limit => waiting t (if t = ticket then none else limit)
  | a => a

def Numbered.unlimited (ticket : Ticket) (n : Numbered) : Numbered :=
  ⟨n.number, n.activity.unlimited ticket⟩

theorem Activity.unlimited_unlimited (ticket : Ticket) (a : Activity) :
    (a.unlimited ticket).unlimited ticket = a.unlimited ticket := by
  cases a with
  | waiting t limit =>
    simp only [unlimited]
    split <;> rfl
  | _ => rfl

theorem Activity.ticket?_unlimited (ticket : Ticket) (a : Activity) :
    (a.unlimited ticket).ticket? = a.ticket? := by
  cases a <;> rfl

namespace PolledTable

variable {s s' : PolledTable} {label : String} {number : Nat} {a : Activity} {ticket : Ticket}

/-- The state without the limit of the wait on a given registration. -/
def unlimited (s : PolledTable) (ticket : Ticket) : PolledTable :=
  { s with activities := s.activities.map fun e => (e.1, e.2.unlimited ticket) }

/-- Two states that differ in nothing but the limit of the wait on a registration. -/
def Alike (ticket : Ticket) (s s' : PolledTable) : Prop :=
  s.unlimited ticket = s'.unlimited ticket

/-- The same answer, and states alike. -/
structure Agree {α : Type} (ticket : Ticket) (r r' : α × PolledTable) : Prop where
  fst : r.1 = r'.1
  snd : Alike ticket r.2 r'.2

theorem Agree.map {α β : Type} {r r' : α × PolledTable} (h : Agree ticket r r') (f : α → β) :
    Agree ticket (r.map f id) (r'.map f id) :=
  ⟨congrArg f h.fst, h.snd⟩

theorem get?_unlimited (s : PolledTable) (ticket : Ticket) (label : String) :
    (s.unlimited ticket).activities.get? label =
      (s.activities.get? label).map (·.unlimited ticket) :=
  Labelled.get?_map ..

theorem alike_unlimited (s : PolledTable) (ticket : Ticket) :
    Alike ticket (s.unlimited ticket) s := by
  simp only [Alike, unlimited, List.map_map]
  congr 1
  refine List.map_congr_left fun e _ => ?_
  simp only [Function.comp_apply, Numbered.unlimited, Activity.unlimited_unlimited]

theorem put_unlimited (s : PolledTable) (label : String) (number : Nat) (a : Activity) :
    (s.put label number a).unlimited ticket =
      (s.unlimited ticket).put label number (a.unlimited ticket) := by
  simp only [unlimited, put, Labelled.map_set]
  rfl

theorem forget_unlimited (s : PolledTable) (label : String) :
    (s.forget label).unlimited ticket = (s.unlimited ticket).forget label := by
  simp only [unlimited, forget, Labelled.map_remove]

namespace Alike

theorem table (h : Alike ticket s s') : s.table = s'.table := by
  show (s.unlimited ticket).table = (s'.unlimited ticket).table
  rw [h]

theorem put (h : Alike ticket s s') {a' : Activity} (label : String) (number : Nat)
    (ha : a.unlimited ticket = a'.unlimited ticket) :
    Alike ticket (s.put label number a) (s'.put label number a') := by
  rw [Alike, put_unlimited, put_unlimited, h, ha]

theorem forget (h : Alike ticket s s') (label : String) :
    Alike ticket (s.forget label) (s'.forget label) := by
  rw [Alike, forget_unlimited, forget_unlimited, h]

theorem withTable (h : Alike ticket s s') (t : JobTable) :
    Alike ticket { s with table := t } { s' with table := t } := by
  show { s.unlimited ticket with table := t } = { s'.unlimited ticket with table := t }
  rw [h]

theorem ticketAt (h : Alike ticket s s') (label : String) :
    s.ticketAt label = s'.ticketAt label := by
  have hsame : ∀ s : PolledTable, (s.unlimited ticket).ticketAt label = s.ticketAt label :=
    fun s => by
      rw [PolledTable.ticketAt, get?_unlimited, PolledTable.ticketAt]
      cases s.activities.get? label with
      | none => rfl
      | some n => exact n.activity.ticket?_unlimited ticket
  rw [← hsame s, ← hsame s', h]

end Alike

/-! ## Every operation goes through -/

theorem takeUp_unlimited (s : PolledTable) (number : Nat) (reply : Except Error JobPath) :
    (s.unlimited ticket).takeUp number reply =
      ((s.takeUp number reply).1, (s.takeUp number reply).2.1.map (·.unlimited ticket),
        (s.takeUp number reply).2.2.unlimited ticket) := by
  unfold takeUp
  rw [show (s.unlimited ticket).table = s.table from rfl]
  split <;> rfl

theorem attempt_unlimited (s : PolledTable) (ticket : Ticket) (number : Nat) (a : Activity) :
    (s.unlimited ticket).attempt number (a.unlimited ticket) =
      ((s.attempt number a).1, (s.attempt number a).2.1.map (·.unlimited ticket),
        (s.attempt number a).2.2.unlimited ticket) := by
  have hgate : (s.unlimited ticket).gate = s.gate := rfl
  have htable : (s.unlimited ticket).table = s.table := rfl
  cases a with
  | idle => rfl
  | atGate reply =>
    simp only [attempt, Activity.unlimited, hgate, htable]
    split
    · rfl
    · split
      · rfl
      · cases reply with
        | none => rfl
        | some reply => exact s.takeUp_unlimited number reply
  | inCall reply =>
    cases reply with
    | none => rfl
    | some reply => exact s.takeUp_unlimited number reply
  | resolving path result =>
    simp only [attempt, Activity.unlimited, hgate, htable]
    split <;> rfl
  | waiting t limit =>
    simp only [attempt, Activity.unlimited, htable]
    split <;> rfl

theorem poll_unlimited (s : PolledTable) (label : String) :
    Agree ticket ((s.unlimited ticket).poll label) (s.poll label) := by
  simp only [poll, get?_unlimited]
  cases s.activities.get? label with
  | none => exact ⟨rfl, s.alike_unlimited ticket⟩
  | some n =>
    simp only [Option.map_some, Numbered.unlimited, attempt_unlimited]
    generalize s.attempt n.number n.activity = r
    obtain ⟨answer, rest, t⟩ := r
    cases rest with
    | none => exact ⟨rfl, (t.alike_unlimited ticket).forget label⟩
    | some b => exact ⟨rfl, (t.alike_unlimited ticket).put label _ (b.unlimited_unlimited ticket)⟩

/-- What goes through without the limit is the same in states alike. -/
theorem Alike.agree {α : Type} {f : PolledTable → α × PolledTable} (h : Alike ticket s s')
    (hs : Agree ticket (f (s.unlimited ticket)) (f s))
    (hs' : Agree ticket (f (s'.unlimited ticket)) (f s')) : Agree ticket (f s) (f s') := by
  rw [← h] at hs'
  exact ⟨hs.fst.symm.trans hs'.fst, hs.snd.symm.trans hs'.snd⟩

theorem Alike.poll (h : Alike ticket s s') (label : String) :
    Agree ticket (s.poll label) (s'.poll label) :=
  h.agree (f := (·.poll label)) (s.poll_unlimited label) (s'.poll_unlimited label)

theorem drop_unlimited (s : PolledTable) (label : String) :
    (s.unlimited ticket).drop label = ((s.drop label).1, (s.drop label).2.unlimited ticket) := by
  unfold drop
  rw [get?_unlimited]
  cases s.activities.get? label with
  | none => rfl
  | some n =>
    obtain ⟨number, a⟩ := n
    simp only [Option.map_some, Numbered.unlimited, ← forget_unlimited]
    cases a <;> rfl

/-- What is started is no wait. -/
theorem start_unlimited (s : PolledTable) (label : String) (ha : a.unlimited ticket = a) :
    Agree ticket ((s.unlimited ticket).start label a) (s.start label a) := by
  have he := { s with begun := s.begun + 1 }.attempt_unlimited ticket s.begun a
  rw [ha] at he
  simp only [start]
  rw [show ({ s.unlimited ticket with begun := (s.unlimited ticket).begun + 1 } : PolledTable) =
    { s with begun := s.begun + 1 }.unlimited ticket from rfl,
    show (s.unlimited ticket).begun = s.begun from rfl, he]
  generalize { s with begun := s.begun + 1 }.attempt s.begun a = r
  obtain ⟨answer, rest, t⟩ := r
  cases rest with
  | none => exact ⟨rfl, t.alike_unlimited ticket⟩
  | some b =>
    simp only [Option.map_some, drop_unlimited]
    have hdrop := (t.drop label).2.alike_unlimited ticket
    exact ⟨rfl, hdrop.put label _ (b.unlimited_unlimited ticket)⟩

theorem answer_unlimited (s : PolledTable) (label : String) (reply : Except Error JobPath) :
    Agree ticket ((s.unlimited ticket).answer label reply) (s.answer label reply) := by
  have h := s.alike_unlimited ticket
  unfold answer
  rw [get?_unlimited]
  cases s.activities.get? label with
  | none => exact ⟨rfl, h⟩
  | some n =>
    obtain ⟨number, a⟩ := n
    cases a with
    | atGate known | inCall known =>
      cases known with
      | none => exact ⟨rfl, h.put label number rfl⟩
      | some known => exact ⟨rfl, h⟩
    | _ => exact ⟨rfl, h⟩

theorem beginWait_unlimited (s : PolledTable) (label : String) (limit : Option Duration) :
    Agree ticket ((s.unlimited ticket).beginWait label limit) (s.beginWait label limit) := by
  have h := s.alike_unlimited ticket
  unfold beginWait
  rw [get?_unlimited]
  cases s.activities.get? label with
  | none => exact ⟨rfl, h⟩
  | some n =>
    obtain ⟨number, a⟩ := n
    cases a with
    | idle t => exact (h.put (a := .waiting t limit) label number rfl).poll label
    | _ => exact ⟨rfl, h⟩

theorem expire_unlimited (s : PolledTable) (label : String) (hx : s.ticketAt label ≠ some ticket) :
    Agree ticket ((s.unlimited ticket).expire label) (s.expire label) := by
  have h := s.alike_unlimited ticket
  unfold expire
  rw [get?_unlimited]
  cases hs : s.activities.get? label with
  | none => exact ⟨rfl, h⟩
  | some n =>
    obtain ⟨number, a⟩ := n
    cases a with
    | waiting t limit =>
      have ht : t ≠ ticket := by simpa [ticketAt, hs, Activity.ticket?] using hx
      simp only [Option.map_some, Numbered.unlimited, Activity.unlimited, if_neg ht]
      cases limit with
      | none => exact ⟨rfl, h⟩
      | some limit => exact ⟨rfl, (h.forget label).withTable (s.table.drop t)⟩
    | _ => exact ⟨rfl, h⟩

theorem waitWithin_unlimited (s : PolledTable) (label : String) (limit : Duration) :
    Agree ticket ((s.unlimited ticket).waitWithin label limit) (s.waitWithin label limit) := by
  have h := s.alike_unlimited ticket
  unfold waitWithin
  rw [get?_unlimited]
  cases hs : s.activities.get? label with
  | none => exact ⟨rfl, h⟩
  | some n =>
    obtain ⟨number, a⟩ := n
    cases a with
    | idle t => exact ⟨rfl, (h.forget label).withTable (s.table.drop t)⟩
    | _ => exact ⟨rfl, h⟩

/-- The poll at the end of the time of the wait on a registration. -/
def Expires (s : PolledTable) (ticket : Ticket) (x : PollStep) : Prop :=
  ∃ label, x = .expire label ∧ s.ticketAt label = some ticket

theorem step_unlimited (s : PolledTable) (x : PollStep) (hx : ¬ s.Expires ticket x) :
    Agree ticket ((s.unlimited ticket).step x) (s.step x) := by
  cases x with
  | register label reply => exact (s.start_unlimited label rfl).map _
  | resolve label path result => exact (s.start_unlimited label rfl).map _
  | poll label => exact (s.poll_unlimited label).map _
  | wait label => exact (s.beginWait_unlimited label none).map _
  | waitFor label limit => exact (s.beginWait_unlimited label (some limit)).map _
  | expire label => exact (s.expire_unlimited label fun ht => hx ⟨label, rfl, ht⟩).map _
  | waitWithin label limit => exact (s.waitWithin_unlimited label limit).map _
  | answer label reply => exact (s.answer_unlimited label reply).map _
  | drop label =>
    simp only [step, drop_unlimited]
    exact ⟨rfl, (s.drop label).2.alike_unlimited ticket⟩
  | close => exact ⟨rfl, (s.alike_unlimited ticket).withTable s.table.close⟩

theorem Alike.step (h : Alike ticket s s') {x : PollStep} (hx : ¬ s.Expires ticket x) :
    Agree ticket (s.step x) (s'.step x) := by
  refine h.agree (f := (·.step x)) (s.step_unlimited x hx) (s'.step_unlimited x fun hx' => hx ?_)
  obtain ⟨label, rfl, ht⟩ := hx'
  exact ⟨label, rfl, (h.ticketAt label).trans ht⟩

/-- In a run the time of the wait on a registration is not over. -/
def Lasts (s : PolledTable) (ticket : Ticket) : List PollStep → Prop
  | [] => True
  | x :: xs => ¬ s.Expires ticket x ∧ (s.step x).2.Lasts ticket xs

/-- As long as the time is not over, a run says the same with and without the limit. -/
theorem Alike.run (h : Alike ticket s s') {xs : List PollStep} (hx : s.Lasts ticket xs) :
    PolledTable.run xs s = PolledTable.run xs s' ∧ Alike ticket (s.after xs) (s'.after xs) := by
  induction xs generalizing s s' with
  | nil => exact ⟨rfl, h⟩
  | cons x xs ih =>
    obtain ⟨hfst, hsnd⟩ := h.step hx.1
    obtain ⟨hrun, hafter⟩ := ih hsnd hx.2
    refine ⟨?_, hafter⟩
    show ((s.step x).1, (s.step x).2.table) :: PolledTable.run xs (s.step x).2 =
      ((s'.step x).1, (s'.step x).2.table) :: PolledTable.run xs (s'.step x).2
    rw [hfst, hsnd.table, hrun]

/-! ## A wait stays where it is -/

/-- An activity that still holds a waiter of before is what it was. -/
theorem attempt_rest {b : Activity} (h : (s.attempt number a).2.1 = some b)
    (hb : b.ticket? = some ticket) (hr : ticket.serial < s.table.registered) : b = a := by
  have ha : a.ticket? = some ticket := by
    have e := s.attempt_effect number a
    rw [h] at e
    generalize (s.attempt number a).1 = answer at e
    generalize (s.attempt number a).2.2.table = t at e
    cases e with
    | stay hsame => exact hsame.symm.trans hb
    | register path =>
      cases hb
      exact absurd hr (Nat.lt_irrefl _)
  cases a with
  | idle => exact (Option.some.inj h).symm
  | waiting =>
    simp only [attempt] at h
    split at h
    · exact (Option.some.inj h).symm
    · cases h
  | _ => cases ha

/-- The wait of a registration, if it has not ended, is under a given label with a given limit. -/
structure WaitsAt (s : PolledTable) (label : String) (number : Nat) (ticket : Ticket)
    (limit : Option Duration) : Prop where
  serial_lt : ticket.serial < s.table.registered
  eq_of_get? : ∀ other n a, s.activities.get? other = some ⟨n, a⟩ → a.ticket? = some ticket →
    other = label ∧ n = number ∧ a = .waiting ticket limit

namespace WaitsAt

variable {limit : Option Duration}

/-- What is forgotten holds nothing. -/
theorem of_remove (h : WaitsAt s label number ticket limit) (hs : s.Held) {t : PolledTable}
    (hr : s.table.registered ≤ t.table.registered) (gone : String)
    (ht : t.activities = s.activities.remove gone) : WaitsAt t label number ticket limit := by
  refine ⟨Nat.lt_of_lt_of_le h.serial_lt hr, fun other n a hg ha => ?_⟩
  rw [ht] at hg
  exact h.eq_of_get? other n a (Labelled.get?_of_get?_remove hs.labels hg) ha

/-- Something is put under a label that holds no waiter, or what was there. -/
theorem of_set (h : WaitsAt s label number ticket limit) {t : PolledTable}
    (hr : s.table.registered ≤ t.table.registered) {l : Labelled Numbered}
    (hl : ∀ other n a, l.get? other = some ⟨n, a⟩ → s.activities.get? other = some ⟨n, a⟩)
    {other : String} {n : Nat} {b : Activity} (ht : t.activities = l.set other ⟨n, b⟩)
    (hb : b.ticket? = some ticket → s.activities.get? other = some ⟨n, b⟩) :
    WaitsAt t label number ticket limit := by
  refine ⟨Nat.lt_of_lt_of_le h.serial_lt hr, fun other' n' a hg ha => ?_⟩
  rw [ht] at hg
  rcases Labelled.get?_of_get?_set hg with ⟨rfl, he⟩ | hg
  · cases he
    exact h.eq_of_get? _ _ _ (hb ha) ha
  · exact h.eq_of_get? _ _ _ (hl _ _ _ hg) ha

theorem poll (h : WaitsAt s label number ticket limit) (hs : s.Held) (other : String) :
    WaitsAt (s.poll other).2 label number ticket limit := by
  have hr := (hs.poll other).2.registered_le
  cases hg : s.activities.get? other with
  | none =>
    simp only [PolledTable.poll, hg]
    exact h
  | some i =>
    obtain ⟨n, a⟩ := i
    have hact := s.attempt_activities n a
    have hrest : ∀ b, (s.attempt n a).2.1 = some b → b.ticket? = some ticket → b = a :=
      fun b hb ht => attempt_rest hb ht h.serial_lt
    simp only [PolledTable.poll, hg] at hr ⊢
    generalize s.attempt n a = r at hact hrest hr ⊢
    obtain ⟨answer, rest, t⟩ := r
    replace hact : t.activities = s.activities := hact
    cases rest with
    | none => exact h.of_remove hs hr other (congrArg (·.remove other) hact)
    | some b =>
      refine h.of_set hr (fun _ _ _ hl => hl) (congrArg (·.set other ⟨n, b⟩) hact) fun ht => ?_
      rw [hrest b rfl ht, hg]

/-- What is started holds no waiter of before. -/
theorem start (h : WaitsAt s label number ticket limit) (hs : s.Held) (other : String)
    (ha : a.ticket? = none) : WaitsAt (s.start other a).2 label number ticket limit := by
  have hr := (hs.start other ha).2.registered_le
  have hact := { s with begun := s.begun + 1 }.attempt_activities s.begun a
  have hrest : ∀ b, ({ s with begun := s.begun + 1 }.attempt s.begun a).2.1 = some b →
      b.ticket? = some ticket → b = a :=
    fun b hb ht => attempt_rest (s := { s with begun := s.begun + 1 }) hb ht h.serial_lt
  simp only [PolledTable.start] at hr ⊢
  generalize { s with begun := s.begun + 1 }.attempt s.begun a = r at hact hrest hr ⊢
  obtain ⟨answer, rest, t⟩ := r
  replace hact : t.activities = s.activities := hact
  cases rest with
  | none =>
    refine ⟨Nat.lt_of_lt_of_le h.serial_lt hr, fun other' n b hg => ?_⟩
    rw [show t.activities = s.activities from hact] at hg
    exact h.eq_of_get? other' n b hg
  | some b =>
    have hput : ((t.drop other).2.put other s.begun b).activities =
        (s.activities.remove other).set other ⟨s.begun, b⟩ := by
      rw [← hact, ← t.activities_drop other]
      rfl
    refine h.of_set hr (fun _ _ _ hl => Labelled.get?_of_get?_remove hs.labels hl) hput
      fun ht => ?_
    rw [hrest b rfl ht, ha] at ht
    cases ht

theorem beginWait (h : WaitsAt s label number ticket limit) (hs : s.Held) (other : String)
    (limit' : Option Duration) :
    WaitsAt (s.beginWait other limit').2 label number ticket limit := by
  unfold PolledTable.beginWait
  split
  · rename_i n t hg
    have hne : t ≠ ticket := by
      rintro rfl
      obtain ⟨-, -, he⟩ := h.eq_of_get? other n _ hg rfl
      cases he
    refine WaitsAt.poll ?_ (hs.put hg (b := .waiting t limit') rfl) other
    refine h.of_set (Nat.le_refl _) (fun _ _ _ hl => hl) rfl fun ht => ?_
    exact absurd (Option.some.inj ht) hne
  · exact h

theorem step (h : WaitsAt s label number ticket limit) (hs : s.Held) (x : PollStep) :
    WaitsAt (s.step x).2 label number ticket limit := by
  have hr := (hs.step x).2.registered_le
  cases x with
  | register other reply => exact h.start hs other rfl
  | resolve other path result => exact h.start hs other rfl
  | poll other => exact h.poll hs other
  | wait other => exact h.beginWait hs other none
  | waitFor other limit' => exact h.beginWait hs other (some limit')
  | drop other => exact h.of_remove hs hr other (s.activities_drop other)
  | close => exact ⟨h.serial_lt, h.eq_of_get?⟩
  | answer other reply =>
    simp only [PolledTable.step, PolledTable.answer]
    split
    · exact h.of_set (Nat.le_refl _) (fun _ _ _ hl => hl) rfl fun ht => by cases ht
    · exact h.of_set (Nat.le_refl _) (fun _ _ _ hl => hl) rfl fun ht => by cases ht
    · exact h
  | expire other =>
    simp only [PolledTable.step, PolledTable.expire]
    split
    · exact h.of_remove hs (Nat.le_refl _) other rfl
    · exact h
  | waitWithin other limit' =>
    simp only [PolledTable.step, PolledTable.waitWithin]
    split
    · exact h.of_remove hs (Nat.le_refl _) other rfl
    · exact h

theorem after (h : WaitsAt s label number ticket limit) (hs : s.Held) (xs : List PollStep) :
    WaitsAt (s.after xs) label number ticket limit := by
  induction xs generalizing s with
  | nil => exact h
  | cons x xs ih => exact ih (h.step hs x) (hs.step x).1

end WaitsAt

/-! ## The course of a limited wait -/

/-- What the poll at the end of the time says, against the poll of a wait without limit. -/
inductive CutShort (ticket : Ticket) (limit : Duration) : StepAnswer → StepAnswer → Prop
  | outcome (outcome : Except Error JobResult) :
      CutShort ticket limit (.polled (.finished outcome)) (.polled (.finished outcome))
  | timeout :
      CutShort ticket limit (.polled .pending)
        (.polled (.finished (.error (.jobTimeout ticket.path.text limit))))

/-- A wait with a limit that was begun, against one without, followed by the same operations. -/
structure CutsWait (ticket : Ticket) (limit : Duration) (cut uncut : StepAnswer × PolledTable) :
    Prop where
  /-- The first poll says the same. -/
  first : cut.1 = uncut.1
  /-- As long as its time is not over, everything is the same apart from the limit. -/
  same : ∀ ys, cut.2.Lasts ticket ys →
    run ys cut.2 = run ys uncut.2 ∧ Alike ticket (cut.2.after ys) (uncut.2.after ys)
  /-- When its time is over it ends, as the other one does if that can end now, or else with the
  limit. -/
  deadline : ∀ ys label, cut.2.Lasts ticket ys → (cut.2.after ys).ticketAt label = some ticket →
    CutShort ticket limit ((uncut.2.after ys).step (.poll label)).1
      ((cut.2.after ys).step (.expire label)).1

theorem cutShort_outcomeWithin (t : JobTable) (ticket : Ticket) (limit : Duration) :
    CutShort ticket limit (.polled ((t.outcome? ticket).elim .pending .finished))
      (.polled (.finished (t.outcomeWithin ticket limit).1)) := by
  unfold outcomeWithin
  cases t.outcome? ticket with
  | none => exact .timeout
  | some outcome => exact .outcome outcome

/-- A wait that is begun is nowhere else. -/
theorem waitsAt_put (hs : s.Held) (hg : s.activities.get? label = some ⟨number, .idle ticket⟩)
    (limit : Option Duration) :
    WaitsAt (s.put label number (.waiting ticket limit)) label number ticket limit := by
  have ht : s.ticketAt label = some ticket := by
    rw [ticketAt, hg]
    rfl
  refine ⟨hs.holds.serial_lt _ (hs.mem_tickets_iff.2 ⟨label, ht⟩), fun other n a ho ha => ?_⟩
  have hother : other = label := by
    rcases Labelled.get?_of_get?_set ho with ⟨he, -⟩ | ho
    · exact he.symm
    · refine hs.label_eq ht ?_
      rw [ticketAt, ho]
      exact ha
  subst hother
  rw [get?_put] at ho
  cases ho
  exact ⟨rfl, rfl, rfl⟩

/-- A wait with a limit is a wait that is cut at the end of its time. -/
theorem cutsWait (hs : s.Held) (hg : s.activities.get? label = some ⟨number, .idle ticket⟩)
    (limit : Duration) :
    CutsWait ticket limit (s.step (.waitFor label limit)) (s.step (.wait label)) := by
  have hbegin : ∀ l : Option Duration, s.beginWait label l =
      (s.put label number (.waiting ticket l)).poll label := fun l => by
    simp only [beginWait, hg]
  let cut := s.put label number (.waiting ticket (some limit))
  let uncut := s.put label number (.waiting ticket none)
  have halike : Alike ticket cut uncut :=
    Alike.put (show s.unlimited ticket = s.unlimited ticket from rfl) label number
      (by simp [Activity.unlimited])
  have hfirst : Agree ticket (s.step (.waitFor label limit)) (s.step (.wait label)) := by
    simp only [step, hbegin]
    exact (halike.poll label).map _
  have hheld : cut.Held := hs.put hg rfl
  have hwaits : WaitsAt (s.step (.waitFor label limit)).2 label number ticket (some limit) := by
    simp only [step, hbegin]
    exact (waitsAt_put hs hg (some limit)).poll hheld label
  refine ⟨hfirst.fst, fun ys hys => hfirst.snd.run hys, fun ys other hys ho => ?_⟩
  obtain ⟨-, hafter⟩ := hfirst.snd.run hys
  obtain ⟨⟨n, a⟩, hget, ha⟩ := Option.bind_eq_some_iff.1 ho
  obtain ⟨rfl, rfl, rfl⟩ := (hwaits.after (hs.step _).1 ys).eq_of_get? other n a hget ha
  -- The wait without limit is told what this one would be told if its time were not over.
  show CutShort ticket limit (.polled (PolledTable.poll _ other).1)
    (.polled (PolledTable.expire _ other).1)
  rw [← (hafter.poll other).fst, poll_fst hget, attempt_waiting_fst, expire_fst hget]
  exact cutShort_outcomeWithin ..

/-- So it is if the time is over at once. -/
theorem cutShort_waitWithin (hg : s.activities.get? label = some ⟨number, .idle ticket⟩)
    (limit : Duration) :
    CutShort ticket limit (s.step (.wait label)).1 (s.step (.waitWithin label limit)).1 := by
  show CutShort ticket limit (.polled (s.beginWait label none).1)
    (.polled (s.waitWithin label limit).1)
  rw [beginWait_fst hg, waitWithin_fst hg]
  exact cutShort_outcomeWithin ..

end PolledTable

end SystemdControl
