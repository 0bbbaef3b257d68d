import SystemdControl.Proofs.Job.Gate

/-!
# Registrations that fail

A registration can end without a waiter in many ways: the manager refuses its request, the table is
closed before it has the gate or while its request is under way, or it is abandoned before the gate
or then. `PolledTable.FailsIn` is any of them, told only by what is left afterwards.

In all of them the table stays as it was, though the reply may name a job that someone waits for;
the gate is open again, and what had not issued its request never does
(`PolledTable.failed_registration_changes_nothing`).
-/

namespace SystemdControl

open JobTable

namespace PolledTable

variable {s : PolledTable} {label : String} {number : Nat} {a : Activity} {x : PollStep}

/-- An operation that is part of a registration: it begins, is polled, is answered or is
abandoned. -/
inductive PartOf (s : PolledTable) (number : Nat) : PollStep → Prop
  | begin (label : String) (reply : Option (Except Error JobPath)) (h : number = s.begun) :
      PartOf s number (.register label reply)
  | poll {label : String} {a : Activity} (h : s.activities.get? label = some ⟨number, a⟩)
      (ha : a.isRegistration = true) : PartOf s number (.poll label)
  | answer {label : String} {a : Activity} (h : s.activities.get? label = some ⟨number, a⟩)
      (ha : a.isRegistration = true) (reply : Except Error JobPath) :
      PartOf s number (.answer label reply)
  | drop {label : String} {a : Activity} (h : s.activities.get? label = some ⟨number, a⟩)
      (ha : a.isRegistration = true) : PartOf s number (.drop label)

/-- A registration is before the gate or has its request under way. -/
def Registers (s : PolledTable) (number : Nat) : Prop :=
  ∃ i ∈ s.items, i.number = number ∧ i.activity.isRegistration = true

/-- A registration ends in an operation, and no waiter of it remains. -/
def FailsIn (s : PolledTable) (number : Nat) (x : PollStep) : Prop :=
  (s.Registers number ∨ PartOf s number x) ∧ ∀ i ∈ (s.step x).2.items, i.number ≠ number

/-- An operation leaves the table alone, unless it takes its label from a waiter, which then goes
away. -/
def KeepsTable (s : PolledTable) (x : PollStep) : Prop :=
  (s.step x).2.table = s.table ∨
    ∃ label reply, x = .register label reply ∧ (s.step x).2.table = (s.step (.drop label)).2.table

/-- An attempt of a registration that leaves no waiter leaves the table alone. -/
theorem attempt_table_of_isRegistration (s : PolledTable) (number : Nat)
    (ha : a.isRegistration = true)
    (hr : ∀ b, (s.attempt number a).2.1 = some b → b.isRegistration = true) :
    (s.attempt number a).2.2.table = s.table := by
  have e := s.attempt_effect number a
  generalize s.attempt number a = r at e hr
  obtain ⟨answer, rest, s'⟩ := r
  generalize s'.table = t' at e
  cases e with
  | stay => rfl
  | register path => cases hr _ rfl
  | resolve | finish => cases ha

theorem drop_table_of_isRegistration (h : s.activities.get? label = some ⟨number, a⟩)
    (ha : a.isRegistration = true) : (s.drop label).2.table = s.table := by
  have ht : s.ticketAt label = none := by
    simp [ticketAt, h, Activity.ticket?_of_isRegistration ha]
  rw [table_drop, ht, Option.elim_none]

theorem start_keepsTable {reply : Option (Except Error JobPath)}
    (hr : ∀ i ∈ (s.start label (.atGate reply)).2.items, i.number = s.begun →
      i.activity.isRegistration = true) : KeepsTable s (.register label reply) := by
  let s₀ : PolledTable := { s with begun := s.begun + 1 }
  have ht : (∀ b, (s₀.attempt s.begun (.atGate reply)).2.1 = some b → b.isRegistration = true) →
      (s₀.attempt s.begun (.atGate reply)).2.2.table = s.table :=
    s₀.attempt_table_of_isRegistration s.begun rfl
  have hact := s₀.attempt_activities s.begun (.atGate reply)
  simp only [KeepsTable, step, register, start, Prod.map_snd, id] at hr ⊢
  generalize s₀.attempt s.begun (.atGate reply) = r at ht hact hr ⊢
  obtain ⟨answer, rest, s'⟩ := r
  cases rest with
  | none => exact .inl (ht (fun _ hb => by cases hb))
  | some b =>
    have hb : b.isRegistration = true := hr ⟨s.begun, b⟩ (mem_items (get?_put ..)) rfl
    have htable : s'.table = s.table := ht fun c hc => by cases hc; exact hb
    have hat : s'.ticketAt label = s.ticketAt label := by
      simp only [ticketAt, show s'.activities = s.activities from hact]
    refine .inr ⟨label, reply, rfl, ?_⟩
    show (s'.drop label).2.table = (s.drop label).2.table
    rw [table_drop, table_drop, hat, htable]

theorem PartOf.keepsTable (h : PartOf s number x)
    (hr : ∀ i ∈ (s.step x).2.items, i.number = number → i.activity.isRegistration = true) :
    KeepsTable s x := by
  cases h with
  | begin label reply hn => exact start_keepsTable fun i hi he => hr i hi (he.trans hn.symm)
  | @poll label a hg ha =>
    refine .inl ((poll_table hg).trans (s.attempt_table_of_isRegistration number ha fun b hb => ?_))
    refine hr ⟨number, b⟩ ?_ rfl
    show _ ∈ (s.poll label).2.items
    simp only [PolledTable.poll, hg]
    generalize s.attempt number a = r at hb
    obtain ⟨answer, rest, s'⟩ := r
    cases hb
    exact mem_items (get?_put ..)
  | @answer label a hg ha reply =>
    refine .inl ?_
    simp only [step, PolledTable.answer, hg]
    split <;> rfl
  | drop hg ha => exact .inl (drop_table_of_isRegistration hg ha)

theorem PartOf.registers_or_eq_begun (h : PartOf s number x) :
    s.Registers number ∨ number = s.begun := by
  cases h with
  | begin label reply hn => exact .inr hn
  | poll hg ha | answer hg ha | drop hg ha => exact .inl ⟨_, mem_items hg, rfl, ha⟩

/-- A registration that an operation is part of has begun after it. -/
theorem PartOf.lt_begun (h : PartOf s number x) (hlt : ∀ i ∈ s.items, i.number < s.begun) :
    number < (s.step x).2.begun := by
  cases h with
  | begin label reply hn =>
    exact hn ▸ (s.start_begun label (.atGate reply)).symm ▸ Nat.lt_succ_self _
  | poll hg | answer hg | drop hg =>
    exact Nat.lt_of_lt_of_le (hlt _ (mem_items hg)) (s.begun_le_step _)

/-- As long as a registration goes on, it is all that any operation has left of it. -/
theorem Registers.isRegistration (before later : List PollStep)
    (h : (after {} (before ++ later)).Registers number) {i : Numbered}
    (hi : i ∈ (after {} before).items) (hn : i.number = number) :
    i.activity.isRegistration = true := by
  by_contra hr
  have ho := (orderly_after before).add_spent_of_mem hi (Bool.eq_false_iff.2 hr)
  have hlater := ho.after (Held.start_empty.after before) later
  rw [← after_append] at hlater
  obtain ⟨j, hj, hjn, hjr⟩ := h
  exact hlater.not_spent j hj hjr (hjn.trans hn.symm ▸ List.mem_cons_self)

/-- A registration ends before its request could be issued: it is still before the gate, and the
table is closed, or it is abandoned. -/
def EndsAtGate (s : PolledTable) (number : Nat) (x : PollStep) : Prop :=
  (∀ i ∈ s.items, i.number = number → i.activity.isAtGate = true) ∧
    (s.table.closed = true ∨ s.Registers number ∧ ∀ label, x ≠ .poll label)

/-- A registration that ends in any way without a waiter, at any moment of any run, changes nothing
in the table:

* no operation that is part of it touches an entry or a waiter, nor does abandoning it;
* from its end on it does not hold the gate;
* if it was still before the gate at its end, its request is never issued. -/
theorem failed_registration_changes_nothing (xs : List PollStep) (x : PollStep) (number : Nat)
    (h : FailsIn (after {} xs) number x) :
    let s := after {} xs
    (∀ before y later, xs ++ [x] = before ++ y :: later → PartOf (after {} before) number y →
      KeepsTable (after {} before) y) ∧
    (∀ label a, s.activities.get? label = some ⟨number, a⟩ → (s.drop label).2.table = s.table) ∧
    (∀ later, (after {} (xs ++ x :: later)).gate ≠ some number) ∧
    (EndsAtGate s number x → ∀ later, number ∉ issued {} (xs ++ x :: later)) := by
  intro s
  have ho := orderly_after xs
  have hheld : s.Held := Held.start_empty.after xs
  obtain ⟨hgoing, hgone⟩ := h
  have hreg_lt : s.Registers number → number < s.begun := fun ⟨i, hi, hn, _⟩ => hn ▸ ho.lt i hi
  have hlt : number < (s.step x).2.begun :=
    hgoing.elim (fun hr => Nat.lt_of_lt_of_le (hreg_lt hr) (s.begun_le_step x))
      fun hp => hp.lt_begun ho.lt
  replace hgoing : s.Registers number ∨ number = s.begun :=
    hgoing.elim .inl PartOf.registers_or_eq_begun
  have hover : Orderly (s.step x).2.gate (s.step x).2.begun (issued {} xs ++ (s.issuedIn x).toList)
      [number] (s.step x).2.items :=
    (ho.step hheld x).add_spent hlt fun i hi _ => hgone i hi
  have hafter : ∀ later, after {} (xs ++ x :: later) = (s.step x).2.after later := fun later =>
    after_append {} xs (x :: later)
  refine ⟨fun before y later he hy => ?parts, fun label a hg => ?abandoned, fun later => ?gate,
    fun ⟨hgate, hend⟩ later => ?issued⟩
  case parts =>
    rcases concat_eq_append_cons_iff.1 he with ⟨rfl, rfl, -⟩ | ⟨rest, -, rfl⟩
    · exact hy.keepsTable fun i hi hn => absurd hn (hgone i hi)
    · have hsplit : before ++ y :: rest = (before ++ [y]) ++ rest := by simp
      have hreg : s.Registers number := by
        -- What has begun already does not begin again.
        refine hgoing.resolve_right (Nat.ne_of_lt ?_)
        have hs : s = ((after {} before).step y).2.after rest := after_append {} before (y :: rest)
        rw [hs]
        exact Nat.lt_of_lt_of_le (hy.lt_begun (orderly_after before).lt) (begun_le_after _ rest)
      refine hy.keepsTable fun i hi hn => ?_
      have hi' : i ∈ (after {} (before ++ [y])).items := by rwa [after_append]
      exact Registers.isRegistration _ rest (hsplit ▸ hreg) hi' hn
  case abandoned =>
    have hreg : s.Registers number := by
      exact hgoing.resolve_right (Nat.ne_of_lt (ho.lt _ (mem_items hg)))
    refine drop_table_of_isRegistration hg ?_
    exact Registers.isRegistration xs [] (by rwa [List.append_nil])
      (mem_items hg) rfl
  case gate =>
    rw [hafter]
    exact (hover.after (hheld.step x).1 later).gate_ne_of_mem_spent List.mem_cons_self
  case issued =>
    rw [issued_append, List.mem_append, not_or]
    refine ⟨fun hm => ?_, fun hm => ?_⟩
    · rcases hgoing with ⟨i, hi, hn, -⟩ | hn
      · exact ho.not_issued i hi (hgate i hi hn) (hn ▸ hm)
      · exact Nat.lt_irrefl _ (hn ▸ ho.issued_lt _ hm)
    · rw [issued, List.mem_append, Option.mem_toList] at hm
      refine hm.elim (fun hx => ?_) (hover.not_mem_issued (hheld.step x).1 List.mem_cons_self later)
      obtain ⟨hopen, hx⟩ := issuedIn_cases hx
      rcases hend with hc | ⟨hr, hpoll⟩
      · rw [hc] at hopen
        cases hopen
      · rcases hx with hn | ⟨⟨label, rfl⟩, -⟩
        · exact absurd (hreg_lt hr) (hn ▸ Nat.lt_irrefl _)
        · exact hpoll label rfl

/-- The five ways to fail, all beside a waiter for the job that the reply names: refused, closed
while the request is under way, abandoned then, abandoned before the gate, closed before the
gate. -/
theorem failed_registration_changes_nothing_five :
    let path : JobPath := ⟨"/job/1"⟩
    let xs : List PollStep :=
      [.register "w" (some (.ok path)), .register "b" none, .register "c" none]
    let ways : List (List PollStep × PollStep × Nat) :=
      [([.answer "b" (.error (.io "no"))], .poll "b", 1),
        ([.answer "b" (.ok path), .close], .poll "b", 1), ([.answer "b" (.ok path)], .drop "b", 1),
        ([], .drop "c", 2), ([.close, .drop "b"], .poll "c", 2)]
    (∀ w ∈ ways, FailsIn (after {} (xs ++ w.1)) w.2.2 w.2.1 ∧
      KeepsTable (after {} (xs ++ w.1)) w.2.1 ∧
      (after {} (xs ++ w.1 ++ [w.2.1])).gate ≠ some w.2.2) ∧
    ∀ w ∈ ways.drop 3, EndsAtGate (after {} (xs ++ w.1)) w.2.2 w.2.1 ∧
      w.2.2 ∉ issued {} (xs ++ w.1 ++ [w.2.1]) := by
  intro path xs ways
  have hparts : ∀ w ∈ ways, PartOf (after {} (xs ++ w.1)) w.2.2 w.2.1 := by
    simp only [ways, List.forall_mem_cons]
    exact ⟨.poll rfl rfl, .poll rfl rfl, .drop rfl rfl, .drop rfl rfl, .poll rfl rfl,
      fun _ h => absurd h List.not_mem_nil⟩
  have hgone : ∀ w ∈ ways, ∀ i ∈ ((after {} (xs ++ w.1)).step w.2.1).2.items,
      i.number ≠ w.2.2 := by decide
  have hgate : ∀ w ∈ ways.drop 3, EndsAtGate (after {} (xs ++ w.1)) w.2.2 w.2.1 := by
    simp only [ways, List.drop_succ_cons, List.drop_zero, List.forall_mem_cons]
    exact ⟨⟨by decide, .inr ⟨⟨_, mem_items (show (activities _).get? "c" = _ from rfl), rfl, rfl⟩,
      by simp⟩⟩, ⟨by decide, .inl rfl⟩, fun _ h => absurd h List.not_mem_nil⟩
  have hfails : ∀ w ∈ ways, FailsIn (after {} (xs ++ w.1)) w.2.2 w.2.1 := fun w hw =>
    ⟨.inr (hparts w hw), hgone w hw⟩
  refine ⟨fun w hw => ?_, fun w hw => ⟨hgate w hw, ?_⟩⟩
  · obtain ⟨hkeep, -, hopen, -⟩ := failed_registration_changes_nothing _ _ _ (hfails w hw)
    exact ⟨hfails w hw, hkeep _ _ [] rfl (hparts w hw), hopen []⟩
  · obtain ⟨-, -, -, hissued⟩ :=
      failed_registration_changes_nothing _ _ _ (hfails w (List.mem_of_mem_drop hw))
    exact hissued (hgate w hw) []

end PolledTable

end SystemdControl
