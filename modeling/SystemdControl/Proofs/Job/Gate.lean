import SystemdControl.Proofs.Job.Ownership

/-!
# The gate of a polled table

A registration keeps the gate from the moment at which its request is issued until it ends or its
waiter is handed out. The gate is given by number, so what it says is about all activities at once.

* `PolledTable.issues` is when a request is issued, `PolledTable.issued` are the registrations whose
  requests were issued in a run;
* `Orderly` ties gate and activities together: the one registration with its request under way holds
  the gate, and one before the gate has issued nothing. Every operation keeps this
  (`Orderly.step`), so it holds at every moment of a run (`PolledTable.orderly_after`).
-/

namespace SystemdControl

open JobTable

namespace Activity

def isAtGate : Activity → Bool
  | atGate _ => true
  | _ => false

def isInCall : Activity → Bool
  | inCall _ => true
  | _ => false

/-- Whether an activity is a registration that has no waiter yet. -/
def isRegistration (a : Activity) : Bool :=
  a.isAtGate || a.isInCall

theorem ticket?_of_isRegistration {a : Activity} (h : a.isRegistration = true) :
    a.ticket? = none := by
  cases a with
  | idle | waiting => cases h
  | _ => rfl

end Activity

/-- The number of a registration whose request is under way. -/
def Numbered.caller? (i : Numbered) : Option Nat :=
  if i.activity.isInCall then some i.number else none

theorem Numbered.caller?_of_isInCall {i : Numbered} (h : i.activity.isInCall = true) :
    i.caller? = some i.number :=
  if_pos h

theorem Numbered.caller?_of_not_isInCall {i : Numbered} (h : i.activity.isInCall = false) :
    i.caller? = none :=
  if_neg (Bool.eq_false_iff.1 h)

/-- The gate is held by the one registration whose request is under way, numbers are not used twice,
a registration before the gate is none of those that have `issued` a request, and none of those that
are `spent` is a registration any more. -/
structure Orderly (gate : Option Nat) (begun : Nat) (issued spent : List Nat)
    (items : List Numbered) : Prop where
  numbers : (items.map (·.number)).Nodup
  lt : ∀ i ∈ items, i.number < begun
  callers : (items.filterMap Numbered.caller?).Perm gate.toList
  issued_lt : ∀ n ∈ issued, n < begun
  not_issued : ∀ i ∈ items, i.activity.isAtGate = true → i.number ∉ issued
  spent_lt : ∀ n ∈ spent, n < begun
  not_spent : ∀ i ∈ items, i.activity.isRegistration = true → i.number ∉ spent

namespace Orderly

variable {gate : Option Nat} {begun n : Nat} {issued spent : List Nat} {items rest : List Numbered}
  {a b : Activity}

theorem start_empty : Orderly none 0 [] [] [] where
  numbers := .nil
  lt _ h := absurd h List.not_mem_nil
  callers := .nil
  issued_lt _ h := absurd h List.not_mem_nil
  not_issued _ h := absurd h List.not_mem_nil
  spent_lt _ h := absurd h List.not_mem_nil
  not_spent _ h := absurd h List.not_mem_nil

theorem congr (h : Orderly gate begun issued spent items) (hp : items.Perm rest) :
    Orderly gate begun issued spent rest where
  numbers := (hp.map _).nodup_iff.1 h.numbers
  lt i hi := h.lt i (hp.mem_iff.2 hi)
  callers := (hp.filterMap _).symm.trans h.callers
  issued_lt := h.issued_lt
  not_issued i hi := h.not_issued i (hp.mem_iff.2 hi)
  spent_lt := h.spent_lt
  not_spent i hi := h.not_spent i (hp.mem_iff.2 hi)

/-- The gate is held exactly by a registration whose request is under way. -/
theorem gate_eq_iff (h : Orderly gate begun issued spent items) :
    gate = some n ↔ ∃ i ∈ items, i.number = n ∧ i.activity.isInCall = true := by
  rw [← Option.mem_toList, ← h.callers.mem_iff, List.mem_filterMap]
  refine exists_congr fun i => and_congr_right fun _ => ?_
  unfold Numbered.caller?
  split <;> simp [*]

theorem gate_eq_head_iff (h : Orderly gate begun issued spent (⟨n, a⟩ :: rest)) :
    gate = some n ↔ a.isInCall = true := by
  rw [h.gate_eq_iff]
  refine ⟨fun ⟨i, hi, hn, hc⟩ => ?_, fun hc => ⟨⟨n, a⟩, List.mem_cons_self, rfl, hc⟩⟩
  rcases List.mem_cons.1 hi with rfl | hi
  · exact hc
  · exact absurd (List.mem_map_of_mem hi) (hn ▸ (List.nodup_cons.1 h.numbers).1)

/-- A new activity, which does not hold the gate. -/
theorem enter (h : Orderly gate begun issued spent items) (ha : a.isInCall = false) :
    Orderly gate (begun + 1) issued spent (⟨begun, a⟩ :: items) where
  numbers := by
    refine List.nodup_cons.2 ⟨fun hm => ?_, h.numbers⟩
    obtain ⟨i, hi, hn⟩ := List.mem_map.1 hm
    exact Nat.lt_irrefl _ (hn ▸ h.lt i hi)
  lt i hi := by
    rcases List.mem_cons.1 hi with rfl | hi
    · exact Nat.lt_succ_self _
    · exact Nat.lt_succ_of_lt (h.lt i hi)
  callers := by
    rw [List.filterMap_cons_none (Numbered.caller?_of_not_isInCall ha)]
    exact h.callers
  issued_lt n hn := Nat.lt_succ_of_lt (h.issued_lt n hn)
  not_issued i hi hg := by
    rcases List.mem_cons.1 hi with rfl | hi
    · exact fun hm => Nat.lt_irrefl _ (h.issued_lt _ hm)
    · exact h.not_issued i hi hg
  spent_lt n hn := Nat.lt_succ_of_lt (h.spent_lt n hn)
  not_spent i hi hr := by
    rcases List.mem_cons.1 hi with rfl | hi
    · exact fun hm => Nat.lt_irrefl _ (h.spent_lt _ hm)
    · exact h.not_spent i hi hr

/-- An activity goes on, without or with the gate as before. -/
theorem keep (h : Orderly gate begun issued spent (⟨n, a⟩ :: rest))
    (hg : b.isAtGate = a.isAtGate) (hc : b.isInCall = a.isInCall) :
    Orderly gate begun issued spent (⟨n, b⟩ :: rest) where
  numbers := h.numbers
  lt := List.forall_mem_cons.2 (List.forall_mem_cons.1 h.lt)
  callers := by simpa only [List.filterMap_cons, Numbered.caller?, hc] using h.callers
  issued_lt := h.issued_lt
  not_issued := by
    obtain ⟨hhead, hrest⟩ := List.forall_mem_cons.1 h.not_issued
    exact List.forall_mem_cons.2 ⟨fun hb => hhead (hg ▸ hb), hrest⟩
  spent_lt := h.spent_lt
  not_spent := by
    obtain ⟨hhead, hrest⟩ := List.forall_mem_cons.1 h.not_spent
    refine List.forall_mem_cons.2 ⟨fun hb => hhead ?_, hrest⟩
    rwa [Activity.isRegistration, ← hg, ← hc]

/-- A registration issues its request and takes the gate. -/
theorem issue {reply : Option (Except Error JobPath)}
    (h : Orderly none begun issued spent (⟨n, .atGate reply⟩ :: rest)) :
    Orderly (some n) begun (issued ++ [n]) spent (⟨n, .inCall reply⟩ :: rest) where
  numbers := h.numbers
  lt := List.forall_mem_cons.2 (List.forall_mem_cons.1 h.lt)
  callers := by
    have hrest : (rest.filterMap Numbered.caller?).Perm [] := h.callers
    rw [List.filterMap_cons_some (Numbered.caller?_of_isInCall rfl)]
    exact hrest.cons n
  issued_lt m hm := by
    rcases List.mem_append.1 hm with hm | hm
    · exact h.issued_lt m hm
    · rw [List.mem_singleton.1 hm]
      exact h.lt _ List.mem_cons_self
  not_issued i hi hg hm := by
    rcases List.mem_cons.1 hi with rfl | hi
    · cases hg
    · rcases List.mem_append.1 hm with hm | hm
      · exact h.not_issued i (List.mem_cons_of_mem _ hi) hg hm
      · have hn : n ∉ rest.map (·.number) := (List.nodup_cons.1 h.numbers).1
        exact hn (List.mem_singleton.1 hm ▸ List.mem_map_of_mem hi)
  spent_lt := h.spent_lt
  not_spent := by
    obtain ⟨hhead, hrest⟩ := List.forall_mem_cons.1 h.not_spent
    exact List.forall_mem_cons.2 ⟨fun _ => hhead rfl, hrest⟩

/-- What remains of an activity is no registration, and the gate is open if it held it. -/
theorem leave (h : Orderly gate begun issued spent (⟨n, a⟩ :: rest)) {o : Option Activity}
    (ho : ∀ b, o = some b → b.isRegistration = false) :
    Orderly (if gate = some n then none else gate) begun issued spent
      (o.toList.map (⟨n, ·⟩) ++ rest) := by
  have hrest : Orderly (if gate = some n then none else gate) begun issued spent rest := by
    refine ⟨(List.nodup_cons.1 h.numbers).2, (List.forall_mem_cons.1 h.lt).2, ?_, h.issued_lt,
      (List.forall_mem_cons.1 h.not_issued).2, h.spent_lt, (List.forall_mem_cons.1 h.not_spent).2⟩
    have hc := h.callers
    split
    · rename_i hg
      have ha : a.isInCall = true := h.gate_eq_head_iff.1 hg
      rw [hg, List.filterMap_cons_some (Numbered.caller?_of_isInCall (i := ⟨n, a⟩) ha)] at hc
      exact hc.cons_inv
    · rename_i hg
      have ha : a.isInCall = false := Bool.eq_false_iff.2 (mt h.gate_eq_head_iff.2 hg)
      rwa [List.filterMap_cons_none (Numbered.caller?_of_not_isInCall (i := ⟨n, a⟩) ha)] at hc
  cases o with
  | none => exact hrest
  | some b =>
    have hb := ho b rfl
    rw [Activity.isRegistration, Bool.or_eq_false_iff] at hb
    refine ⟨h.numbers, List.forall_mem_cons.2 (List.forall_mem_cons.1 h.lt), ?_, h.issued_lt,
      List.forall_mem_cons.2 ⟨fun hg => ?_, hrest.not_issued⟩, h.spent_lt,
      List.forall_mem_cons.2 ⟨fun hr => ?_, hrest.not_spent⟩⟩
    · rw [Option.toList_some, List.map_singleton, List.singleton_append,
        List.filterMap_cons_none (Numbered.caller?_of_not_isInCall hb.2)]
      exact hrest.callers
    · rw [hb.1] at hg
      cases hg
    · rw [ho b rfl] at hr
      cases hr

/-- As `leave`, when the gate was not held. -/
theorem leave_of_not_isInCall (h : Orderly gate begun issued spent (⟨n, a⟩ :: rest))
    (ha : a.isInCall = false) : Orderly gate begun issued spent rest := by
  have hg : gate ≠ some n := fun hg => by simp [h.gate_eq_head_iff.1 hg] at ha
  simpa [hg] using h.leave (o := none) fun _ hb => by cases hb

/-- A number that no registration has is over. -/
theorem add_spent (h : Orderly gate begun issued spent items) (hn : n < begun)
    (ho : ∀ i ∈ items, i.activity.isRegistration = true → i.number ≠ n) :
    Orderly gate begun issued (n :: spent) items where
  numbers := h.numbers
  lt := h.lt
  callers := h.callers
  issued_lt := h.issued_lt
  not_issued := h.not_issued
  spent_lt := List.forall_mem_cons.2 ⟨hn, h.spent_lt⟩
  not_spent i hi hr hm := (List.mem_cons.1 hm).elim (ho i hi hr) (h.not_spent i hi hr)

theorem gate_ne_of_mem_spent (h : Orderly gate begun issued spent items) (hn : n ∈ spent) :
    gate ≠ some n := fun hg => by
  obtain ⟨i, hi, rfl, hc⟩ := h.gate_eq_iff.1 hg
  exact h.not_spent i hi (by simp [Activity.isRegistration, hc]) hn

end Orderly

namespace PolledTable

variable {s : PolledTable} {label : String} {number : Nat} {a : Activity}

/-- What is under some label. -/
def items (s : PolledTable) : List Numbered :=
  s.activities.map (·.2)

theorem items_perm_of_get? {i : Numbered} (h : s.activities.get? label = some i) :
    s.items.Perm (i :: (s.forget label).items) :=
  (Labelled.perm_of_get? h).map _

theorem items_put (s : PolledTable) (label : String) (number : Nat) (a : Activity) :
    (s.put label number a).items.Perm (⟨number, a⟩ :: (s.forget label).items) :=
  (Labelled.set_perm s.activities label ⟨number, a⟩).map _

theorem mem_items (h : s.activities.get? label = some ⟨number, a⟩) : ⟨number, a⟩ ∈ s.items :=
  (items_perm_of_get? h).mem_iff.2 List.mem_cons_self

/-! ## Requests that are issued -/

/-- Whether an attempt of an activity issues a request: that of a registration which finds the gate
free and the table open. -/
def issues (s : PolledTable) (a : Activity) : Bool :=
  a.isAtGate && s.gate.isNone && !s.table.closed

/-- The number of an activity that issues a request when it is attempted. -/
def issuer? (s : PolledTable) (i : Numbered) : Option Nat :=
  if s.issues i.activity then some i.number else none

/-- The registration whose request is issued in an operation. -/
def issuedIn (s : PolledTable) : PollStep → Option Nat
  | .register _ reply => s.issuer? ⟨s.begun, .atGate reply⟩
  | .poll label => (s.activities.get? label).bind s.issuer?
  | _ => none

/-- The registrations whose requests are issued in a run. -/
def issued (s : PolledTable) : List PollStep → List Nat
  | [] => []
  | x :: xs => (s.issuedIn x).toList ++ issued (s.step x).2 xs

theorem issued_append (s : PolledTable) (xs ys : List PollStep) :
    s.issued (xs ++ ys) = s.issued xs ++ (s.after xs).issued ys := by
  induction xs generalizing s with
  | nil => rfl
  | cons x xs ih =>
    show _ ++ (s.step x).2.issued (xs ++ ys) = _
    rw [ih, ← List.append_assoc]
    rfl

/-- Who issues a request: a new registration, or one before the gate that is polled. -/
theorem issuedIn_cases {n : Nat} {x : PollStep} (h : s.issuedIn x = some n) :
    s.table.closed = false ∧ (n = s.begun ∨ (∃ label, x = .poll label) ∧
      ∃ i ∈ s.items, i.number = n ∧ i.activity.isAtGate = true) := by
  have hissuer : ∀ i, s.issuer? i = some n →
      s.table.closed = false ∧ i.number = n ∧ i.activity.isAtGate = true := fun i hs => by
    unfold issuer? at hs
    split at hs
    · rename_i hi
      simp only [issues, Bool.and_eq_true, Bool.not_eq_eq_eq_not, Bool.not_true] at hi
      exact ⟨hi.2, Option.some.inj hs, hi.1.1⟩
    · cases hs
  cases x with
  | register label reply =>
    obtain ⟨hc, hn, -⟩ := hissuer _ h
    exact ⟨hc, .inl hn.symm⟩
  | poll label =>
    obtain ⟨i, hg, hs⟩ := Option.bind_eq_some_iff.1 h
    obtain ⟨hc, hn, ha⟩ := hissuer i hs
    exact ⟨hc, .inr ⟨⟨label, rfl⟩, i, mem_items hg, hn, ha⟩⟩
  | _ => cases h

/-- As long as a registration does not issue its request, the answer to it does not matter. -/
theorem attempt_of_not_issues {reply : Option (Except Error JobPath)}
    (h : s.issues (.atGate reply) = false) (number : Nat) :
    s.attempt number (.atGate reply) =
      if s.gate.isSome then (.pending, some (.atGate reply), s)
      else (.failed .listenerUnavailable, none, s) := by
  simp only [attempt]
  split
  · rfl
  · rename_i hg
    have hc : s.table.closed = true := by
      simpa [issues, Activity.isAtGate, Option.not_isSome_iff_eq_none.1 hg] using h
    rw [if_pos hc]

theorem takeUp_gate (s : PolledTable) (number : Nat) (reply : Except Error JobPath) :
    (s.takeUp number reply).2.2.gate = if s.gate = some number then none else s.gate := by
  unfold takeUp
  split <;> rfl

theorem takeUp_rest (s : PolledTable) (number : Nat) (reply : Except Error JobPath) {b : Activity}
    (h : (s.takeUp number reply).2.1 = some b) : b.isRegistration = false := by
  unfold takeUp at h
  split at h
  · cases h
  · cases h
    rfl

theorem attempt_begun (s : PolledTable) (number : Nat) (a : Activity) :
    (s.attempt number a).2.2.begun = s.begun := by
  have htakeUp : ∀ reply, (s.takeUp number reply).2.2.begun = s.begun := fun reply => by
    unfold takeUp
    split <;> rfl
  cases a with
  | idle => rfl
  | atGate reply =>
    simp only [attempt]
    split
    · rfl
    · split
      · rfl
      · cases reply with
        | none => rfl
        | some reply => exact htakeUp reply
  | inCall reply =>
    cases reply with
    | none => rfl
    | some reply => exact htakeUp reply
  | resolving | waiting =>
    simp only [attempt]
    split <;> rfl

theorem drop_begun (s : PolledTable) (label : String) : (s.drop label).2.begun = s.begun := by
  unfold drop
  split
  · rfl
  · split <;> rfl

theorem poll_begun (s : PolledTable) (label : String) : (s.poll label).2.begun = s.begun := by
  cases hg : s.activities.get? label with
  | none => simp only [poll, hg]
  | some i =>
    have hbegun := s.attempt_begun i.number i.activity
    simp only [poll, hg]
    generalize s.attempt i.number i.activity = r at hbegun ⊢
    obtain ⟨answer, rest, s'⟩ := r
    cases rest <;> exact hbegun

theorem start_begun (s : PolledTable) (label : String) (a : Activity) :
    (s.start label a).2.begun = s.begun + 1 := by
  have hbegun := { s with begun := s.begun + 1 }.attempt_begun s.begun a
  simp only [start]
  generalize { s with begun := s.begun + 1 }.attempt s.begun a = r at hbegun ⊢
  obtain ⟨answer, rest, s'⟩ := r
  cases rest with
  | none => exact hbegun
  | some b => exact (s'.drop_begun label).trans hbegun

theorem begun_le_step (s : PolledTable) (x : PollStep) : s.begun ≤ (s.step x).2.begun := by
  have hwait : ∀ label limit, s.begun ≤ (s.beginWait label limit).2.begun := fun label limit => by
    unfold beginWait
    split
    · rw [poll_begun]
      exact Nat.le_refl _
    · exact Nat.le_refl _
  cases x with
  | register label reply => exact Nat.le_of_succ_le (Nat.le_of_eq (s.start_begun label _).symm)
  | resolve label path result =>
    exact Nat.le_of_succ_le (Nat.le_of_eq (s.start_begun label _).symm)
  | poll label => exact Nat.le_of_eq (s.poll_begun label).symm
  | drop label => exact Nat.le_of_eq (s.drop_begun label).symm
  | wait label => exact hwait label none
  | waitFor label limit => exact hwait label (some limit)
  | close => exact Nat.le_refl _
  | answer =>
    simp only [step, answer]
    split <;> exact Nat.le_refl _
  | expire =>
    simp only [step, expire]
    split <;> exact Nat.le_refl _
  | waitWithin =>
    simp only [step, waitWithin]
    split <;> exact Nat.le_refl _

theorem begun_le_after (s : PolledTable) (xs : List PollStep) : s.begun ≤ (s.after xs).begun := by
  induction xs generalizing s with
  | nil => exact Nat.le_refl _
  | cons x xs ih => exact Nat.le_trans (s.begun_le_step x) (ih _)

theorem items_forget_congr {s' : PolledTable} (h : s'.activities = s.activities) (label : String) :
    (s'.forget label).items = (s.forget label).items := by
  simp only [items, forget, h]

end PolledTable

namespace Orderly

open PolledTable

variable {s : PolledTable} {begun n : Nat} {issued spent : List Nat} {rest : List Numbered}
  {a : Activity} {label : String}

/-- The reply of a registration is taken up by a state whose gate it holds, or where it is free. -/
theorem takeUp {gate : Option Nat} (h : Orderly gate begun issued spent (⟨n, a⟩ :: rest))
    (hg : (if gate = some n then none else gate) = if s.gate = some n then none else s.gate)
    (reply : Except Error JobPath) :
    Orderly (s.takeUp n reply).2.2.gate begun issued spent
      ((s.takeUp n reply).2.1.toList.map (⟨n, ·⟩) ++ rest) := by
  rw [takeUp_gate, ← hg]
  exact h.leave fun b hb => s.takeUp_rest n reply hb

theorem attempt (h : Orderly s.gate begun issued spent (⟨n, a⟩ :: rest)) :
    Orderly (s.attempt n a).2.2.gate begun (issued ++ (s.issuer? ⟨n, a⟩).toList) spent
      ((s.attempt n a).2.1.toList.map (⟨n, ·⟩) ++ rest) := by
  cases a with
  | idle ticket => simpa [PolledTable.attempt, issuer?, issues, Activity.isAtGate] using h
  | inCall reply =>
    rw [issuer?, if_neg (by simp [issues, Activity.isAtGate]), Option.toList_none, List.append_nil]
    cases reply with
    | none => exact h
    | some reply => exact h.takeUp rfl reply
  | resolving | waiting =>
    rw [issuer?, if_neg (by simp [issues, Activity.isAtGate]), Option.toList_none, List.append_nil]
    simp only [PolledTable.attempt]
    split
    · exact h
    · exact h.leave_of_not_isInCall rfl
  | atGate reply =>
    rw [issuer?]
    cases hi : s.issues (.atGate reply) with
    | false =>
      rw [attempt_of_not_issues hi]
      simp only [Bool.false_eq_true, if_false, Option.toList_none, List.append_nil]
      split
      · exact h
      · exact h.leave_of_not_isInCall rfl
    | true =>
      obtain ⟨hg, hc⟩ : s.gate = none ∧ s.table.closed = false := by
        simpa [issues, Activity.isAtGate] using hi
      rw [hg] at h
      simp only [PolledTable.attempt, hg, hc, Option.isSome_none, Bool.false_eq_true, if_false,
        if_true]
      cases reply with
      | none => exact h.issue
      | some reply => exact h.issue.takeUp (by simp [hg]) reply

theorem drop {items : List Numbered} (h : Orderly s.gate begun issued spent (items ++ s.items))
    (label : String) :
    Orderly (s.drop label).2.gate begun issued spent (items ++ (s.forget label).items) := by
  cases hg : s.activities.get? label with
  | none =>
    have hf : s.forget label = s := by rw [forget, Labelled.remove_of_get?_eq_none hg]
    rw [hf]
    simpa [PolledTable.drop, hg] using h
  | some i =>
    obtain ⟨n, a⟩ := i
    have hgate : (s.drop label).2.gate = if s.gate = some n then none else s.gate := by
      simp only [PolledTable.drop, hg]
      split <;> rfl
    have hp : (items ++ s.items).Perm (⟨n, a⟩ :: (items ++ (s.forget label).items)) :=
      ((items_perm_of_get? hg).append_left items).trans List.perm_middle
    rw [hgate]
    exact (h.congr hp).leave (o := none) fun _ hb => by cases hb

theorem poll (h : Orderly s.gate s.begun issued spent s.items) (label : String) :
    Orderly (s.poll label).2.gate (s.poll label).2.begun
      (issued ++ (s.issuedIn (.poll label)).toList) spent (s.poll label).2.items := by
  cases hg : s.activities.get? label with
  | none => simpa [PolledTable.poll, issuedIn, hg] using h
  | some i =>
    obtain ⟨n, a⟩ := i
    have ha := (h.congr (items_perm_of_get? hg)).attempt
    have hact := s.attempt_activities n a
    have hbegun := s.attempt_begun n a
    simp only [PolledTable.poll, issuedIn, hg, Option.bind_some]
    generalize s.attempt n a = r at ha hact hbegun ⊢
    obtain ⟨answer, rest, s'⟩ := r
    rw [← hbegun, ← items_forget_congr hact] at ha
    cases rest with
    | none => exact ha
    | some b => exact ha.congr (items_put s' label n b).symm

theorem start (h : Orderly s.gate s.begun issued spent s.items)
    (hl : (Labelled.labels s.activities).Nodup) (label : String) (ha : a.isInCall = false) :
    Orderly (s.start label a).2.gate (s.start label a).2.begun
      (issued ++ (s.issuer? ⟨s.begun, a⟩).toList) spent (s.start label a).2.items := by
  let s₀ : PolledTable := { s with begun := s.begun + 1 }
  have he : Orderly (s₀.attempt s.begun a).2.2.gate (s.begun + 1)
      (issued ++ (s.issuer? ⟨s.begun, a⟩).toList) spent
      ((s₀.attempt s.begun a).2.1.toList.map (⟨s.begun, ·⟩) ++ s.items) :=
    attempt (s := s₀) (h.enter ha)
  have hact := s₀.attempt_activities s.begun a
  have hbegun := s₀.attempt_begun s.begun a
  simp only [PolledTable.start]
  generalize s₀.attempt s.begun a = r at he hact hbegun ⊢
  obtain ⟨answer, rest, s'⟩ := r
  replace hact : s'.activities = s.activities := hact
  replace hbegun : s'.begun = s.begun + 1 := hbegun
  have hitems : s.items = s'.items := by simp only [items, hact]
  rw [hitems, ← hbegun] at he
  cases rest with
  | none => exact he
  | some b =>
    -- What was under the label goes away, then the new activity takes its place.
    have hforget : ((s'.drop label).2.forget label).items = (s'.forget label).items := by
      simp only [items, forget, activities_drop, hact, Labelled.remove_remove hl]
    have hp := (s'.drop label).2.items_put label s.begun b
    rw [hforget] at hp
    have hd := (he.drop label).congr hp.symm
    rw [← s'.drop_begun label] at hd
    exact hd

theorem put (h : Orderly s.gate s.begun issued spent s.items)
    (hg : s.activities.get? label = some ⟨n, a⟩) {b : Activity} (hb : b.isAtGate = a.isAtGate)
    (hc : b.isInCall = a.isInCall) :
    Orderly (s.put label n b).gate (s.put label n b).begun issued spent (s.put label n b).items :=
  ((h.congr (items_perm_of_get? hg)).keep hb hc).congr (s.items_put label n b).symm

theorem forget (h : Orderly s.gate s.begun issued spent s.items)
    (hg : s.activities.get? label = some ⟨n, a⟩) (ha : a.isInCall = false) :
    Orderly s.gate s.begun issued spent (s.forget label).items :=
  (h.congr (items_perm_of_get? hg)).leave_of_not_isInCall ha

theorem beginWait (h : Orderly s.gate s.begun issued spent s.items) (label : String)
    (limit : Option Duration) :
    Orderly (s.beginWait label limit).2.gate (s.beginWait label limit).2.begun issued spent
      (s.beginWait label limit).2.items := by
  unfold PolledTable.beginWait
  split
  · rename_i number ticket hg
    have hp := (h.put hg (b := .waiting ticket limit) rfl rfl).poll label
    have hs : (s.put label number (.waiting ticket limit)).issuedIn (.poll label) = none := by
      simp [issuedIn, issuer?, issues, Activity.isAtGate]
    rwa [hs, Option.toList_none, List.append_nil] at hp
  · exact h

/-- Every operation keeps gate and activities together. -/
theorem step (h : Orderly s.gate s.begun issued spent s.items) (hs : s.Held) (x : PollStep) :
    Orderly (s.step x).2.gate (s.step x).2.begun (issued ++ (s.issuedIn x).toList) spent
      (s.step x).2.items := by
  cases x with
  | register label reply => exact h.start hs.labels label rfl
  | poll label => exact h.poll label
  | resolve label path result =>
    have hi : s.issuer? ⟨s.begun, .resolving path result⟩ = none := by
      simp [issuer?, issues, Activity.isAtGate]
    have hstart := h.start hs.labels label (a := .resolving path result) rfl
    rwa [hi] at hstart
  | answer label reply =>
    simp only [issuedIn, Option.toList_none, List.append_nil, PolledTable.step, PolledTable.answer]
    split
    · rename_i hg
      exact h.put hg rfl rfl
    · rename_i hg
      exact h.put hg rfl rfl
    · exact h
  | wait label =>
    simp only [issuedIn, Option.toList_none, List.append_nil]
    exact h.beginWait label none
  | waitFor label limit =>
    simp only [issuedIn, Option.toList_none, List.append_nil]
    exact h.beginWait label (some limit)
  | expire label =>
    simp only [issuedIn, Option.toList_none, List.append_nil, PolledTable.step, PolledTable.expire]
    split
    · rename_i hg
      exact h.forget hg rfl
    · exact h
  | waitWithin label limit =>
    simp only [issuedIn, Option.toList_none, List.append_nil, PolledTable.step,
      PolledTable.waitWithin]
    split
    · rename_i hg
      exact h.forget hg rfl
    · exact h
  | drop label =>
    have hd : Orderly (s.drop label).2.gate s.begun issued spent (s.forget label).items :=
      (show Orderly s.gate s.begun issued spent ([] ++ s.items) from h).drop label
    simp only [issuedIn, Option.toList_none, List.append_nil]
    show Orderly (s.drop label).2.gate (s.drop label).2.begun issued spent (s.drop label).2.items
    rwa [drop_begun, items, activities_drop]
  | close =>
    simp only [issuedIn, Option.toList_none, List.append_nil]
    exact h

/-- So does every run. -/
theorem after (h : Orderly s.gate s.begun issued spent s.items) (hs : s.Held) (xs : List PollStep) :
    Orderly (s.after xs).gate (s.after xs).begun (issued ++ s.issued xs) spent
      (s.after xs).items := by
  induction xs generalizing s issued with
  | nil =>
    rw [PolledTable.issued, List.append_nil]
    exact h
  | cons x xs ih =>
    rw [PolledTable.issued, ← List.append_assoc]
    exact ih (h.step hs x) (hs.step x).1

/-- A registration that is over issues nothing. -/
theorem issuedIn_ne (h : Orderly s.gate s.begun issued spent s.items) (hn : n ∈ spent)
    (x : PollStep) : s.issuedIn x ≠ some n := fun hi => by
  rcases (issuedIn_cases hi).2 with rfl | ⟨-, i, hm, rfl, ha⟩
  · exact Nat.lt_irrefl _ (h.spent_lt _ hn)
  · exact h.not_spent i hm (by simp [Activity.isRegistration, ha]) hn

theorem not_mem_issued (h : Orderly s.gate s.begun issued spent s.items) (hs : s.Held)
    (hn : n ∈ spent) (xs : List PollStep) : n ∉ s.issued xs := by
  induction xs generalizing s issued with
  | nil => exact List.not_mem_nil
  | cons x xs ih =>
    rw [PolledTable.issued, List.mem_append, Option.mem_toList, not_or]
    exact ⟨h.issuedIn_ne hn x, ih (h.step hs x) (hs.step x).1⟩

/-- A number is over once something else than a registration has it. -/
theorem add_spent_of_mem (h : Orderly s.gate s.begun issued spent s.items) {i : Numbered}
    (hi : i ∈ s.items) (hr : i.activity.isRegistration = false) :
    Orderly s.gate s.begun issued (i.number :: spent) s.items := by
  refine h.add_spent (h.lt i hi) fun j hj hjr hn => ?_
  rw [List.inj_on_of_nodup_map h.numbers hj hi hn, hr] at hjr
  cases hjr

end Orderly

/-- Gate and activities belong together at every moment of every run. -/
theorem PolledTable.orderly_after (xs : List PollStep) :
    Orderly (after {} xs).gate (after {} xs).begun (issued {} xs) [] (after {} xs).items :=
  Orderly.start_empty.after (s := {}) .start_empty xs

end SystemdControl
