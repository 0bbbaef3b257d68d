import SystemdControl.Proofs.Job.Dispatcher.Requests

/-!
# The order of arrival at the gate

The places of a waiting room do not tell who came first. In a run the order of arrival is kept
beside the dispatcher.

* `Lineup` is a dispatcher with those in its waiting room as they came; `Lineup.step` is an act;
* `Lineup.Faithful`: the line holds those who wait, and nobody twice, so an act adds one at the end,
  takes one away or leaves the line alone (`Lineup.Faithful.line_step`);
* `Lineup.inOrder` says of a run that calls get the gate in the order of arrival. The requests of
  such a run are sent in the order in which their calls were submitted (`Lineup.issues_sublist`).
-/

namespace SystemdControl

/-! ## Who is in the waiting room -/

/-- Nobody waits twice, and the listener waits if it is seated. -/
structure Ledger.Distinct (l : Ledger) : Prop where
  nodup : l.guests.Nodup
  number_lt : ∀ call, .call call ∈ l.guests → call.number < l.begun
  listener_mem_iff : .listener ∈ l.guests ↔ l.seated = true

/-- All that an act can do to the guests: who comes is the listener, or the call that is
submitted. -/
inductive Comings (guests : List Party) (submitted : Option Call) : List Party → Prop
  | stay : Comings guests submitted guests
  | enter {party : Party} {guests' : List Party} (hn : party ∉ guests)
      (hp : guests'.Perm (party :: guests))
      (hs : party.call?.toList.Sublist submitted.toList) : Comings guests submitted guests'
  | leave (party : Party) : Comings guests submitted (guests.erase party)

namespace Exchange

variable {s : Dispatcher} {x : Dispatcher.Act} {l : Ledger}

theorem comings (e : Exchange s x l) (h : s.ledger.Distinct) :
    Comings s.room.guests (s.submitted? x) l.guests := by
  cases e with
  | submit label request before held reply hg =>
    exact .enter (fun hm => Nat.lt_irrefl _ (h.number_lt _ hm)) hg (.refl _)
  | sit now hl hu hg =>
    refine .enter (fun hm => ?_) hg (.refl _)
    have hs : s.listener.isSeated = true := h.listener_mem_iff.1 hm
    rw [hl] at hs
    cases hs
  | rise | issue | turnAway | giveUp => exact .leave _
  | _ => exact .stay

theorem distinct (e : Exchange s x l) (h : s.ledger.Distinct) : l.Distinct := by
  have herase : ∀ party, party ≠ .listener →
      (.listener ∈ s.room.guests.erase party ↔ s.ledger.seated = true) := fun party hne => by
    refine (List.Nodup.mem_erase_iff h.nodup).trans ?_
    exact ⟨fun hm => h.listener_mem_iff.1 hm.2, fun hs => ⟨hne.symm, h.listener_mem_iff.2 hs⟩⟩
  cases e with
  | submit label request before held reply hg =>
    refine ⟨hg.nodup_iff.2 (List.nodup_cons.2 ⟨fun hm => ?_, h.nodup⟩), fun call hm => ?_, ?_⟩
    · exact Nat.lt_irrefl _ (h.number_lt _ hm)
    · rcases List.mem_cons.1 (hg.mem_iff.1 hm) with he | hm
      · cases he
        exact Nat.lt_succ_self _
      · exact Nat.lt_succ_of_lt (h.number_lt call hm)
    · rw [hg.mem_iff, List.mem_cons, or_iff_right (by simp)]
      exact h.listener_mem_iff
  | sit now hl hu hg =>
    have hn : .listener ∉ s.room.guests := fun hm => by
      have hs : s.listener.isSeated = true := h.listener_mem_iff.1 hm
      rw [hl] at hs
      cases hs
    refine ⟨hg.nodup_iff.2 (List.nodup_cons.2 ⟨hn, h.nodup⟩), fun call hm => ?_, ?_⟩
    · exact h.number_lt call ((List.mem_cons.1 (hg.mem_iff.1 hm)).resolve_left (by simp))
    · exact iff_of_true (hg.mem_iff.2 List.mem_cons_self) rfl
  | rise =>
    refine ⟨h.nodup.erase _, fun call hm => h.number_lt call (List.mem_of_mem_erase hm), ?_⟩
    exact iff_of_false h.nodup.not_mem_erase Bool.false_ne_true
  | issue | turnAway | giveUp =>
    exact ⟨h.nodup.erase _, fun call hm => h.number_lt call (List.mem_of_mem_erase hm),
      herase _ (by simp)⟩
  | _ => exact ⟨h.nodup, h.number_lt, h.listener_mem_iff⟩

end Exchange

/-- A dispatcher with those in its waiting room, the one that came first in front. -/
structure Lineup where
  jobs : Dispatcher
  line : List Party := []

namespace Lineup

open Dispatcher (Act)

def start (capacity : Nat) : Lineup :=
  { jobs := { feed := { capacity } } }

/-- A lineup after an act. Who is still there keeps its place, and who is new comes last. -/
def step (l : Lineup) (x : Act) : Lineup :=
  { jobs := l.jobs.act x
    line := l.line.filter (· ∈ (l.jobs.act x).room.guests) ++
      (l.jobs.act x).room.guests.filter (· ∉ l.line) }

/-- A lineup after a run. -/
def after (l : Lineup) (xs : List Act) : Lineup :=
  xs.foldl step l

/-- Whether the calls that get the gate in a run are first in the line then. -/
def inOrder (l : Lineup) : List Act → Bool
  | [] => true
  | x :: xs =>
    (l.jobs.issued? x).all (fun call => l.line.head? = some (.call call)) && (l.step x).inOrder xs

/-- The calls in line. -/
def callers (l : Lineup) : List Call :=
  l.line.filterMap Party.call?

/-- The line holds those who wait. -/
structure Faithful (l : Lineup) : Prop extends l.jobs.ledger.Distinct where
  perm : l.line.Perm l.jobs.room.guests

variable {l : Lineup} {x : Act}

theorem jobs_after (l : Lineup) (xs : List Act) :
    (l.after xs).jobs = xs.foldl Dispatcher.act l.jobs := by
  induction xs generalizing l with
  | nil => rfl
  | cons x xs ih => exact ih (l.step x)

namespace Faithful

theorem start (capacity : Nat) : Faithful (start capacity) where
  nodup := .nil
  number_lt _ h := absurd h List.not_mem_nil
  listener_mem_iff := iff_of_false List.not_mem_nil Bool.false_ne_true
  perm := .nil

theorem line_nodup (h : l.Faithful) : l.line.Nodup :=
  h.perm.nodup_iff.2 h.nodup

/-- Nobody of those who wait is new to the line. -/
theorem filter_not_mem_line (h : l.Faithful) {guests : List Party}
    (hs : guests ⊆ l.jobs.room.guests) : guests.filter (· ∉ l.line) = [] := by
  refine List.filter_eq_nil_iff.2 fun p hp => ?_
  simpa using h.perm.mem_iff.2 (hs hp)

/-- Where all go on to wait, all of the line does. -/
theorem filter_mem_line (h : l.Faithful) {guests : List Party}
    (hs : l.jobs.room.guests ⊆ guests) : l.line.filter (· ∈ guests) = l.line := by
  refine List.filter_eq_self.2 fun p hp => ?_
  simpa using hs (h.perm.mem_iff.1 hp)

theorem line_step_stay (h : l.Faithful)
    (hg : (l.jobs.act x).room.guests = l.jobs.room.guests) : (l.step x).line = l.line := by
  rw [Lineup.step, hg, h.filter_mem_line (List.Subset.refl _),
    h.filter_not_mem_line (List.Subset.refl _), List.append_nil]

theorem line_step_enter (h : l.Faithful) {party : Party} (hn : party ∉ l.jobs.room.guests)
    (hg : (l.jobs.act x).room.guests.Perm (party :: l.jobs.room.guests)) :
    (l.step x).line = l.line ++ [party] := by
  have hlast : ((l.jobs.act x).room.guests.filter (· ∉ l.line)).Perm [party] := by
    refine (hg.filter _).trans ?_
    have hparty : party ∉ l.line := mt h.perm.mem_iff.1 hn
    rw [List.filter_cons_of_pos (by simpa using hparty),
      h.filter_not_mem_line (List.Subset.refl _)]
  rw [Lineup.step, h.filter_mem_line fun p hm => hg.mem_iff.2 (List.mem_cons_of_mem _ hm),
    hlast.eq_singleton]

theorem line_step_leave (h : l.Faithful) {party : Party}
    (hg : (l.jobs.act x).room.guests = l.jobs.room.guests.erase party) :
    (l.step x).line = l.line.erase party := by
  rw [Lineup.step, hg, h.filter_not_mem_line List.erase_subset, List.append_nil,
    h.line_nodup.erase_eq_filter]
  refine List.filter_congr fun p hm => ?_
  have he : p ∈ l.jobs.room.guests.erase party ↔ p ≠ party ∧ p ∈ l.jobs.room.guests :=
    List.Nodup.mem_erase_iff h.nodup
  rw [Bool.eq_iff_iff, decide_eq_true_eq, bne_iff_ne, he]
  exact and_iff_left (h.perm.mem_iff.1 hm)

/-- Somebody comes to the end of the line or leaves it, or it stays as it is. -/
theorem line_step (h : l.Faithful) (x : Act) :
    ((l.step x).line = l.line ∧ (l.jobs.act x).room.guests = l.jobs.room.guests) ∨
      (∃ party, (l.step x).line = l.line ++ [party] ∧
        (l.jobs.act x).room.guests.Perm (party :: l.jobs.room.guests) ∧
        party.call?.toList.Sublist (l.jobs.submitted? x).toList) ∨
      ∃ party, (l.step x).line = l.line.erase party ∧
        (l.jobs.act x).room.guests = l.jobs.room.guests.erase party := by
  have hc : Comings l.jobs.room.guests (l.jobs.submitted? x) (l.jobs.act x).room.guests :=
    (l.jobs.act_exchange x).comings h.toDistinct
  generalize hguests : (l.jobs.act x).room.guests = guests at hc
  cases hc with
  | stay => exact .inl ⟨h.line_step_stay hguests, rfl⟩
  | @enter party _ hn hp hs =>
    exact .inr (.inl ⟨party, h.line_step_enter hn (hguests ▸ hp), hp, hs⟩)
  | leave party => exact .inr (.inr ⟨party, h.line_step_leave hguests, rfl⟩)

theorem step (h : l.Faithful) (x : Act) : (l.step x).Faithful := by
  refine ⟨(l.jobs.act_exchange x).distinct h.toDistinct, ?_⟩
  show (l.step x).line.Perm (l.jobs.act x).room.guests
  rcases h.line_step x with ⟨hl, hg⟩ | ⟨party, hl, hg, -⟩ | ⟨party, hl, hg⟩
  · rw [hl, hg]
    exact h.perm
  · rw [hl]
    exact ((List.perm_append_singleton party l.line).trans (h.perm.cons party)).trans hg.symm
  · rw [hl, hg]
    exact h.perm.erase party

theorem after (h : l.Faithful) (xs : List Act) : (l.after xs).Faithful := by
  induction xs generalizing l with
  | nil => exact h
  | cons x xs ih => exact ih (h.step x)

end Faithful

/-! ## Runs in order -/

theorem inOrder_cons_iff {xs : List Act} :
    l.inOrder (x :: xs) = true ↔
      (∀ call, l.jobs.issued? x = some call → l.line.head? = some (.call call)) ∧
        (l.step x).inOrder xs = true := by
  rw [inOrder, Bool.and_eq_true, Option.all_eq_true]
  simp only [decide_eq_true_eq]

/-- A call that gets the gate in order leaves the front of the line. -/
theorem Faithful.line_eq_cons (h : l.Faithful) {call : Call} (hi : l.jobs.issued? x = some call)
    (ho : l.line.head? = some (.call call)) : l.line = .call call :: (l.step x).line := by
  obtain ⟨-, -, -, -, hl⟩ := (l.jobs.act_exchange x).issued hi
  have hleave := h.line_step_leave (congrArg Ledger.guests hl)
  obtain ⟨rest, hline⟩ := List.head?_eq_some_iff.1 ho
  rw [hline, List.erase_cons_head] at hleave
  rw [hleave, hline]

/-- In an act that is in order, those that were issued and those in line stay in the order in which
they were submitted. -/
theorem Faithful.sublist_step (h : l.Faithful) {submitted issued : List Call}
    (hs : (issued ++ l.callers).Sublist submitted)
    (ho : ∀ call, l.jobs.issued? x = some call → l.line.head? = some (.call call)) :
    (issued ++ (l.jobs.issued? x).toList ++ (l.step x).callers).Sublist
      (submitted ++ (l.jobs.submitted? x).toList) := by
  cases hi : l.jobs.issued? x with
  | some call =>
    have hline := h.line_eq_cons hi (ho call hi)
    have hcallers : l.callers = call :: (l.step x).callers := by
      rw [Lineup.callers, hline]
      rfl
    rw [hcallers] at hs
    rw [Option.toList_some, List.append_assoc]
    exact hs.trans (List.sublist_append_left _ _)
  | none =>
    rw [Option.toList_none, List.append_nil]
    have hquiet : (l.step x).callers.Sublist l.callers →
        (issued ++ (l.step x).callers).Sublist
          (submitted ++ (l.jobs.submitted? x).toList) := fun hc =>
      ((hc.append_left issued).trans hs).trans (List.sublist_append_left _ _)
    rcases h.line_step x with ⟨hl, -⟩ | ⟨party, hl, -, hp⟩ | ⟨party, hl, -⟩
    · exact hquiet (by rw [Lineup.callers, hl]; exact .refl _)
    · have hcallers : (l.step x).callers = l.callers ++ party.call?.toList := by
        rw [Lineup.callers, hl, List.filterMap_append]
        cases party <;> rfl
      rw [hcallers, ← List.append_assoc]
      exact hs.append hp
    · exact hquiet (by rw [Lineup.callers, hl]; exact List.erase_sublist.filterMap _)

theorem Faithful.sublist_after (h : l.Faithful) {submitted issued : List Call}
    (hs : (issued ++ l.callers).Sublist submitted) {xs : List Act} (ho : l.inOrder xs = true) :
    (issued ++ l.jobs.issues xs ++ (l.after xs).callers).Sublist
      (submitted ++ l.jobs.submissions xs) := by
  induction xs generalizing l submitted issued with
  | nil =>
    rw [Dispatcher.issues, Dispatcher.submissions, Run.outputs_nil, Run.outputs_nil,
      List.append_nil, List.append_nil]
    exact hs
  | cons x xs ih =>
    obtain ⟨hx, hxs⟩ := inOrder_cons_iff.1 ho
    rw [Dispatcher.issues, Dispatcher.submissions, Run.outputs_cons, Run.outputs_cons,
      ← List.append_assoc, ← List.append_assoc]
    exact ih (h.step x) (h.sublist_step hs hx) hxs

/-- Where calls get the gate in the order of arrival, requests are sent in the order in which their
calls were submitted. -/
theorem issues_sublist (capacity : Nat) {xs : List Act}
    (ho : (start capacity).inOrder xs = true) :
    ((start capacity).jobs.issues xs).Sublist ((start capacity).jobs.submissions xs) := by
  have hnil : ([] ++ (start capacity).callers).Sublist [] := .refl []
  have hs := (Faithful.start capacity).sublist_after hnil ho
  rw [List.nil_append, List.nil_append] at hs
  exact (List.sublist_append_left _ _).trans hs

end Lineup

end SystemdControl
