import Mathlib.Data.List.Nodup
import Mathlib.Data.List.Perm.Basic
import SystemdControl.Proofs.Job.Journal
import SystemdControl.Proofs.Text.Labelled

/-!
# Deeds as steps of a table

A table does not keep its journal.

* `JobTable.Does` and `JobTable.DoesAll` are deeds as steps of a table;
* `JobTable.deedsTo` are the deeds that can be seen between two states: who is new, what was
  signalled, who is gone, and whether the table was closed;
* `JobTable.Tidy` is what every operation keeps, and what makes the seen deeds the steps that led
  from one state to the other (`Tidy.doesAll_register` and its kin);
* `JobTable.Holds` says in addition who holds the live waiters.
-/

namespace SystemdControl

namespace JobTable

/-- The registrations that have a live waiter. -/
def tickets (t : JobTable) : List Ticket :=
  t.waiters.map (·.ticket)

@[simp] theorem tickets_register (t : JobTable) (path : JobPath) :
    (t.register path).2.tickets = t.tickets ++ [⟨path, t.registered⟩] := by
  simp [tickets, register]

@[simp] theorem tickets_deliver (t : JobTable) (ticket : Ticket) (result : JobResult) :
    (t.deliver ticket result).tickets = t.tickets := by
  simp only [tickets, deliver, List.map_map]
  refine List.map_congr_left fun w _ => ?_
  simp only [Function.comp]
  split <;> rfl

@[simp] theorem tickets_resolve (t : JobTable) (path : JobPath) (result : JobResult) :
    (t.resolve path result).2.tickets = t.tickets := by
  unfold resolve
  split
  · rfl
  · split <;> simp

@[simp] theorem tickets_drop (t : JobTable) (ticket : Ticket) :
    (t.drop ticket).tickets = t.tickets.filter (· ≠ ticket) := by
  simp [tickets, drop, List.filter_map, Function.comp_def]

@[simp] theorem tickets_close (t : JobTable) : t.close.tickets = t.tickets := rfl

@[simp] theorem closed_resolve (t : JobTable) (path : JobPath) (result : JobResult) :
    (t.resolve path result).2.closed = t.closed := by
  unfold resolve
  split
  · rfl
  · split <;> rfl

@[simp] theorem registered_resolve (t : JobTable) (path : JobPath) (result : JobResult) :
    (t.resolve path result).2.registered = t.registered := by
  unfold resolve
  split
  · rfl
  · split <;> rfl

/-! ## Deeds as steps of a table -/

/-- One deed, done to a table. -/
inductive Does : JobTable → Deed → JobTable → Prop
  | register (t : JobTable) (path : JobPath) (h : t.closed = false) :
      Does t (.registered ⟨path, t.registered⟩) (t.register path).2
  | resolve (t : JobTable) (path : JobPath) (result : JobResult) :
      Does t (.signalled path result) (t.resolve path result).2
  | drop (t : JobTable) (ticket : Ticket) (h : ticket ∈ t.tickets) :
      Does t (.dropped ticket) (t.drop ticket)
  | close (t : JobTable) : Does t .closed t.close

/-- Deeds, done to a table one after the other. -/
inductive DoesAll : JobTable → List Deed → JobTable → Prop
  | nil (t : JobTable) : DoesAll t [] t
  | cons {t t' t'' : JobTable} {d : Deed} {ds : List Deed} :
      Does t d t' → DoesAll t' ds t'' → DoesAll t (d :: ds) t''

theorem Does.doesAll {t t' : JobTable} {d : Deed} (h : Does t d t') : DoesAll t [d] t' :=
  .cons h (.nil t')

/-- A closed table stays closed, and no waiter comes to it. -/
theorem DoesAll.of_closed {t t' : JobTable} {ds : List Deed} (h : DoesAll t ds t')
    (hc : t.closed = true) : t'.closed = true ∧ t'.waiters ⊆ t.waiters := by
  induction h with
  | nil => exact ⟨hc, List.Subset.refl _⟩
  | cons hd _ ih =>
    cases hd with
    | register path ho => exact absurd hc (by simp [ho])
    | resolve path result =>
      rw [JobTable.resolve, if_pos hc] at ih
      exact ih hc
    | drop ticket =>
      obtain ⟨hc', hw⟩ := ih hc
      exact ⟨hc', List.Subset.trans hw (List.filter_subset_self _)⟩
    | close => exact ih rfl

/-- Those of some tickets that are not among others. -/
def without (tickets others : List Ticket) : List Ticket :=
  tickets.filter (· ∉ others)

theorem without_eq_nil {l m : List Ticket} (h : ∀ x ∈ l, x ∈ m) : without l m = [] :=
  List.filter_eq_nil_iff.2 fun x hx => by simpa using h x hx

theorem without_eq_singleton {l m : List Ticket} (hn : l.Nodup) {x : Ticket} (hx : x ∈ l)
    (h : ∀ y ∈ l, y ∉ m ↔ y = x) : without l m = [x] := by
  have hf : without l m = l.filter (· = x) :=
    List.filter_congr fun y hy => decide_eq_decide.2 (h y hy)
  rw [hf, List.filter_eq, List.count_eq_one_of_mem hn hx, List.replicate_one]

/-- What can be seen to have happened between two states of a table: who is new, what was signalled
meanwhile, who is gone, and whether the table was closed. -/
def deedsTo (t t' : JobTable) (signal : Option (JobPath × JobResult)) : List Deed :=
  (without t'.tickets t.tickets).map .registered ++
    signal.toList.map (fun s => .signalled s.1 s.2) ++
    (without t.tickets t'.tickets).map .dropped ++
    if t'.closed && !t.closed then [.closed] else []

/-- A table with one waiter per registration, and without entries once it is closed. -/
structure Tidy (t : JobTable) : Prop where
  nodup : t.tickets.Nodup
  serial_lt : ∀ ticket ∈ t.tickets, ticket.serial < t.registered
  empty : t.closed = true → t.entries = []

namespace Tidy

variable {t : JobTable}

theorem next_not_mem (h : Tidy t) (path : JobPath) : ⟨path, t.registered⟩ ∉ t.tickets :=
  fun hm => Nat.lt_irrefl _ (h.serial_lt _ hm)

theorem register (h : Tidy t) (path : JobPath) (ho : t.closed = false) :
    Tidy (t.register path).2 where
  nodup := by
    rw [tickets_register]
    refine List.nodup_append.2 ⟨h.nodup, List.nodup_singleton _, fun a ha b hb => ?_⟩
    exact List.mem_singleton.1 hb ▸ fun e => h.next_not_mem path (e ▸ ha)
  serial_lt ticket hm := by
    rw [tickets_register] at hm
    rcases List.mem_append.1 hm with hm | hm
    · exact Nat.lt_succ_of_lt (h.serial_lt ticket hm)
    · rw [List.mem_singleton.1 hm]
      exact Nat.lt_succ_self _
  empty hc := absurd hc (by simp [JobTable.register, ho])

theorem resolve (h : Tidy t) (path : JobPath) (result : JobResult) :
    Tidy (t.resolve path result).2 where
  nodup := by
    rw [tickets_resolve]
    exact h.nodup
  serial_lt ticket hm := by
    rw [tickets_resolve] at hm
    rw [registered_resolve]
    exact h.serial_lt ticket hm
  empty hc := by
    rw [closed_resolve] at hc
    rw [JobTable.resolve, if_pos hc]
    exact h.empty hc

theorem drop (h : Tidy t) (ticket : Ticket) : Tidy (t.drop ticket) where
  nodup := by
    rw [tickets_drop]
    exact h.nodup.filter _
  serial_lt t' hm := by
    rw [tickets_drop] at hm
    exact h.serial_lt t' (List.mem_of_mem_filter hm)
  empty hc := by simp [JobTable.drop, h.empty hc]

theorem close (h : Tidy t) : Tidy t.close where
  nodup := h.nodup
  serial_lt := h.serial_lt
  empty _ := rfl

/-! ## The deeds between two states -/

theorem doesAll_self (t : JobTable) : DoesAll t (t.deedsTo t none) t := by
  have he : t.deedsTo t none = [] := by
    simp [deedsTo, without_eq_nil fun x (hx : x ∈ t.tickets) => hx]
  rw [he]
  exact .nil t

theorem without_register (h : Tidy t) (path : JobPath) (ho : t.closed = false) :
    without (t.register path).2.tickets t.tickets = [⟨path, t.registered⟩] := by
  have hnew := h.next_not_mem path
  refine without_eq_singleton (h.register path ho).nodup (by simp) fun y hy => ?_
  rw [tickets_register] at hy
  rcases List.mem_append.1 hy with hy | hy
  · exact iff_of_false (not_not.2 hy) fun e => hnew (e ▸ hy)
  · rw [List.mem_singleton.1 hy]
    exact iff_of_true hnew rfl

theorem without_drop (h : Tidy t) {ticket : Ticket} (hl : ticket ∈ t.tickets) :
    without t.tickets (t.drop ticket).tickets = [ticket] :=
  without_eq_singleton h.nodup hl fun y hy => by simp [hy]

theorem doesAll_register (h : Tidy t) (path : JobPath) (ho : t.closed = false) :
    DoesAll t (t.deedsTo (t.register path).2 none) (t.register path).2 := by
  have he : t.deedsTo (t.register path).2 none = [.registered ⟨path, t.registered⟩] := by
    have hgone : without t.tickets (t.register path).2.tickets = [] :=
      without_eq_nil fun x hx => by simp [hx]
    rw [deedsTo, hgone, h.without_register path ho]
    simp [JobTable.register, ho]
  rw [he]
  exact (Does.register t path ho).doesAll

theorem deedsTo_resolve (t : JobTable) (path : JobPath) (result : JobResult) :
    t.deedsTo (t.resolve path result).2 (some (path, result)) = [.signalled path result] := by
  simp [deedsTo, without_eq_nil fun x (hx : x ∈ t.tickets) => hx]

theorem doesAll_resolve (t : JobTable) (path : JobPath) (result : JobResult) :
    DoesAll t (t.deedsTo (t.resolve path result).2 (some (path, result)))
      (t.resolve path result).2 := by
  rw [deedsTo_resolve]
  exact (Does.resolve t path result).doesAll

theorem doesAll_drop (h : Tidy t) {ticket : Ticket} (hl : ticket ∈ t.tickets) :
    DoesAll t (t.deedsTo (t.drop ticket) none) (t.drop ticket) := by
  have he : t.deedsTo (t.drop ticket) none = [.dropped ticket] := by
    have hnew : without (t.drop ticket).tickets t.tickets = [] :=
      without_eq_nil fun x hx => by
        rw [tickets_drop] at hx
        exact List.mem_of_mem_filter hx
    rw [deedsTo, hnew, h.without_drop hl]
    simp [JobTable.drop]
  rw [he]
  exact (Does.drop t ticket hl).doesAll

theorem doesAll_register_drop (h : Tidy t) (path : JobPath) (ho : t.closed = false)
    {ticket : Ticket} (hl : ticket ∈ t.tickets) :
    DoesAll t (t.deedsTo ((t.register path).2.drop ticket) none)
      ((t.register path).2.drop ticket) := by
  have hne : (⟨path, t.registered⟩ : Ticket) ≠ ticket := fun e => h.next_not_mem path (e ▸ hl)
  have hl' : ticket ∈ (t.register path).2.tickets := by simp [hl]
  have he : t.deedsTo ((t.register path).2.drop ticket) none =
      [.registered ⟨path, t.registered⟩, .dropped ticket] := by
    have hnew : without ((t.register path).2.drop ticket).tickets t.tickets =
        [⟨path, t.registered⟩] := by
      refine without_eq_singleton ((h.register path ho).drop ticket).nodup (by simp [hne]) ?_
      intro y hy
      simp only [tickets_drop, tickets_register, List.mem_filter, List.mem_append,
        List.mem_singleton] at hy
      rcases hy.1 with hy | hy
      · exact iff_of_false (not_not.2 hy) fun e => h.next_not_mem path (e ▸ hy)
      · exact iff_of_true (hy ▸ h.next_not_mem path) hy
    have hgone : without t.tickets ((t.register path).2.drop ticket).tickets = [ticket] :=
      without_eq_singleton h.nodup hl fun y hy => by
        have hy' : y ≠ ⟨path, t.registered⟩ := fun e => h.next_not_mem path (e ▸ hy)
        simp [hy, hy']
    rw [deedsTo, hnew, hgone]
    simp [JobTable.drop, JobTable.register, ho]
  rw [he]
  exact .cons (.register t path ho) (Does.drop _ ticket hl').doesAll

theorem doesAll_close (h : Tidy t) : DoesAll t (t.deedsTo t.close none) t.close := by
  have hsame : without t.tickets t.tickets = [] := without_eq_nil fun x hx => hx
  by_cases hc : t.closed = true
  · have he : t.deedsTo t.close none = [] := by simp [deedsTo, hsame, hc]
    have ht : t.close = t := by
      rw [JobTable.close, ← h.empty hc, ← hc]
    rw [he, ht]
    exact .nil t
  · have he : t.deedsTo t.close none = [.closed] := by
      rw [deedsTo, tickets_close, hsame]
      simp [hc, JobTable.close]
    rw [he]
    exact (Does.close t).doesAll

end Tidy

/-! ## Who holds the waiters -/

/-- A tidy table, each live waiter of which is held in exactly one place. -/
structure Holds (t : JobTable) (held : List Ticket) : Prop extends Tidy t where
  perm : held.Perm t.tickets

namespace Holds

variable {t : JobTable} {held rest : List Ticket}

theorem nil : Holds {} [] :=
  ⟨⟨.nil, fun _ h => absurd h List.not_mem_nil, fun _ => rfl⟩, .nil⟩

theorem congr (h : Holds t held) (hp : held.Perm rest) : Holds t rest :=
  ⟨h.toTidy, hp.symm.trans h.perm⟩

theorem mem_tickets (h : Holds t held) {ticket : Ticket} (hm : ticket ∈ held) :
    ticket ∈ t.tickets :=
  h.perm.mem_iff.1 hm

theorem register (h : Holds t held) (path : JobPath) (ho : t.closed = false) :
    Holds (t.register path).2 (⟨path, t.registered⟩ :: held) := by
  refine ⟨h.toTidy.register path ho, ?_⟩
  rw [tickets_register]
  exact (h.perm.cons _).trans (List.perm_append_singleton _ _).symm

theorem resolve (h : Holds t held) (path : JobPath) (result : JobResult) :
    Holds (t.resolve path result).2 held :=
  ⟨h.toTidy.resolve path result, by rw [tickets_resolve]; exact h.perm⟩

theorem drop {ticket : Ticket} (h : Holds t (ticket :: rest)) : Holds (t.drop ticket) rest := by
  refine ⟨h.toTidy.drop ticket, ?_⟩
  have hn : (ticket :: rest).Nodup := h.perm.nodup_iff.2 h.nodup
  have hrest : (ticket :: rest).filter (· ≠ ticket) = rest := by
    rw [List.filter_cons_of_neg (by simp), List.filter_eq_self]
    intro t' hm
    simpa using fun he : t' = ticket => (List.nodup_cons.1 hn).1 (he ▸ hm)
  rw [tickets_drop, ← hrest]
  exact h.perm.filter _

theorem close (h : Holds t held) : Holds t.close held :=
  ⟨h.toTidy.close, h.perm⟩

/-! What goes away may hold no waiter. -/

variable {o : Option Ticket}

theorem drop? (h : Holds t (o.toList ++ rest)) : Holds (o.elim t t.drop) rest := by
  cases o with
  | none => exact h
  | some ticket => exact h.drop

theorem doesAll_drop? (h : Holds t (o.toList ++ rest)) :
    DoesAll t (t.deedsTo (o.elim t t.drop) none) (o.elim t t.drop) := by
  cases o with
  | none => exact Tidy.doesAll_self t
  | some ticket => exact h.toTidy.doesAll_drop (h.mem_tickets List.mem_cons_self)

theorem doesAll_register_drop? (h : Holds t (o.toList ++ rest)) (path : JobPath)
    (ho : t.closed = false) :
    DoesAll t (t.deedsTo (o.elim (t.register path).2 (t.register path).2.drop) none)
      (o.elim (t.register path).2 (t.register path).2.drop) := by
  cases o with
  | none => exact h.toTidy.doesAll_register path ho
  | some ticket =>
    exact h.toTidy.doesAll_register_drop path ho (h.mem_tickets List.mem_cons_self)

end Holds

end JobTable

end SystemdControl
