import Mathlib.Algebra.Group.Nat.Defs
import SystemdControl.Job.Table

/-!
# Journals

What happened to a job table, in order, and what that alone says of a registration. None of it looks
at a table:

* `Deed.Ends`: the deeds after which a registration receives no result any more; `Deed.Removes` are
  those that take its entry, which a table can only tell by path and number;
* `Lasting`: since a registration nothing of a given kind happened, hence `Current`, `Newest` and
  `Awaiting`;
* `FirstResult`: what the first signal said that came in time.

`JobTable.Does` and `JobTable.DoesAll` are the deeds as steps of a table.
-/

namespace SystemdControl

/-- Among fewer than `2 ^ 64` registrations path and number tell every two tickets apart. -/
theorem Ticket.eq_iff_id_eq {t t' : Ticket} (h : t.serial < 2 ^ 64) (h' : t'.serial < 2 ^ 64) :
    t = t' ↔ t.path = t'.path ∧ t.id = t'.id := by
  obtain ⟨path, serial⟩ := t
  obtain ⟨path', serial'⟩ := t'
  simp only [Ticket.id, Ticket.mk.injEq, ← UInt64.toNat_inj, UInt64.toNat_ofNat',
    and_congr_right_iff] at h h' ⊢
  intro _
  rw [Nat.mod_eq_of_lt h, Nat.mod_eq_of_lt h']

/-- Something that happened to a job table. -/
inductive Deed where
  | registered (ticket : Ticket)
  | signalled (path : JobPath) (result : JobResult)
  /-- A waiter went away, in whatever way. -/
  | dropped (ticket : Ticket)
  | closed
  deriving DecidableEq, Repr

namespace Deed

/-- No result reaches a registration after a newer one of its path, after the closing, or after its
own waiter has gone. -/
def Ends (ticket : Ticket) : Deed → Prop
  | registered t => t.path = ticket.path
  | signalled .. => False
  | dropped t => t = ticket
  | closed => True

/-- As `Ends`, for a waiter that a table cannot tell from that of the registration. -/
def Removes (ticket : Ticket) : Deed → Prop
  | registered t => t.path = ticket.path
  | signalled .. => False
  | dropped t => t.path = ticket.path ∧ t.id = ticket.id
  | closed => True

/-- As `Removes`, apart from the closing. -/
def Revokes (ticket : Ticket) : Deed → Prop
  | closed => False
  | d => d.Removes ticket

theorem removes_iff {ticket : Ticket} {d : Deed} :
    d.Removes ticket ↔ d.Revokes ticket ∨ d = .closed := by
  cases d <;> simp [Revokes, Removes]

/-- A signal for the job of a path. -/
def Signals (path : JobPath) : Deed → Prop
  | signalled p _ => p = path
  | _ => False

/-- A newer registration of the path of a registration. -/
def Supersedes (ticket : Ticket) : Deed → Prop
  | registered t => t.path = ticket.path
  | _ => False

end Deed

/-- A registration took effect, and nothing that `stops` it came after. -/
def Lasting (stops : Deed → Prop) (j : List Deed) (ticket : Ticket) : Prop :=
  ∃ before after, j = before ++ .registered ticket :: after ∧ ∀ d ∈ after, ¬ stops d

/-- The registration that counts for its path at the end of a journal. -/
def Current (ends : Ticket → Deed → Prop) (j : List Deed) (ticket : Ticket) : Prop :=
  Lasting (ends ticket) j ticket

/-- The most recent registration of its path. -/
def Newest (j : List Deed) (ticket : Ticket) : Prop :=
  Lasting (Deed.Supersedes ticket) j ticket

/-- A current registration whose job no signal was for. -/
def Awaiting (ends : Ticket → Deed → Prop) (j : List Deed) (ticket : Ticket) : Prop :=
  Lasting (fun d => ends ticket d ∨ d.Signals ticket.path) j ticket

/-- The first signal for the job of a registration, while that was current, carried this result. -/
def FirstResult (ends : Ticket → Deed → Prop) (j : List Deed) (ticket : Ticket)
    (result : JobResult) : Prop :=
  ∃ before after, j = before ++ .signalled ticket.path result :: after ∧
    Awaiting ends before ticket

/-- What becomes of a signal for the job of a path after a journal. -/
def Verdict (ends : Ticket → Deed → Prop) (j : List Deed) (path : JobPath) : Resolution → Prop
  | .delivered => ∃ ticket, ticket.path = path ∧ Awaiting ends j ticket
  | .alreadyResolved =>
    ∃ ticket result, ticket.path = path ∧ Current ends j ticket ∧ FirstResult ends j ticket result
  | .unknown => .closed ∉ j ∧ ∀ ticket, ticket.path = path → ¬ Current ends j ticket
  | .closed => .closed ∈ j

/-! ## Journals that grow -/

variable {stops : Deed → Prop} {ends : Ticket → Deed → Prop} {j : List Deed} {d : Deed}
  {ticket : Ticket} {result : JobResult}

/-- A split of a longer journal is at its end or within the shorter one. -/
theorem concat_eq_append_cons_iff {α : Type} {l before after : List α} {x y : α} :
    l ++ [x] = before ++ y :: after ↔
      (x = y ∧ l = before ∧ after = []) ∨
        ∃ rest, after = rest ++ [x] ∧ l = before ++ y :: rest := by
  rcases List.eq_nil_or_concat after with rfl | ⟨rest, z, rfl⟩
  · simp only [List.nil_eq_append_iff, List.cons_ne_self, and_false, false_and, exists_false,
      or_false, and_true]
    constructor
    · intro h
      obtain ⟨h₁, h₂⟩ := List.append_inj' h rfl
      exact ⟨List.cons.inj h₂ |>.1, h₁⟩
    · rintro ⟨rfl, rfl⟩
      rfl
  · rw [List.concat_eq_append, ← List.cons_append, ← List.append_assoc]
    constructor
    · intro h
      obtain ⟨h₁, h₂⟩ := List.append_inj' h rfl
      exact .inr ⟨rest, by rw [List.cons.inj h₂ |>.1], h₁⟩
    · rintro (⟨-, -, h⟩ | ⟨rest', h, rfl⟩)
      · simp at h
      · obtain ⟨h₁, h₂⟩ := List.append_inj' h rfl
        rw [h₁, h₂]

theorem lasting_concat :
    Lasting stops (j ++ [d]) ticket ↔
      d = .registered ticket ∨ (Lasting stops j ticket ∧ ¬ stops d) := by
  constructor
  · rintro ⟨before, after, h, ha⟩
    rcases concat_eq_append_cons_iff.1 h with ⟨hd, -⟩ | ⟨rest, rfl, hj⟩
    · exact .inl hd
    · exact .inr ⟨⟨before, rest, hj, fun d hd => ha d (List.mem_append_left _ hd)⟩,
        ha d (List.mem_append_right _ (List.mem_singleton_self d))⟩
  · rintro (rfl | ⟨⟨before, after, rfl, ha⟩, hd⟩)
    · exact ⟨j, [], rfl, fun _ h => absurd h List.not_mem_nil⟩
    · refine ⟨before, after ++ [d], by rw [List.append_assoc, List.cons_append], fun e he => ?_⟩
      rcases List.mem_append.1 he with he | he
      · exact ha e he
      · rwa [List.mem_singleton.1 he]

theorem current_concat :
    Current ends (j ++ [d]) ticket ↔
      d = .registered ticket ∨ (Current ends j ticket ∧ ¬ ends ticket d) :=
  lasting_concat

theorem awaiting_concat :
    Awaiting ends (j ++ [d]) ticket ↔
      d = .registered ticket ∨
        (Awaiting ends j ticket ∧ ¬ (ends ticket d ∨ d.Signals ticket.path)) :=
  lasting_concat

theorem firstResult_concat :
    FirstResult ends (j ++ [d]) ticket result ↔
      FirstResult ends j ticket result ∨
        (d = .signalled ticket.path result ∧ Awaiting ends j ticket) := by
  constructor
  · rintro ⟨before, after, h, ha⟩
    rcases concat_eq_append_cons_iff.1 h with ⟨hd, rfl, -⟩ | ⟨rest, -, hj⟩
    · exact .inr ⟨hd, ha⟩
    · exact .inl ⟨before, rest, hj, ha⟩
  · rintro (⟨before, after, rfl, ha⟩ | ⟨rfl, ha⟩)
    · exact ⟨before, after ++ [d], by rw [List.append_assoc, List.cons_append], ha⟩
    · exact ⟨j, [], rfl, ha⟩

theorem Lasting.mem (h : Lasting stops j ticket) : .registered ticket ∈ j := by
  obtain ⟨before, after, rfl, -⟩ := h
  exact List.mem_append_right _ List.mem_cons_self

theorem Lasting.mono {stops' : Deed → Prop} (h : Lasting stops j ticket)
    (hs : ∀ d ∈ j, stops' d → stops d) : Lasting stops' j ticket := by
  obtain ⟨before, after, rfl, ha⟩ := h
  refine ⟨before, after, rfl, fun d hd hstop => ha d hd (hs d ?_ hstop)⟩
  exact List.mem_append_right _ (List.mem_cons_of_mem _ hd)

/-- What lasts goes on until something stops it. -/
theorem Lasting.append (h : Lasting stops j ticket) {j' : List Deed} (hs : ∀ d ∈ j', ¬ stops d) :
    Lasting stops (j ++ j') ticket := by
  obtain ⟨before, after, rfl, ha⟩ := h
  refine ⟨before, after ++ j', by rw [List.append_assoc, List.cons_append], fun d hd => ?_⟩
  exact (List.mem_append.1 hd).elim (ha d) (hs d)

theorem FirstResult.mem (h : FirstResult ends j ticket result) : .registered ticket ∈ j := by
  obtain ⟨before, after, rfl, ha⟩ := h
  exact List.mem_append_left _ ha.mem

/-- A first result stays the first one. -/
theorem FirstResult.append (h : FirstResult ends j ticket result) (j' : List Deed) :
    FirstResult ends (j ++ j') ticket result := by
  obtain ⟨before, after, rfl, ha⟩ := h
  exact ⟨before, after ++ j', by rw [List.append_assoc, List.cons_append], ha⟩

theorem Awaiting.current (h : Awaiting ends j ticket) : Current ends j ticket :=
  h.mono fun _ _ => .inl

theorem Current.newest (h : Current Deed.Removes j ticket) : Newest j ticket :=
  h.mono fun d _ hs => by
    cases d with
    | registered => exact hs
    | _ => cases hs

/-- A current registration that is not in an older part of the journal awaits a signal if there was
none for its job since. -/
theorem Current.awaiting {j' : List Deed} (h : Current ends (j ++ j') ticket)
    (hj : .registered ticket ∉ j) (hs : ∀ result, .signalled ticket.path result ∉ j') :
    Awaiting ends (j ++ j') ticket := by
  obtain ⟨before, after, he, ha⟩ := h
  refine ⟨before, after, he, fun d hd hstop => hstop.elim (ha d hd) fun hsig => ?_⟩
  have hmem : d ∈ j' := by
    rcases List.append_eq_append_iff.1 he with ⟨rest, -, hr⟩ | ⟨rest, hr, ht⟩
    · rw [hr]
      exact List.mem_append_right _ (List.mem_cons_of_mem _ hd)
    · cases rest with
      | nil =>
        rw [← List.nil_append j', ← ht]
        exact List.mem_cons_of_mem _ hd
      | cons d' rest =>
        rw [List.cons_append, List.cons.injEq] at ht
        exact absurd (hr ▸ List.mem_append_right _ (ht.1 ▸ List.mem_cons_self)) hj
  cases d with
  | signalled path result =>
    cases (show path = ticket.path from hsig)
    exact hs result hmem
  | _ => exact hsig

/-! ## Ends that agree -/

/-- Which deeds count as a stop matters only among those that happened. -/
theorem lasting_congr {stops' : Deed → Prop} (hs : ∀ d ∈ j, stops d ↔ stops' d) :
    Lasting stops j ticket ↔ Lasting stops' j ticket := by
  refine exists_congr fun before => exists_congr fun after => and_congr_right fun hj => ?_
  refine forall₂_congr fun d hd => not_congr (hs d ?_)
  exact hj ▸ List.mem_append_right _ (List.mem_cons_of_mem _ hd)

variable {ends' : Ticket → Deed → Prop}

theorem current_congr
    (h : .registered ticket ∈ j → ∀ d ∈ j, ends ticket d ↔ ends' ticket d) :
    Current ends j ticket ↔ Current ends' j ticket :=
  ⟨fun hc => (lasting_congr (h hc.mem)).1 hc, fun hc => (lasting_congr (h hc.mem)).2 hc⟩

theorem awaiting_congr
    (h : .registered ticket ∈ j → ∀ d ∈ j, ends ticket d ↔ ends' ticket d) :
    Awaiting ends j ticket ↔ Awaiting ends' j ticket := by
  have hs := fun hm => fun d hd => or_congr_left (c := d.Signals ticket.path) (h hm d hd)
  exact ⟨fun ha => (lasting_congr (hs ha.mem)).1 ha, fun ha => (lasting_congr (hs ha.mem)).2 ha⟩

theorem firstResult_congr
    (h : .registered ticket ∈ j → ∀ d ∈ j, ends ticket d ↔ ends' ticket d) :
    FirstResult ends j ticket result ↔ FirstResult ends' j ticket result := by
  refine exists_congr fun before => exists_congr fun after => and_congr_right fun hj => ?_
  have hsub : ∀ d ∈ before, d ∈ j := fun d hd => hj ▸ List.mem_append_left _ hd
  exact awaiting_congr fun hm d hd => h (hsub _ hm) d (hsub d hd)

theorem verdict_congr {path : JobPath} {resolution : Resolution}
    (h : ∀ ticket, .registered ticket ∈ j → ∀ d ∈ j, ends ticket d ↔ ends' ticket d) :
    Verdict ends j path resolution ↔ Verdict ends' j path resolution := by
  have hc := fun ticket => current_congr (h ticket)
  have ha := fun ticket => awaiting_congr (h ticket)
  have hf : ∀ ticket r, FirstResult ends j ticket r ↔ FirstResult ends' j ticket r :=
    fun ticket _ => firstResult_congr (h ticket)
  cases resolution with
  | delivered => simp only [Verdict, ha]
  | alreadyResolved => simp only [Verdict, hc, hf]
  | unknown => simp only [Verdict, hc]
  | closed => exact Iff.rfl

end SystemdControl
