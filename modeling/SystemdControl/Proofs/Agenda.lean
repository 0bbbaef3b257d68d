import SystemdControl.Agenda

/-!
# Agendas that grow and shrink

* `Agenda.toList_prefix_rouseAll`: whoever is roused comes last;
* `Agenda.size_rouse_le`, `Agenda.size_rouseAll_le` and `Agenda.size_dismiss`: how many more or fewer
  can go on;
* `Agenda.Before`: whose turn comes before whose.
-/

namespace SystemdControl.Agenda

variable {α : Type}

theorem size_dismiss (a : Agenda α) : a.dismiss.size = a.size - 1 :=
  List.length_tail

/-- Nobody stands on an agenda whose turn it is not. -/
theorem next?_eq_none_iff (a : Agenda α) : a.next? = none ↔ a.toList = [] :=
  List.head?_eq_none_iff

theorem toList_eq_cons {a : Agenda α} {x : α} (h : a.next? = some x) :
    a.toList = x :: a.dismiss.toList := by
  obtain ⟨rest, hrest⟩ := List.head?_eq_some_iff.1 h
  rw [toList_dismiss, hrest, List.tail_cons]

theorem mem_of_next? {a : Agenda α} {x : α} (h : a.next? = some x) : x ∈ a.toList :=
  List.mem_of_mem_head? h

/-- The turn of `x` comes before that of `y`. -/
def Before (a : Agenda α) (x y : α) : Prop :=
  [x, y].Sublist a.toList

section

variable {a : Agenda α} {x y : α}

theorem Before.mem_left (h : a.Before x y) : x ∈ a.toList :=
  h.subset List.mem_cons_self

theorem Before.of_dismiss (h : a.dismiss.Before x y) : a.Before x y :=
  h.trans (List.tail_sublist _)

/-- Before the one whose turn it is there is nobody. -/
theorem not_before_next? (h : a.next? = some y) : ¬ a.Before x y := fun hb => by
  have hnodup := a.nodup
  rw [Before, toList_eq_cons h] at hb
  rw [toList_eq_cons h, List.nodup_cons] at hnodup
  rcases List.sublist_cons_iff.1 hb with hb | ⟨rest, he, hb⟩
  · exact hnodup.1 (hb.subset (by simp))
  · obtain rfl : [y] = rest := (List.cons.inj he).2
    exact hnodup.1 (hb.subset List.mem_cons_self)

theorem before_of_next? (h : a.next? = some x) (hy : y ∈ a.toList) (hne : y ≠ x) :
    a.Before x y := by
  rw [toList_eq_cons h] at hy
  rw [Before, toList_eq_cons h]
  exact (List.singleton_sublist.2 ((List.mem_cons.1 hy).resolve_left hne)).cons_cons x

end

variable [DecidableEq α]

/-- Whoever could go on keeps its place. -/
theorem toList_prefix_rouseAll (a : Agenda α) (xs : List α) :
    a.toList <+: (a.rouseAll xs).toList := by
  induction xs generalizing a with
  | nil => exact List.prefix_refl _
  | cons x xs ih => exact (toList_prefix_rouse x).trans (ih _)

theorem rouse_of_mem {a : Agenda α} {x : α} (h : x ∈ a.toList) : a.rouse x = a := by
  unfold rouse
  exact dif_pos h

theorem toList_rouse_of_not_mem {a : Agenda α} {x : α} (h : x ∉ a.toList) :
    (a.rouse x).toList = a.toList ++ [x] := by
  unfold rouse
  rw [dif_neg h]

/-- Agendas that are the same as far as some are concerned stay so when someone is roused. -/
theorem filter_rouse_congr {a b : Agenda α} {p : α → Bool}
    (h : a.toList.filter p = b.toList.filter p) (x : α) :
    (a.rouse x).toList.filter p = (b.rouse x).toList.filter p := by
  have hrouse : ∀ a : Agenda α, (a.rouse x).toList.filter p =
      if p x = true ∧ x ∉ a.toList.filter p then a.toList.filter p ++ [x]
      else a.toList.filter p := fun a => by
    by_cases hx : x ∈ a.toList
    · rw [rouse_of_mem hx, if_neg fun hp => hp.2 (List.mem_filter.2 ⟨hx, hp.1⟩)]
    · have hn : x ∉ a.toList.filter p := fun hm => hx (List.mem_filter.1 hm).1
      rw [toList_rouse_of_not_mem hx, List.filter_append, List.filter_cons, List.filter_nil]
      by_cases hp : p x = true <;> simp [hp, hn]
  rw [hrouse, hrouse, h]

theorem filter_rouseAll_congr {a b : Agenda α} {p : α → Bool}
    (h : a.toList.filter p = b.toList.filter p) (xs : List α) :
    (a.rouseAll xs).toList.filter p = (b.rouseAll xs).toList.filter p := by
  induction xs generalizing a b with
  | nil => exact h
  | cons x xs ih => exact ih (filter_rouse_congr h x)

/-- One who could not go on, or came last, comes last. -/
theorem toList_rouse_of_getLast? {a : Agenda α} {x : α}
    (h : x ∈ a.toList → a.toList.getLast? = some x) :
    (a.rouse x).toList = a.toList.filter (· ≠ x) ++ [x] := by
  by_cases hx : x ∈ a.toList
  · obtain ⟨front, hfront⟩ := List.getLast?_eq_some_iff.1 (h hx)
    have hnodup := a.nodup
    rw [hfront, List.nodup_append] at hnodup
    rw [rouse_of_mem hx, hfront, List.filter_append, List.filter_eq_self.2]
    · simp
    · exact fun y hy => decide_eq_true fun he => hnodup.2.2 y hy x (List.mem_singleton_self x) he
  · rw [toList_rouse_of_not_mem hx, List.filter_eq_self.2]
    exact fun y hy => decide_eq_true fun he => hx (he ▸ hy)

/-- Whoever is roused comes behind all others. -/
theorem Before.of_rouse {a : Agenda α} {x y z : α} (h : (a.rouse z).Before x y) :
    a.Before x y ∨ y = z ∧ z ∉ a.toList ∧ x ∈ a.toList := by
  by_cases hz : z ∈ a.toList
  · rw [rouse_of_mem hz] at h
    exact .inl h
  · rw [Before, toList_rouse_of_not_mem hz] at h
    obtain ⟨l, l', hl, hfront, hback⟩ := List.sublist_append_iff.1 h
    match l, l', hl with
    | [], l', hl =>
      obtain rfl : [x, y] = l' := hl
      exact absurd hback.length_le (by simp)
    | [_], l', hl =>
      obtain ⟨rfl, rfl⟩ := List.cons.inj hl
      exact .inr ⟨List.mem_singleton.1 (hback.subset List.mem_cons_self), hz,
        hfront.subset List.mem_cons_self⟩
    | _ :: _ :: l, l', hl =>
      refine .inl (List.Sublist.trans ?_ hfront)
      simp only [List.cons_append, List.cons.injEq] at hl
      obtain ⟨rfl, rfl, -⟩ := hl
      exact (List.nil_sublist l).cons_cons _ |>.cons_cons _

theorem size_rouse_of_not_mem {a : Agenda α} {x : α} (h : x ∉ a.toList) :
    (a.rouse x).size = a.size + 1 := by
  rw [size, size, toList_rouse_of_not_mem h, List.length_append, List.length_singleton]

theorem size_rouse_le (a : Agenda α) (x : α) : (a.rouse x).size ≤ a.size + 1 := by
  by_cases h : x ∈ a.toList
  · rw [rouse_of_mem h]
    exact Nat.le_succ _
  · exact Nat.le_of_eq (size_rouse_of_not_mem h)

theorem size_rouseAll_le (a : Agenda α) (xs : List α) :
    (a.rouseAll xs).size ≤ a.size + xs.length := by
  induction xs generalizing a with
  | nil => exact Nat.le_refl _
  | cons x xs ih =>
    have hx := a.size_rouse_le x
    have hxs : ((a.rouse x).rouseAll xs).size ≤ (a.rouse x).size + xs.length := ih _
    rw [List.length_cons]
    show ((a.rouse x).rouseAll xs).size ≤ _
    omega

end SystemdControl.Agenda
