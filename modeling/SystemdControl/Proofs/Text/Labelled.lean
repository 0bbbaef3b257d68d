import Mathlib.Data.List.Nodup
import Mathlib.Data.List.Perm.Basic
import SystemdControl.Text.Labelled

/-!
# Lists of labelled things as collections

What look-up, replacement and removal do to a list with one thing per label, up to its order.
-/

namespace SystemdControl

/-- Of elements with different keys, a search by key finds the one it is for. -/
theorem find?_key_eq {α β : Type} [DecidableEq β] {key : α → β} {l : List α}
    (h : (l.map key).Nodup) {a : α} (ha : a ∈ l) : l.find? (key · = key a) = some a := by
  cases hf : l.find? (key · = key a) with
  | none => simpa using List.find?_eq_none.1 hf a ha
  | some b =>
    have hb : key b = key a := by simpa using List.find?_some hf
    rw [List.inj_on_of_nodup_map h (List.mem_of_find?_eq_some hf) ha hb]

/-- What a search finds is the first such element, so it is what is erased; and that goes through a
map that the search does not notice. -/
theorem map_erase_of_find? {α β : Type} [DecidableEq α] [DecidableEq β] {f : α → β} {p : α → Bool}
    {q : β → Bool} {l : List α} (hf : ∀ a ∈ l, q (f a) = p a) {a : α} (h : l.find? p = some a) :
    (l.erase a).map f = (l.map f).erase (f a) := by
  have ha : p a = true := List.find?_some h
  have hm : a ∈ l := List.mem_of_find?_eq_some h
  induction l with
  | nil => cases h
  | cons b l ih =>
    by_cases hb : p b = true
    · rw [List.find?_cons_of_pos hb] at h
      cases h
      simp
    · have hne : b ≠ a := by
        rintro rfl
        exact hb ha
      have hne' : f b ≠ f a := fun he =>
        hb (by rw [← hf b List.mem_cons_self, he, hf a hm, ha])
      rw [List.find?_cons_of_neg hb] at h
      rw [List.erase_cons_tail (by simpa using hne), List.map_cons,
        ih (fun c hc => hf c (List.mem_cons_of_mem _ hc)) h (List.mem_of_find?_eq_some h),
        List.map_cons, List.erase_cons_tail (by simpa using hne')]

namespace Labelled

variable {α : Type} {l : Labelled α} {label : String} {a : α}

/-- The labels in use. -/
def labels (l : Labelled α) : List String :=
  l.map (·.1)

theorem get?_cons (e : String × α) (l : Labelled α) (label : String) :
    get? (e :: l) label = if e.1 = label then some e.2 else get? l label := by
  simp only [get?, List.find?_cons]
  by_cases h : e.1 = label <;> simp [h]

theorem remove_cons (e : String × α) (l : Labelled α) (label : String) :
    remove (e :: l) label = if e.1 = label then l else e :: remove l label := by
  simp only [remove, List.eraseP_cons]
  by_cases h : e.1 = label <;> simp [h]

theorem has_eq_isSome_get? (l : Labelled α) (label : String) :
    l.has label = (l.get? label).isSome := by
  rw [get?, Option.isSome_map, List.isSome_find?]
  rfl

@[simp] theorem get?_set_self (l : Labelled α) (label : String) (a : α) :
    get? (set l label a) label = some a := by
  induction l with
  | nil => simp [set, get?_cons]
  | cons e l ih =>
    rw [set]
    split
    · simp [get?_cons]
    · rename_i he
      rw [get?_cons, if_neg he, ih]

theorem get?_set_of_ne {other : String} (l : Labelled α) (a : α) (h : label ≠ other) :
    get? (set l label a) other = get? l other := by
  induction l with
  | nil => simp [set, get?, h]
  | cons e l ih =>
    rw [set]
    split
    · rename_i he
      rw [get?_cons, get?_cons, if_neg h, if_neg (he ▸ h)]
    · rw [get?_cons, get?_cons, ih]

theorem get?_remove_of_ne {other : String} (l : Labelled α) (h : label ≠ other) :
    get? (remove l label) other = get? l other := by
  induction l with
  | nil => rfl
  | cons e l ih =>
    rw [remove_cons]
    split
    · rename_i he
      rw [get?_cons, if_neg (he ▸ h)]
    · rw [get?_cons, get?_cons, ih]

theorem mem_of_get? (h : get? l label = some a) : (label, a) ∈ l := by
  obtain ⟨e, he, rfl⟩ := Option.map_eq_some_iff.1 h
  have hlabel : e.1 = label := by simpa using List.find?_some he
  exact hlabel ▸ List.mem_of_find?_eq_some he

theorem mem_labels_of_get? (h : get? l label = some a) : label ∈ labels l := by
  obtain ⟨e, he, -⟩ := Option.map_eq_some_iff.1 h
  have : e.1 = label := by simpa using List.find?_some he
  exact this ▸ List.mem_map_of_mem (List.mem_of_find?_eq_some he)

theorem get?_of_mem (h : (labels l).Nodup) (hm : (label, a) ∈ l) : get? l label = some a := by
  induction l with
  | nil => cases hm
  | cons e l ih =>
    simp only [labels, List.map_cons, List.nodup_cons] at h
    rw [get?_cons]
    rcases List.mem_cons.1 hm with rfl | hm
    · simp
    · have hlabel : label ∈ l.map (·.1) := List.mem_map_of_mem hm
      have hne : e.1 ≠ label := fun he => h.1 (he.symm ▸ hlabel)
      rw [if_neg hne, ih h.2 hm]

theorem remove_of_get?_eq_none (h : get? l label = none) : remove l label = l := by
  rw [get?, Option.map_eq_none_iff, List.find?_eq_none] at h
  exact List.eraseP_of_forall_not h

/-- What is found can be put in front. -/
theorem perm_of_get? (h : get? l label = some a) : l.Perm ((label, a) :: remove l label) := by
  induction l with
  | nil => cases h
  | cons e l ih =>
    rw [get?_cons] at h
    rw [remove_cons]
    split
    · rename_i he
      rw [if_pos he] at h
      obtain ⟨e₁, e₂⟩ := e
      simp only at he h
      rw [he, Option.some.inj h]
    · rename_i he
      rw [if_neg he] at h
      exact ((ih h).cons e).trans (.swap ..)

theorem set_perm (l : Labelled α) (label : String) (a : α) :
    (set l label a).Perm ((label, a) :: remove l label) := by
  induction l with
  | nil => exact .refl _
  | cons e l ih =>
    rw [set, remove_cons]
    split
    · exact .refl _
    · exact (ih.cons e).trans (.swap ..)

theorem nodup_labels_remove (h : (labels l).Nodup) (label : String) :
    (labels (remove l label)).Nodup :=
  h.sublist (List.eraseP_sublist.map _)

theorem not_mem_labels_remove (h : (labels l).Nodup) (label : String) :
    label ∉ labels (remove l label) := by
  cases hg : get? l label with
  | none =>
    rw [remove_of_get?_eq_none hg]
    rintro hm
    obtain ⟨e, he, hl⟩ := List.mem_map.1 hm
    rw [get?, Option.map_eq_none_iff, List.find?_eq_none] at hg
    exact hg e he (by simpa using hl)
  | some a => exact (List.nodup_cons.1 (((perm_of_get? hg).map _).nodup_iff.1 h)).1

theorem get?_remove_self (h : (labels l).Nodup) (label : String) :
    get? (remove l label) label = none :=
  Option.eq_none_iff_forall_ne_some.2 fun _ hg =>
    not_mem_labels_remove h label (mem_labels_of_get? hg)

/-- Nothing is found after a removal that was not there before. -/
theorem get?_of_get?_remove (h : (labels l).Nodup) {other : String}
    (hg : get? (remove l label) other = some a) : get? l other = some a := by
  by_cases he : label = other
  · rw [he, get?_remove_self h] at hg
    cases hg
  · rwa [get?_remove_of_ne l he] at hg

/-- What is found after a replacement is new, or was there before. -/
theorem get?_of_get?_set {other : String} {b : α} (hg : get? (set l label a) other = some b) :
    (label = other ∧ a = b) ∨ get? l other = some b := by
  by_cases he : label = other
  · rw [he, get?_set_self, Option.some.injEq] at hg
    exact .inl ⟨he, hg⟩
  · rw [get?_set_of_ne l a he] at hg
    exact .inr hg

theorem remove_remove (h : (labels l).Nodup) (label : String) :
    remove (remove l label) label = remove l label :=
  remove_of_get?_eq_none (get?_remove_self h label)

/-- More things behind do not change which thing of a label is the first. -/
theorem get?_append_of_get? (h : get? l label = some a) (l' : Labelled α) :
    get? (l ++ l') label = some a := by
  obtain ⟨e, he, rfl⟩ := Option.map_eq_some_iff.1 h
  rw [get?, List.find?_append, he]
  rfl

theorem get?_map {β : Type} (f : α → β) (l : Labelled α) (label : String) :
    get? (l.map fun e => (e.1, f e.2)) label = (get? l label).map f := by
  rw [get?, get?, List.find?_map, Option.map_map, Option.map_map]
  rfl

theorem map_set {β : Type} (f : α → β) (l : Labelled α) (label : String) (a : α) :
    (set l label a).map (fun e => (e.1, f e.2)) =
      set (l.map fun e => (e.1, f e.2)) label (f a) := by
  induction l with
  | nil => rfl
  | cons e l ih =>
    rw [set, List.map_cons, set]
    split
    · rfl
    · rw [List.map_cons, ih]

theorem map_remove {β : Type} (f : α → β) (l : Labelled α) (label : String) :
    (remove l label).map (fun e => (e.1, f e.2)) = remove (l.map fun e => (e.1, f e.2)) label := by
  induction l with
  | nil => rfl
  | cons e l ih =>
    rw [remove_cons, List.map_cons, remove_cons]
    split
    · rfl
    · rw [List.map_cons, ih]

/-- Sorting by labels leaves the things of one label in their order. -/
theorem filter_mergeSort (l : Labelled α) (label : String) :
    (l.mergeSort fun a b => a.1 ≤ b.1).filter (·.1 = label) = l.filter (·.1 = label) := by
  have hpairwise : (l.filter (·.1 = label)).Pairwise fun a b => decide (a.1 ≤ b.1) = true := by
    refine List.pairwise_of_forall_mem_list fun a ha b hb => decide_eq_true ?_
    have he : a.1 = b.1 :=
      (of_decide_eq_true (List.mem_filter.1 ha).2).trans
        (of_decide_eq_true (List.mem_filter.1 hb).2).symm
    exact he ▸ String.le_refl _
  have hsublist := List.sublist_mergeSort (fun a b c hab hbc => by
    simp only [decide_eq_true_eq] at hab hbc ⊢
    exact String.le_trans hab hbc) (fun a b => by
    simp only [Bool.or_eq_true, decide_eq_true_eq]
    exact String.le_total a.1 b.1) hpairwise List.filter_sublist
  symm
  refine List.Sublist.eq_of_length ?_ ?_
  · have hboth := hsublist.filter (·.1 = label)
    rwa [List.filter_eq_self.2 fun e he => (List.mem_filter.1 he).2] at hboth
  · exact ((List.mergeSort_perm l _).filter _).length_eq.symm

/-- Sorting by labels does not change which thing of a label is the first. -/
theorem get?_mergeSort (l : Labelled α) (label : String) :
    get? (l.mergeSort fun a b => a.1 ≤ b.1) label = get? l label := by
  rw [get?, get?, ← List.head?_filter, filter_mergeSort, List.head?_filter]

theorem nodup_labels_set (h : (labels l).Nodup) (label : String) (a : α) :
    (labels (set l label a)).Nodup := by
  rw [labels, ((set_perm l label a).map _).nodup_iff]
  exact List.nodup_cons.2 ⟨not_mem_labels_remove h label, nodup_labels_remove h label⟩

end Labelled

end SystemdControl
