import Mathlib.Data.List.Dedup
import Mathlib.Data.List.Induction
import SystemdControl.Proofs.Text.Labelled
import SystemdControl.Proofs.Text.Order
import SystemdControl.Text.NameMap

/-!
# Maps made of entries

A map is made of a list of entries by inserting them one after the other. Of several entries of one
name the last one counts, and nothing else of the list is left in the map: neither the entries that
were replaced nor how the entries of different names stood to each other.

* `NameMap.get?_ofList`: what is found under a name is its last entry, `NameMap.last?`;
* `NameMap.ofList_eq_of_reordered`: entries of different names may change places, and
  `NameMap.Reordered.of_filter_eq` says which lists come of that;
* `NameMap.toList_ofList`: the same map is made at once of the sorted entries.
-/

namespace SystemdControl.NameMap

variable {α β : Type} {name : String} {v : α} {m : NameMap α} {e : String × α}
  {l l₁ l₂ entries : List (String × α)}

/-! ## Entries of a map -/

theorem mem_of_find (h : find name l = some v) : (name, v) ∈ l := by
  induction l with
  | nil => cases h
  | cons e l ih =>
    rw [find] at h
    split at h
    · rename_i he
      rw [Option.some.injEq] at h
      rw [he, ← h]
      exact List.mem_cons_self
    · exact List.mem_cons_of_mem _ (ih h)

theorem find_map (f : α → β) (name : String) (l : List (String × α)) :
    find name (l.map fun e => (e.1, f e.2)) = (find name l).map f := by
  induction l with
  | nil => rfl
  | cons e l ih =>
    rw [List.map_cons, find, find, ih]
    split <;> rfl

theorem get?_map (f : α → β) (m : NameMap α) (name : String) :
    (m.map f).get? name = (m.get? name).map f :=
  find_map f name m.toList

theorem mem_toList_iff : (name, v) ∈ m.toList ↔ m.get? name = some v :=
  ⟨get?_of_mem, mem_of_get?⟩

theorem mem_names_iff : name ∈ m.names ↔ m.contains name = true := by
  rw [names, contains, Option.isSome_iff_exists, List.mem_map]
  constructor
  · rintro ⟨⟨n, v⟩, he, rfl⟩
    exact ⟨v, get?_of_mem he⟩
  · rintro ⟨v, hv⟩
    exact ⟨(name, v), mem_of_get? hv, rfl⟩

theorem names_ascending (m : NameMap α) : m.names.Pairwise (· < ·) :=
  List.pairwise_map.2 m.sorted

theorem nodup_names (m : NameMap α) : m.names.Nodup :=
  m.names_ascending.imp String.ne_of_lt

/-- The names ascend by their code points. -/
theorem codePoints_ascending (m : NameMap α) :
    (m.names.map fun name => name.toList.map Char.toNat).Pairwise (· < ·) := by
  rw [names, List.map_map, List.pairwise_map]
  exact m.sorted.imp fun h => List.map_lt (f := Char.toNat) (fun _ _ hlt => hlt) h

/-! ## What counts of a list of entries -/

/-- The value that counts of a name in a list of entries: the last one. -/
def last? (name : String) (entries : List (String × α)) : Option α :=
  (entries.filter (·.1 = name)).getLast?.map (·.2)

theorem last?_append (name : String) (l₁ l₂ : List (String × α)) :
    last? name (l₁ ++ l₂) = (last? name l₂).or (last? name l₁) := by
  rw [last?, List.filter_append, List.getLast?_append, Option.map_or]
  rfl

theorem last?_singleton (name : String) (e : String × α) :
    last? name [e] = if name = e.1 then some e.2 else none := by
  rw [last?, List.filter_singleton]
  by_cases h : e.1 = name
  · simp [h]
  · simp [h, Ne.symm h]

theorem last?_cons (name : String) (e : String × α) (l : List (String × α)) :
    last? name (e :: l) = (last? name l).or (if name = e.1 then some e.2 else none) := by
  rw [← List.singleton_append, last?_append, last?_singleton]

theorem last?_concat (name : String) (l : List (String × α)) (e : String × α) :
    last? name (l ++ [e]) = if name = e.1 then some e.2 else last? name l := by
  rw [last?_append, last?_singleton]
  split <;> rfl

theorem mem_of_last? (h : last? name l = some v) : (name, v) ∈ l := by
  obtain ⟨e, he, rfl⟩ := Option.map_eq_some_iff.1 h
  obtain ⟨he, hn⟩ := List.mem_filter.1 (List.mem_of_getLast? he)
  rw [← of_decide_eq_true hn]
  exact he

theorem last?_eq_none_iff : last? name l = none ↔ name ∉ l.map Prod.fst := by
  simp only [last?, Option.map_eq_none_iff, List.getLast?_eq_none_iff, List.filter_eq_nil_iff,
    decide_eq_true_eq, List.mem_map, not_exists, not_and]

theorem isSome_last?_iff : (last? name l).isSome = true ↔ name ∈ l.map Prod.fst := by
  rw [Option.isSome_iff_ne_none, ne_eq, last?_eq_none_iff, Decidable.not_not]

/-! ## Maps of lists -/

theorem ofList_concat (entries : List (String × α)) (e : String × α) :
    ofList (entries ++ [e]) = (ofList entries).insert e.1 e.2 := by
  rw [ofList, List.foldl_append]
  rfl

/-- Of several entries of one name the last counts. -/
theorem get?_ofList (entries : List (String × α)) (name : String) :
    (ofList entries).get? name = last? name entries := by
  induction entries using List.reverseRecOn with
  | nil => rfl
  | append_singleton entries e ih => rw [ofList_concat, get?_insert, last?_concat, ih]

/-- Maps are the same exactly if the same entries count. -/
theorem ofList_eq_iff : ofList l₁ = ofList l₂ ↔ ∀ name, last? name l₁ = last? name l₂ := by
  constructor
  · intro h name
    rw [← get?_ofList, h, get?_ofList]
  · intro h
    exact NameMap.ext fun name => by rw [get?_ofList, get?_ofList, h]

/-- Where the entries of a name have one value, that is what is found. -/
theorem get?_ofList_of_mem_iff {o : Option α} (h : ∀ v, (name, v) ∈ l ↔ o = some v) :
    (ofList l).get? name = o := by
  rw [get?_ofList]
  cases hl : last? name l with
  | some v => exact ((h v).1 (mem_of_last? hl)).symm
  | none =>
    refine (Option.eq_none_iff_forall_ne_some.2 fun v hv => last?_eq_none_iff.1 hl ?_).symm
    exact List.mem_map_of_mem (f := Prod.fst) ((h v).2 hv)

/-- Where no name has two values each entry is found. -/
theorem get?_ofList_iff (h : ∀ w, (name, v) ∈ l → (name, w) ∈ l → v = w) :
    (ofList l).get? name = some v ↔ (name, v) ∈ l := by
  constructor
  · intro hv
    rw [get?_ofList] at hv
    exact mem_of_last? hv
  · intro hv
    refine get?_ofList_of_mem_iff fun w => ⟨fun hw => by rw [h w hv hw], fun hw => ?_⟩
    exact Option.some.inj hw ▸ hv

/-- Where no name has two values the entries may be inserted in any order. -/
theorem ofList_perm (hp : l₁.Perm l₂)
    (h : ∀ name v w, (name, v) ∈ l₁ → (name, w) ∈ l₁ → v = w) : ofList l₁ = ofList l₂ :=
  NameMap.ext fun name => Option.ext fun v => by
    have h₂ : ∀ w, (name, v) ∈ l₂ → (name, w) ∈ l₂ → v = w := fun w hv hw =>
      h name v w (hp.mem_iff.2 hv) (hp.mem_iff.2 hw)
    rw [get?_ofList_iff (h name v), get?_ofList_iff h₂, hp.mem_iff]

theorem ofList_toList (m : NameMap α) : ofList m.toList = m :=
  NameMap.ext fun _ => get?_ofList_of_mem_iff fun _ => mem_toList_iff

theorem mem_names_ofList_iff : name ∈ (ofList entries).names ↔ name ∈ entries.map Prod.fst := by
  rw [mem_names_iff, contains, get?_ofList, isSome_last?_iff]

/-- There are as many entries as different names. -/
theorem size_ofList (entries : List (String × α)) :
    (ofList entries).size = (entries.map Prod.fst).dedup.length := by
  have hp : (ofList entries).names.Perm (entries.map Prod.fst).dedup :=
    (List.perm_ext_iff_of_nodup (nodup_names _) (List.nodup_dedup _)).2 fun name => by
      rw [mem_names_ofList_iff, List.mem_dedup]
  rw [← hp.length_eq, names, List.length_map, size]

theorem isEmpty_ofList_iff : (ofList entries).isEmpty = true ↔ entries = [] := by
  rw [isEmpty, List.isEmpty_iff_length_eq_zero]
  show (ofList entries).size = 0 ↔ _
  rw [size_ofList, List.length_eq_zero_iff, List.dedup_eq_nil, List.map_eq_nil_iff]

/-! ## Entries that change places -/

/-- Neighbours of different names changed places, any number of times. -/
inductive Reordered : List (String × α) → List (String × α) → Prop
  | nil : Reordered [] []
  | cons {l₁ l₂ : List (String × α)} (e : String × α) (h : Reordered l₁ l₂) :
      Reordered (e :: l₁) (e :: l₂)
  | swap {e e' : String × α} (h : e.1 ≠ e'.1) (l : List (String × α)) :
      Reordered (e :: e' :: l) (e' :: e :: l)
  | trans {l₁ l₂ l₃ : List (String × α)} (h : Reordered l₁ l₂) (h' : Reordered l₂ l₃) :
      Reordered l₁ l₃

namespace Reordered

theorem refl (l : List (String × α)) : Reordered l l := by
  induction l with
  | nil => exact .nil
  | cons e l ih => exact .cons e ih

/-- The entries of one name stay in their order. -/
theorem filter_eq (h : Reordered l₁ l₂) (name : String) :
    l₁.filter (·.1 = name) = l₂.filter (·.1 = name) := by
  induction h with
  | nil => rfl
  | cons e _ ih => rw [List.filter_cons, List.filter_cons, ih]
  | @swap e e' hne l =>
    by_cases he : e.1 = name
    · have he' : ¬ e'.1 = name := fun he' => hne (he.trans he'.symm)
      simp [he, he']
    · simp [List.filter_cons, he]
  | trans _ _ ih ih' => exact ih.trans ih'

/-- An entry goes behind entries of other names. -/
theorem sink {front : List (String × α)} (h : ∀ x ∈ front, e.1 ≠ x.1) (rest : List (String × α)) :
    Reordered (e :: (front ++ rest)) (front ++ e :: rest) := by
  induction front with
  | nil => exact refl _
  | cons x front ih =>
    obtain ⟨hx, hfront⟩ := List.forall_mem_cons.1 h
    exact .trans (.swap hx _) (.cons x (ih hfront))

/-- Every list in which the entries of each name are in the same order can be reached. -/
theorem of_filter_eq (h : ∀ name, l₁.filter (·.1 = name) = l₂.filter (·.1 = name)) :
    Reordered l₁ l₂ := by
  induction l₁ generalizing l₂ with
  | nil =>
    cases l₂ with
    | nil => exact .nil
    | cons e l₂ => simpa using h e.1
  | cons e l₁ ih =>
    -- The first entry is the first one of its name in the other list, too.
    have he := h e.1
    rw [List.filter_cons_of_pos (by simp)] at he
    obtain ⟨front, rest, rfl, hfront, -, -⟩ := List.filter_eq_cons_iff.1 he.symm
    have hsink : Reordered (e :: (front ++ rest)) (front ++ e :: rest) :=
      sink (fun x hx hex => hfront x hx (decide_eq_true hex.symm)) rest
    refine .trans (.cons e (ih fun name => ?_)) hsink
    have hname := (h name).trans (hsink.filter_eq name).symm
    rw [List.filter_cons, List.filter_cons] at hname
    split at hname
    · exact (List.cons.inj hname).2
    · exact hname

end Reordered

/-- Where entries of different names stand to each other does not matter. -/
theorem ofList_eq_of_reordered (h : Reordered l₁ l₂) : ofList l₁ = ofList l₂ :=
  ofList_eq_iff.2 fun name => by rw [last?, h.filter_eq, last?]

theorem reordered_mergeSort (entries : List (String × α)) :
    Reordered entries (entries.mergeSort fun a b => a.1 ≤ b.1) :=
  .of_filter_eq fun name => (Labelled.filter_mergeSort entries name).symm

/-! ## Maps made at once -/

/-- The list without the entries that are followed by one of the same name. -/
def lastOfEach : List (String × α) → List (String × α)
  | [] => []
  | e :: rest =>
    if rest.head?.map (·.1) = some e.1 then lastOfEach rest else e :: lastOfEach rest

theorem lastOfEach_sublist (l : List (String × α)) : (lastOfEach l).Sublist l := by
  induction l with
  | nil => exact .slnil
  | cons e rest ih =>
    rw [lastOfEach]
    split
    · exact ih.cons e
    · exact ih.cons_cons e

/-- In a sorted list an entry comes before all others unless the next one has its name. -/
theorem lt_of_head?_ne (h : (e :: l).Pairwise fun a b => a.1 ≤ b.1)
    (hne : l.head?.map (·.1) ≠ some e.1) : ∀ x ∈ l, e.1 < x.1 := by
  obtain ⟨hle, hl⟩ := List.pairwise_cons.1 h
  cases l with
  | nil => simp
  | cons e' rest =>
    have hlt : e.1 < e'.1 := Decidable.byContradiction fun hn => by
      have he := String.le_antisymm (hle e' List.mem_cons_self) (String.not_lt.1 hn)
      exact hne (congrArg some he.symm)
    refine List.forall_mem_cons.2 ⟨hlt, fun x hx => Decidable.byContradiction fun hn => ?_⟩
    exact String.le_trans ((List.pairwise_cons.1 hl).1 x hx) (String.not_lt.1 hn) hlt

theorem lastOfEach_ascending (h : l.Pairwise fun a b => a.1 ≤ b.1) :
    (lastOfEach l).Pairwise fun a b => a.1 < b.1 := by
  induction l with
  | nil => exact .nil
  | cons e rest ih =>
    have hrest := ih (List.pairwise_cons.1 h).2
    rw [lastOfEach]
    split
    · exact hrest
    · rename_i hne
      exact List.pairwise_cons.2
        ⟨fun x hx => lt_of_head?_ne h hne x ((lastOfEach_sublist rest).mem hx), hrest⟩

theorem find_lastOfEach (h : l.Pairwise fun a b => a.1 ≤ b.1) (name : String) :
    find name (lastOfEach l) = last? name l := by
  induction l with
  | nil => rfl
  | cons e rest ih =>
    have hrest := ih (List.pairwise_cons.1 h).2
    rw [lastOfEach, last?_cons]
    split
    · -- The next entry has the same name, so it is not this one that counts.
      rename_i he
      rw [hrest]
      split
      · rename_i hn
        obtain ⟨x, hx, hxe⟩ := Option.map_eq_some_iff.1 he
        rw [Option.or_of_isSome]
        exact isSome_last?_iff.2 (List.mem_map.2 ⟨x, List.mem_of_head? hx, hxe.trans hn.symm⟩)
      · rw [Option.or_none]
    · rename_i hne
      rw [find, hrest]
      split
      · rename_i hn
        have hnone : last? name rest = none := last?_eq_none_iff.2 fun hm => by
          obtain ⟨x, hx, hxe⟩ := List.mem_map.1 hm
          exact String.ne_of_lt (lt_of_head?_ne h hne x hx) (hn.symm.trans hxe.symm)
        rw [hnone, Option.none_or]
      · rw [Option.or_none]

/-- The entries are sorted by name, those of one name staying in their order, and of each name the
last one is kept. -/
theorem toList_ofList (entries : List (String × α)) :
    (ofList entries).toList = lastOfEach (entries.mergeSort fun a b => a.1 ≤ b.1) := by
  have hsorted : (entries.mergeSort fun a b => a.1 ≤ b.1).Pairwise fun a b => a.1 ≤ b.1 := by
    refine (List.pairwise_mergeSort ?_ ?_ entries).imp fun h => of_decide_eq_true h
    · intro a b c hab hbc
      exact decide_eq_true (String.le_trans (of_decide_eq_true hab) (of_decide_eq_true hbc))
    · intro a b
      simpa using String.le_total a.1 b.1
  have hmap : ofList entries = ⟨_, lastOfEach_ascending hsorted⟩ := NameMap.ext fun name => by
    rw [ofList_eq_of_reordered (reordered_mergeSort entries), get?_ofList, get?,
      find_lastOfEach hsorted]
  rw [hmap]

end SystemdControl.NameMap
