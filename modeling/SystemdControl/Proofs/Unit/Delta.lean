import SystemdControl.Options
import SystemdControl.Proofs.Text.NameMap

/-!
# Differences unit by unit

What a difference of two inventories says of one unit (`UnitDelta.get?_between`), and what becomes
of one unit when a difference is replayed (`UnitDelta.get?_applyTo`). The rest follows from these
two:

* a difference is replayed on any inventory with the names that it starts from, not only on the one
  it was made of: its additions are then new, its changes and removals are not
  (`SameNames.change_iff`), and the names afterwards are those of the later inventory
  (`SameNames.applyTo`);
* if the notion of equal records is a preorder, so is what replay keeps: each record is one that
  counts as the later one (`Agrees.applyTo`).
-/

namespace SystemdControl

namespace UnitDelta

variable {equal : Equality} {previous current : Snapshot} {name : String}

/-! ## One unit -/

/-- What the difference of two inventories says of a unit. -/
theorem get?_between (equal : Equality) (previous current : Snapshot) (name : String) :
    (between equal previous current).get? name =
      match current.get? name with
      | some status => UnitDelta.change? equal previous status name
      | none => (previous.get? name).map fun _ => .removed := by
  refine NameMap.get?_ofList_of_mem_iff fun c => ?_
  simp only [List.mem_append, List.mem_filterMap, List.mem_map, List.mem_filter, Prod.exists,
    Option.map_eq_some_iff, Prod.mk.injEq, NameMap.mem_toList_iff, NameMap.mem_names_iff,
    NameMap.contains, Bool.not_eq_eq_eq_not, Bool.not_true, Option.isSome_eq_false_iff,
    Option.isNone_iff_eq_none]
  cases hc : current.get? name with
  | some status =>
    constructor
    · rintro (⟨n, st, hg, c', hch, rfl, rfl⟩ | ⟨n, ⟨-, hn⟩, rfl, -⟩)
      · rw [hc, Option.some.injEq] at hg
        exact hg ▸ hch
      · rw [hc] at hn
        cases hn
    · exact fun hch => .inl ⟨name, status, hc, c, hch, rfl, rfl⟩
  | none =>
    show _ ↔ (previous.get? name).map _ = some c
    rw [Option.map_eq_some_iff]
    constructor
    · rintro (⟨n, st, hg, c', -, rfl, -⟩ | ⟨n, ⟨hp, -⟩, rfl, rfl⟩)
      · rw [hc] at hg
        cases hg
      · obtain ⟨before, hb⟩ := Option.isSome_iff_exists.1 hp
        exact ⟨before, hb, rfl⟩
    · rintro ⟨before, hb, rfl⟩
      exact .inr ⟨name, ⟨by rw [hb]; rfl, hc⟩, rfl, rfl⟩

theorem get?_applyChange (m : Snapshot) (k : String) (c : UnitChange) (name : String) :
    (applyChange m k c).get? name = if name = k then c.status? else m.get? name := by
  cases c with
  | added | changed => exact NameMap.get?_insert ..
  | removed => exact NameMap.get?_erase ..

/-- What becomes of a unit when a difference is replayed. -/
theorem get?_applyTo (delta : UnitDelta) (m : Snapshot) (name : String) :
    (delta.applyTo m).get? name =
      match delta.get? name with
      | some c => c.status?
      | none => m.get? name := by
  have hl : ∀ l : List (String × UnitChange), l.Pairwise (fun a b => a.1 < b.1) → ∀ m : Snapshot,
      (l.foldl (fun m e => applyChange m e.1 e.2) m).get? name =
        match NameMap.find name l with
        | some c => c.status?
        | none => m.get? name := by
    intro l hs
    induction l with
    | nil => exact fun m => rfl
    | cons e l ih =>
      obtain ⟨he, hs⟩ := List.pairwise_cons.1 hs
      intro m
      rw [List.foldl_cons, ih hs, get?_applyChange]
      simp only [NameMap.find]
      split_ifs with hn
      · -- The name comes only once in a difference.
        have hnone : NameMap.find name l = none := by
          refine Option.eq_none_iff_forall_ne_some.2 fun c hc => ?_
          exact String.lt_irrefl name (by simpa [hn] using he _ (NameMap.mem_of_find hc))
        rw [hnone]
      · rfl
  exact hl delta.toList delta.sorted m

end UnitDelta

/-! ## Replay on an inventory with the same names -/

/-- Two inventories of the same units. -/
def SameNames (m s : Snapshot) : Prop :=
  ∀ name, m.contains name = s.contains name

/-- What one inventory has of a unit counts as equal to what the other one has. -/
def Agrees (equal : Equality) (m s : Snapshot) : Prop :=
  ∀ name before after, m.get? name = some before → s.get? name = some after →
    equal before after = true

open UnitDelta

variable {equal : Equality} {m previous current : Snapshot} {name : String}

/-- Exactly the additions of a difference are of units that are not there. -/
theorem SameNames.change_iff (h : SameNames m previous) {c : UnitChange}
    (hd : (between equal previous current).get? name = some c) :
    (∃ status, c = .added status) ↔ m.contains name = false := by
  rw [h name, NameMap.contains]
  rw [get?_between] at hd
  cases hc : current.get? name with
  | none =>
    simp only [hc, Option.map_eq_some_iff] at hd
    obtain ⟨before, hb, rfl⟩ := hd
    simp [hb]
  | some status =>
    simp only [hc, UnitDelta.change?] at hd
    cases hp : previous.get? name with
    | none =>
      simp only [hp, Option.some.injEq] at hd
      simp [← hd]
    | some before =>
      simp only [hp] at hd
      split_ifs at hd
      simp only [Option.some.injEq] at hd
      simp [← hd]

theorem SameNames.applyTo (h : SameNames m previous) :
    SameNames ((between equal previous current).applyTo m) current := by
  intro name
  have hn := h name
  simp only [NameMap.contains] at hn ⊢
  rw [get?_applyTo, get?_between]
  cases hc : current.get? name with
  | none =>
    cases hp : previous.get? name with
    | none => simpa [hp] using hn
    | some before => rfl
  | some status =>
    simp only [UnitDelta.change?]
    cases hp : previous.get? name with
    | none => rfl
    | some before =>
      simp only
      split_ifs
      · simpa [hp] using hn
      · rfl

theorem Agrees.applyTo (h : Agrees equal m previous)
    (hr : ∀ u, equal u u = true)
    (ht : ∀ u v w, equal u v = true → equal v w = true → equal u w = true) :
    Agrees equal ((between equal previous current).applyTo m) current := by
  intro name before after hb ha
  rw [get?_applyTo, get?_between] at hb
  simp only [ha, UnitDelta.change?] at hb
  cases hp : previous.get? name with
  | none =>
    simp only [hp, UnitChange.status?, Option.some.injEq] at hb
    exact hb ▸ hr after
  | some old =>
    simp only [hp] at hb
    split_ifs at hb with he
    · exact ht before old after (h name before old hb hp) he
    · simp only [UnitChange.status?, Option.some.injEq] at hb
      exact hb ▸ hr after

/-- Inventories of the same units whose records are the same are the same. -/
theorem SameNames.eq_of_agrees (hn : SameNames m current) (h : Agrees structurally m current) :
    m = current := by
  refine NameMap.ext fun name => ?_
  have hc := hn name
  simp only [NameMap.contains] at hc
  cases hb : m.get? name with
  | none =>
    rw [hb] at hc
    exact (Option.isSome_eq_false_iff.1 hc.symm |> Option.isNone_iff_eq_none.1).symm
  | some before =>
    rw [hb] at hc
    obtain ⟨after, ha⟩ := Option.isSome_iff_exists.1 hc.symm
    rw [ha, eq_of_beq (h name before after hb ha)]

end SystemdControl
