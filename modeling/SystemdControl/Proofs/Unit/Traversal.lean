import SystemdControl.Proofs.Unit.Delta

/-!
# Differences in any order

The difference of two inventories is made in two passes, one over the units of the later inventory
and one over the names of the earlier one. Nothing tells in which order they visit them, and nothing
depends on it.

* `UnitDelta.collect` is what the two passes insert, in the orders in which they visit, and
  `UnitDelta.collect_eq_between` says that it is the difference;
* `Snapshot.get?_ofUnits`: the last record of a name is the one that counts;
* `UnitDelta.between_exact` says all that a difference of two listings says.
-/

namespace SystemdControl

/-! ## Listings -/

/-- The record of a unit that counts in a listing: the last one of its name. -/
def UnitStatus.last? (name : String) (units : List UnitStatus) : Option UnitStatus :=
  (units.filter (·.name = name)).getLast?

theorem UnitStatus.name_of_last? {name : String} {u : UnitStatus} {units : List UnitStatus}
    (h : last? name units = some u) : u.name = name := by
  simpa using (List.mem_filter.1 (List.mem_of_getLast? h)).2

/-- Of several records of one unit the last one counts. -/
theorem Snapshot.get?_ofUnits (units : List UnitStatus) (name : String) :
    (Snapshot.ofUnits units).get? name = UnitStatus.last? name units := by
  rw [Snapshot.ofUnits, NameMap.get?_ofList, NameMap.last?, List.filter_map, List.getLast?_map,
    Option.map_map]
  exact Option.map_id'

/-- An inventory is determined by the records that count. -/
theorem Snapshot.ofUnits_congr {xs ys : List UnitStatus}
    (h : ∀ name, UnitStatus.last? name xs = UnitStatus.last? name ys) :
    Snapshot.ofUnits xs = Snapshot.ofUnits ys :=
  NameMap.ext fun name => by rw [get?_ofUnits, get?_ofUnits, h]

/-! ## Two passes -/

namespace UnitDelta

variable {equal : Equality} {previous current : Snapshot} {kept : List (String × UnitStatus)}
  {names : List String}

/-- What one pass over `kept` and another one over `names` insert, one after the other. -/
def collect (equal : Equality) (previous current : Snapshot) (kept : List (String × UnitStatus))
    (names : List String) : UnitDelta :=
  let delta := kept.foldl (fun delta e =>
    match change? equal previous e.2 e.1 with
    | some change => delta.insert e.1 change
    | none => delta) .empty
  names.foldl (fun delta name =>
    if current.contains name then delta else delta.insert name .removed) delta

/-- The changes in the order in which they are inserted. -/
def collected (equal : Equality) (previous current : Snapshot) (kept : List (String × UnitStatus))
    (names : List String) : List (String × UnitChange) :=
  (kept.filterMap fun e => (change? equal previous e.2 e.1).map (e.1, ·)) ++
    (names.filter fun name => !current.contains name).map (·, .removed)

theorem collect_eq_ofList (equal : Equality) (previous current : Snapshot)
    (kept : List (String × UnitStatus)) (names : List String) :
    collect equal previous current kept names =
      .ofList (collected equal previous current kept names) := by
  rw [NameMap.ofList, collected, List.foldl_append, List.foldl_filterMap, List.foldl_map,
    List.foldl_filter]
  unfold collect
  dsimp only
  congr 1
  · funext delta name
    cases current.contains name <;> rfl
  · congr 1
    funext delta e
    cases change? equal previous e.2 e.1 <;> rfl

/-- The two passes give each name one change. -/
theorem collected_unique (hk : kept.Perm current.toList) {name : String} {c c' : UnitChange}
    (h : (name, c) ∈ collected equal previous current kept names)
    (h' : (name, c') ∈ collected equal previous current kept names) : c = c' := by
  have hmem : ∀ c, (name, c) ∈ collected equal previous current kept names →
      (∃ u, current.get? name = some u ∧ change? equal previous u name = some c) ∨
        current.contains name = false ∧ c = .removed := fun c h => by
    rcases List.mem_append.1 h with h | h
    · obtain ⟨e, he, hc⟩ := List.mem_filterMap.1 h
      obtain ⟨_, hc, heq⟩ := Option.map_eq_some_iff.1 hc
      cases heq
      exact .inl ⟨e.2, NameMap.get?_of_mem (hk.mem_iff.1 he), hc⟩
    · obtain ⟨n, hn, heq⟩ := List.mem_map.1 h
      cases heq
      exact .inr ⟨by simpa using (List.mem_filter.1 hn).2, rfl⟩
  rcases hmem c h with ⟨u, hu, hc⟩ | ⟨hgone, rfl⟩ <;>
    rcases hmem c' h' with ⟨u', hu', hc'⟩ | ⟨hgone', rfl⟩
  · rw [hu, Option.some.injEq] at hu'
    rw [← hu', hc] at hc'
    exact Option.some.inj hc'
  · simp [NameMap.contains, hu] at hgone'
  · simp [NameMap.contains, hu'] at hgone
  · rfl

/-- In whatever order the two passes visit the units, they make the same difference. -/
theorem collect_eq_between (hk : kept.Perm current.toList) (hn : names.Perm previous.names) :
    collect equal previous current kept names = between equal previous current := by
  rw [collect_eq_ofList]
  exact NameMap.ofList_perm ((hk.filterMap _).append ((hn.filter _).map _))
    fun _ _ _ => collected_unique hk

/-! ## One unit -/

section
variable {name : String} {u : UnitStatus}

theorem get?_eq_added_iff : (between equal previous current).get? name = some (.added u) ↔
    previous.get? name = none ∧ current.get? name = some u := by
  rw [get?_between]
  cases current.get? name with
  | none => simp
  | some after =>
    cases hp : previous.get? name with
    | none => simp [change?, hp]
    | some before =>
      simp only [change?, hp, reduceCtorEq, false_and, iff_false]
      split_ifs <;> simp

theorem get?_eq_changed_iff : (between equal previous current).get? name = some (.changed u) ↔
    ∃ before, previous.get? name = some before ∧ current.get? name = some u ∧
      equal before u = false := by
  rw [get?_between]
  cases current.get? name with
  | none => simp
  | some after =>
    cases hp : previous.get? name with
    | none => simp [change?, hp]
    | some before =>
      simp only [change?, hp]
      constructor
      · intro h
        split_ifs at h with he
        cases h
        exact ⟨before, rfl, rfl, Bool.eq_false_iff.2 he⟩
      · rintro ⟨_, hb, ha, he⟩
        cases hb
        cases ha
        rw [he, if_neg Bool.false_ne_true]

theorem get?_eq_removed_iff : (between equal previous current).get? name = some .removed ↔
    (∃ before, previous.get? name = some before) ∧ current.get? name = none := by
  rw [get?_between]
  cases current.get? name with
  | none => simp
  | some after =>
    cases hp : previous.get? name with
    | none => simp [change?, hp]
    | some before => cases he : equal before after <;> simp [change?, hp, he]

theorem get?_eq_none_iff : (between equal previous current).get? name = none ↔
    (previous.get? name = none ∧ current.get? name = none) ∨
      ∃ before after, previous.get? name = some before ∧ current.get? name = some after ∧
        equal before after = true := by
  rw [get?_between]
  cases current.get? name with
  | none => simp
  | some after =>
    cases hp : previous.get? name with
    | none => simp [change?, hp]
    | some before => cases he : equal before after <;> simp [change?, hp, he]

end

/-- A difference of two listings says exactly what differs, and nothing of the order in which it was
made.
* A unit was added if only the later listing has it, changed if both have it and its two records do
  not count as equal, removed if only the earlier one has it, and is left out otherwise. Of several
  records of one unit the last one counts.
* Every record is under its name, and the names ascend by their code points.
* In whatever order two passes visit the units of the two inventories, they make this difference.
* Listings in which the same records count have the same difference. -/
theorem between_exact (equal : Equality) (xs ys : List UnitStatus) :
    let previous := Snapshot.ofUnits xs
    let current := Snapshot.ofUnits ys
    let delta := between equal previous current
    (∀ name,
      previous.get? name = UnitStatus.last? name xs ∧
      current.get? name = UnitStatus.last? name ys ∧
      (∀ u, delta.get? name = some (.added u) ↔
        previous.get? name = none ∧ current.get? name = some u) ∧
      (∀ u, delta.get? name = some (.changed u) ↔
        ∃ before, previous.get? name = some before ∧ current.get? name = some u ∧
          equal before u = false) ∧
      (delta.get? name = some .removed ↔
        (∃ before, previous.get? name = some before) ∧ current.get? name = none) ∧
      (delta.get? name = none ↔
        (previous.get? name = none ∧ current.get? name = none) ∨
          ∃ before after, previous.get? name = some before ∧ current.get? name = some after ∧
            equal before after = true)) ∧
    (∀ name change, (name, change) ∈ delta.toList ↔ delta.get? name = some change) ∧
    (∀ name change, (name, change) ∈ delta.toList → ∀ u, change.status? = some u → u.name = name) ∧
    (delta.names.map fun name => name.toList.map Char.toNat).Pairwise (· < ·) ∧
    (∀ kept names, kept.Perm current.toList → names.Perm previous.names →
      collect equal previous current kept names = delta) ∧
    ∀ xs' ys', (∀ name, UnitStatus.last? name xs' = UnitStatus.last? name xs) →
      (∀ name, UnitStatus.last? name ys' = UnitStatus.last? name ys) →
        between equal (Snapshot.ofUnits xs') (Snapshot.ofUnits ys') = delta := by
  intro previous current delta
  refine ⟨fun name => ⟨Snapshot.get?_ofUnits xs name, Snapshot.get?_ofUnits ys name,
    fun u => get?_eq_added_iff, fun u => get?_eq_changed_iff, get?_eq_removed_iff,
    get?_eq_none_iff⟩, fun name change => NameMap.mem_toList_iff, fun name change hc u hu => ?_,
    delta.codePoints_ascending, fun kept names hk hn => collect_eq_between hk hn,
    fun xs' ys' hx hy => ?_⟩
  · -- A change that carries a record carries the one of the later listing.
    replace hc := NameMap.mem_toList_iff.1 hc
    have hcurrent : current.get? name = some u := by
      cases change with
      | added u' => exact Option.some.inj hu ▸ (get?_eq_added_iff.1 hc).2
      | changed u' =>
        obtain ⟨-, -, hu', -⟩ := get?_eq_changed_iff.1 hc
        exact Option.some.inj hu ▸ hu'
      | removed => cases hu
    exact UnitStatus.name_of_last? ((Snapshot.get?_ofUnits ys name).symm.trans hcurrent)
  · rw [Snapshot.ofUnits_congr hx, Snapshot.ofUnits_congr hy]

/-- One unit in each of the four cases, visited from the last name to the first, by a notion of
equal records that is not symmetric: only the record that counts of the first unit had failed
before. -/
theorem between_exact_four :
    let equal : Equality := fun before _ => before.activeState = .failed
    let xs : List UnitStatus := [.named "d" "loaded" "active", .named "a" "loaded" "active",
      .named "b" "loaded" "active", .named "a" "loaded" "failed"]
    let ys : List UnitStatus := [.named "c" "loaded" "active", .named "d" "loaded" "failed",
      .named "a" "loaded" "active"]
    let previous := Snapshot.ofUnits xs
    let current := Snapshot.ofUnits ys
    let delta := collect equal previous current current.toList.reverse previous.names.reverse
    (∀ name, UnitStatus.last? name ys.reverse = UnitStatus.last? name ys) ∧
      delta = between equal previous (Snapshot.ofUnits ys.reverse) ∧
      delta.get? "a" = none ∧ delta.get? "b" = some .removed ∧
      delta.get? "c" = some (.added (.named "c" "loaded" "active")) ∧
      delta.get? "d" = some (.changed (.named "d" "loaded" "failed")) := by
  intro equal xs ys previous current delta
  obtain ⟨hunit, -, -, -, horder, hlisting⟩ := between_exact equal xs ys
  have hreverse : ∀ name, UnitStatus.last? name ys.reverse = UnitStatus.last? name ys := by
    intro name
    by_cases ha : "a" = name
    · exact ha ▸ by decide
    by_cases hc : "c" = name
    · exact hc ▸ by decide
    by_cases hd : "d" = name
    · exact hd ▸ by decide
    simp [ys, UnitStatus.last?, UnitStatus.named, ha, hc, hd]
  have hdelta : delta = between equal previous current :=
    horder _ _ (List.reverse_perm _) (List.reverse_perm _)
  refine ⟨hreverse, hdelta.trans (hlisting xs ys.reverse (fun _ => rfl) hreverse).symm, ?_⟩
  rw [hdelta]
  refine ⟨?_, ?_, ?_, ?_⟩
  · obtain ⟨hp, hc, -, -, -, hnone⟩ := hunit "a"
    exact hnone.2 (.inr ⟨_, _, hp.trans rfl, hc.trans rfl, by decide⟩)
  · obtain ⟨hp, hc, -, -, hremoved, -⟩ := hunit "b"
    exact hremoved.2 ⟨⟨_, hp.trans rfl⟩, hc.trans rfl⟩
  · obtain ⟨hp, hc, hadded, -⟩ := hunit "c"
    exact (hadded _).2 ⟨hp.trans rfl, hc.trans rfl⟩
  · obtain ⟨hp, hc, -, hchanged, -⟩ := hunit "d"
    exact (hchanged _).2 ⟨_, hp.trans rfl, hc.trans rfl, by decide⟩

end UnitDelta

end SystemdControl
