import SystemdControl.Proofs.Text.NameMap
import SystemdControl.Unit.Delta

/-!
# Differences made of entries

A difference can be put together from any list of names and changes. It is then read in the order of
the names, each name once, with the change that was listed last for it; and whichever way it is
read, by name, by number, by what is gone or from end to end, it tells the same changes.

* `UnitDelta.mem_removedNames_iff`: the names that are read as gone are those with a removal;
* `UnitDelta.ofList_keeps_last` says what a difference tells of the entries that it was made of.
-/

namespace SystemdControl

theorem UnitChange.isRemoved_iff {change : UnitChange} :
    change.isRemoved = true ↔ change = .removed := by
  cases change <;> simp [isRemoved]

theorem UnitChange.status?_eq_none_iff {change : UnitChange} :
    change.status? = none ↔ change = .removed := by
  cases change <;> simp [status?]

namespace UnitDelta

variable {delta : UnitDelta} {name : String} {change : UnitChange}

theorem mem_removedNames_iff : name ∈ delta.removedNames ↔ delta.get? name = some .removed := by
  simp only [removedNames, List.mem_map, List.mem_filter, Prod.exists, exists_and_right,
    exists_eq_right, UnitChange.isRemoved_iff, NameMap.mem_toList_iff]

theorem removedNames_ascending (delta : UnitDelta) : delta.removedNames.Pairwise (· < ·) :=
  delta.names_ascending.sublist (List.filter_sublist.map _)

/-- A change carries no record exactly if its unit is read as gone. -/
theorem status?_eq_none_iff (h : (name, change) ∈ delta.toList) :
    change.status? = none ↔ name ∈ delta.removedNames := by
  rw [UnitChange.status?_eq_none_iff, mem_removedNames_iff, NameMap.mem_toList_iff.1 h,
    Option.some.injEq]

/-- A difference is made of any names and changes, in any order.
* It is read in ascending order of the names, by their bytes as by their code points, and each name
  that was listed comes once, with the change that was listed last for it.
* What is found under a name is this change, and nothing if the name was not listed.
* Its size is the number of different names, and it is empty only if nothing was listed.
* The names read as gone are, in ascending order, those whose last change is a removal, and only
  their changes carry no record.
* Made once more of what is read it is the same, and also if entries of different names change
  places before it is made.
* It is what the sorted entries leave when of each name the last one is kept. -/
theorem ofList_keeps_last (entries : List (String × UnitChange)) :
    let delta : UnitDelta := .ofList entries
    (delta.names.map Utf8.bytes).Pairwise (· < ·) ∧
    (delta.names.map fun name => name.toList.map Char.toNat).Pairwise (· < ·) ∧
    delta.names.Nodup ∧
    (∀ name, name ∈ delta.names ↔ name ∈ entries.map Prod.fst) ∧
    (∀ name change,
      (name, change) ∈ delta.toList ↔ NameMap.last? name entries = some change) ∧
    (∀ name, delta.get? name = NameMap.last? name entries ∧
      (delta.get? name = none ↔ name ∉ entries.map Prod.fst)) ∧
    delta.size = (entries.map Prod.fst).dedup.length ∧
    (delta.isEmpty = true ↔ entries = []) ∧
    (delta.removedNames.map Utf8.bytes).Pairwise (· < ·) ∧
    (∀ name, name ∈ delta.removedNames ↔ NameMap.last? name entries = some .removed) ∧
    (∀ name change, (name, change) ∈ delta.toList →
      (change.status? = none ↔ name ∈ delta.removedNames)) ∧
    NameMap.ofList delta.toList = delta ∧
    (∀ entries', NameMap.Reordered entries entries' → NameMap.ofList entries' = delta) ∧
    delta.toList = NameMap.lastOfEach (entries.mergeSort fun a b => a.1 ≤ b.1) := by
  intro delta
  have hget : ∀ name, delta.get? name = NameMap.last? name entries :=
    NameMap.get?_ofList entries
  refine ⟨Utf8.pairwise_map_bytes.2 delta.names_ascending, delta.codePoints_ascending,
    delta.nodup_names, fun name => NameMap.mem_names_ofList_iff, fun name change => ?_,
    fun name => ⟨hget name, ?_⟩, NameMap.size_ofList entries, NameMap.isEmpty_ofList_iff,
    Utf8.pairwise_map_bytes.2 delta.removedNames_ascending, fun name => ?_,
    fun name change => status?_eq_none_iff, NameMap.ofList_toList delta,
    fun entries' h => (NameMap.ofList_eq_of_reordered h).symm, NameMap.toList_ofList entries⟩
  · rw [NameMap.mem_toList_iff, hget]
  · rw [hget, NameMap.last?_eq_none_iff]
  · rw [mem_removedNames_iff, hget]

/-- Two names that are listed more than once and change places; the one that is later by its code
points is earlier by its UTF-16 units. -/
theorem ofList_keeps_last_two_names :
    let up : UnitChange := .added (.named "😀" "loaded" "active")
    let entries : List (String × UnitChange) :=
      [("😀", up), ("\uff5a", up), ("😀", .removed), ("\uff5a", .removed), ("\uff5a", up)]
    let entries' : List (String × UnitChange) :=
      [("\uff5a", up), ("😀", up), ("\uff5a", .removed), ("😀", .removed), ("\uff5a", up)]
    let delta : UnitDelta := .ofList entries
    NameMap.Reordered entries entries' ∧ NameMap.ofList entries' = delta ∧
      delta.toList = [("\uff5a", up), ("😀", .removed)] ∧ delta.size = 2 ∧
      ("😀", UnitChange.removed) ∈ delta.toList ∧ "😀" ∈ delta.removedNames := by
  intro up entries entries' delta
  have hreordered : NameMap.Reordered entries entries' :=
    .trans (.swap (by decide) _) (.cons _ (.cons _ (.swap (by decide) _)))
  obtain ⟨-, -, -, -, hmem, -, hsize, -, -, -, hgone, -, hmade, -⟩ :=
    ofList_keeps_last entries
  have hlast : ("😀", UnitChange.removed) ∈ delta.toList := (hmem _ _).2 (by decide +kernel)
  exact ⟨hreordered, hmade entries' hreordered, by decide +kernel,
    hsize.trans (by decide +kernel), hlast, (hgone _ _ hlast).1 rfl⟩

end UnitDelta

end SystemdControl
