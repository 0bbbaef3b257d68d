import SystemdControl.Proofs.Unit.Delta

/-!
# Differences apart from jobs

Jobs come and go while their units stay as they are. There are two ways to leave them out of
account: a comparison of records that skips the three job fields, or inventories that are rid of
these fields before they are compared. Both ways tell the same.

* `UnitDelta.between_map`: a difference may be made of images of two inventories, where the images
  of records count as equal exactly if the records do;
* `UnitStatus.sameApartFromJob_iff` and `UnitStatus.eraseJob_eq_iff`: the comparison skips the
  fields that are erased, and no others;
* `UnitDelta.between_apartFromJob` puts the two ways side by side.
-/

namespace SystemdControl

/-! ## Changes of records -/

namespace UnitChange

/-- What happened to a unit, without its record. -/
inductive Kind where
  | added | changed | removed
  deriving DecidableEq

def kind : UnitChange → Kind
  | added _ => .added
  | changed _ => .changed
  | removed => .removed

/-- The change with another record in place of the one that it carries. -/
def mapStatus (f : UnitStatus → UnitStatus) : UnitChange → UnitChange
  | added s => added (f s)
  | changed s => changed (f s)
  | removed => removed

@[simp] theorem kind_mapStatus (f : UnitStatus → UnitStatus) (c : UnitChange) :
    (c.mapStatus f).kind = c.kind := by
  cases c <;> rfl

end UnitChange

namespace UnitDelta

/-- The names of a difference, in its order, and what happened to each. -/
def kinds (delta : UnitDelta) : List (String × UnitChange.Kind) :=
  delta.toList.map fun e => (e.1, e.2.kind)

theorem kinds_map (f : UnitStatus → UnitStatus) (delta : UnitDelta) :
    kinds (delta.map (·.mapStatus f)) = kinds delta := by
  simp [kinds, NameMap.map]

/-- A difference of images carries the images of the records. -/
theorem between_map {f : UnitStatus → UnitStatus} {equal equal' : Equality}
    (h : ∀ a b, equal' (f a) (f b) = equal a b) (previous current : Snapshot) :
    (between equal previous current).map (·.mapStatus f) =
      between equal' (previous.map f) (current.map f) := by
  refine NameMap.ext fun name => ?_
  rw [NameMap.get?_map, get?_between, get?_between, NameMap.get?_map, NameMap.get?_map]
  cases current.get? name with
  | none => cases previous.get? name <;> rfl
  | some after =>
    simp only [Option.map_some, change?, NameMap.get?_map]
    cases previous.get? name with
    | none => rfl
    | some before =>
      simp only [Option.map_some, h]
      split <;> rfl

end UnitDelta

/-! ## Records apart from jobs -/

namespace UnitStatus

variable {a b : UnitStatus}

/-- Two records agree in every field that is not one of a job. -/
structure AgreeApartFromJob (a b : UnitStatus) : Prop where
  name : a.name = b.name
  description : a.description = b.description
  loadState : a.loadState = b.loadState
  activeState : a.activeState = b.activeState
  subState : a.subState = b.subState
  followed : a.followed = b.followed
  unitPath : a.unitPath = b.unitPath

theorem sameApartFromJob_iff : sameApartFromJob a b = true ↔ AgreeApartFromJob a b := by
  simp only [sameApartFromJob, Bool.and_eq_true, beq_iff_eq]
  constructor
  · rintro ⟨⟨⟨⟨⟨⟨hname, hdescription⟩, hload⟩, hactive⟩, hsub⟩, hfollowed⟩, hpath⟩
    exact ⟨hname, hdescription, hload, hactive, hsub, hfollowed, hpath⟩
  · rintro ⟨hname, hdescription, hload, hactive, hsub, hfollowed, hpath⟩
    exact ⟨⟨⟨⟨⟨⟨hname, hdescription⟩, hload⟩, hactive⟩, hsub⟩, hfollowed⟩, hpath⟩

theorem eraseJob_eq_iff : a.eraseJob = b.eraseJob ↔ AgreeApartFromJob a b := by
  simp only [eraseJob, UnitStatus.mk.injEq, and_true]
  constructor
  · rintro ⟨hname, hdescription, hload, hactive, hsub, hfollowed, hpath⟩
    exact ⟨hname, hdescription, hload, hactive, hsub, hfollowed, hpath⟩
  · rintro ⟨hname, hdescription, hload, hactive, hsub, hfollowed, hpath⟩
    exact ⟨hname, hdescription, hload, hactive, hsub, hfollowed, hpath⟩

/-- To skip the job fields is to compare records that have none. -/
theorem structurally_eraseJob (a b : UnitStatus) :
    structurally a.eraseJob b.eraseJob = sameApartFromJob a b := by
  rw [Bool.eq_iff_iff, sameApartFromJob_iff, ← eraseJob_eq_iff]
  exact beq_iff_eq

theorem sameApartFromJob_equivalence : Equivalence fun a b => sameApartFromJob a b = true := by
  have h : ∀ {a b}, sameApartFromJob a b = true ↔ a.eraseJob = b.eraseJob :=
    sameApartFromJob_iff.trans eraseJob_eq_iff.symm
  exact ⟨fun a => h.2 rfl, fun hab => h.2 (h.1 hab).symm,
    fun hab hbc => h.2 ((h.1 hab).trans (h.1 hbc))⟩

end UnitStatus

namespace UnitDelta

open UnitStatus

/-- A difference that skips the job fields is, but for the job fields of the records that it
carries, the difference of the two inventories without jobs. So it has the names and the kinds of
the latter; and a unit of both inventories changes in it exactly if some other field does, for an
equivalence of records. -/
theorem between_apartFromJob (previous current : Snapshot) :
    let delta := between sameApartFromJob previous current
    let erased := between structurally (previous.map eraseJob) (current.map eraseJob)
    delta.map (·.mapStatus eraseJob) = erased ∧
    kinds delta = kinds erased ∧
    (Equivalence fun a b => sameApartFromJob a b = true) ∧
    (∀ a b, sameApartFromJob a b = true ↔ AgreeApartFromJob a b) ∧
    ∀ name before after, previous.get? name = some before → current.get? name = some after →
      (delta.get? name = some (.changed after) ↔ ¬ AgreeApartFromJob before after) ∧
      (delta.get? name = none ↔ AgreeApartFromJob before after) := by
  intro delta erased
  have herased : delta.map (·.mapStatus eraseJob) = erased :=
    between_map structurally_eraseJob previous current
  refine ⟨herased, herased ▸ (kinds_map eraseJob delta).symm, sameApartFromJob_equivalence,
    fun a b => sameApartFromJob_iff, fun name before after hb ha => ?_⟩
  have hget : delta.get? name =
      if sameApartFromJob before after then none else some (.changed after) := by
    rw [get?_between, ha]
    simp only [change?, hb]
  rw [hget, ← sameApartFromJob_iff]
  cases sameApartFromJob before after <;> simp

/-- Two units that got a job; one of them failed as well. -/
theorem between_apartFromJob_two :
    let idle := UnitStatus.named "a" "loaded" "active"
    let failed := UnitStatus.named "b" "loaded" "failed"
    let previous := Snapshot.ofUnits [idle, .named "b" "loaded" "active"]
    let current := Snapshot.ofUnits [idle.withJob 17 "restart", failed.withJob 18 "stop"]
    let delta := between sameApartFromJob previous current
    delta.get? "a" = none ∧ delta.get? "b" = some (.changed (failed.withJob 18 "stop")) ∧
      (between structurally (previous.map eraseJob) (current.map eraseJob)).toList =
        [("b", .changed failed)] := by
  intro idle failed previous current delta
  obtain ⟨herased, -, -, hagree, hunit⟩ := between_apartFromJob previous current
  refine ⟨?_, ?_, ?_⟩
  · obtain ⟨-, hnone⟩ := hunit "a" idle (idle.withJob 17 "restart") (by decide) (by decide)
    exact hnone.2 ((hagree ..).1 (by decide))
  · obtain ⟨hchanged, -⟩ := hunit "b" (.named "b" "loaded" "active") (failed.withJob 18 "stop")
      (by decide) (by decide)
    exact hchanged.2 fun h => absurd h.activeState (by decide)
  · rw [← herased]
    decide

end UnitDelta

end SystemdControl
