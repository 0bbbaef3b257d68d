import SystemdControl.Text.NameMap
import SystemdControl.Unit.Status

/-!
# Changes between two inventories

An inventory is a map from unit names to records. The difference of two inventories names every
unit that appeared, changed or vanished, in ascending order of the names.

* `Snapshot.ofUnits` keys a listing by name; of two records of one name the later counts;
* `UnitDelta.between` is the difference, for any notion of equal records;
* `UnitDelta.applyTo` replays a difference on an inventory.
-/

namespace SystemdControl

/-- All units known at one moment, by name. -/
abbrev Snapshot := NameMap UnitStatus

def Snapshot.ofUnits (units : List UnitStatus) : Snapshot :=
  .ofList (units.map fun u => (u.name, u))

/-- How a unit differs between two inventories. -/
inductive UnitChange where
  | added (status : UnitStatus)
  | changed (status : UnitStatus)
  | removed
  deriving DecidableEq

namespace UnitChange

/-- The record that the unit has now. -/
def status? : UnitChange → Option UnitStatus
  | added s | changed s => some s
  | removed => none

def isRemoved : UnitChange → Bool
  | removed => true
  | _ => false

end UnitChange

/-- The units that differ between two inventories, by name. -/
abbrev UnitDelta := NameMap UnitChange

/-- Whether the record of a unit counts as unchanged; the first argument is the earlier one. -/
abbrev Equality := UnitStatus → UnitStatus → Bool

namespace UnitDelta

/-- What becomes of a unit that is in the later inventory. -/
def change? (equal : Equality) (previous : Snapshot) (current : UnitStatus) (name : String) :
    Option UnitChange :=
  match previous.get? name with
  | none => some (.added current)
  | some before => if equal before current then none else some (.changed current)

/-- The changes from one inventory to another. -/
def between (equal : Equality) (previous current : Snapshot) : UnitDelta :=
  let kept := current.toList.filterMap fun (name, status) =>
    (change? equal previous status name).map (name, ·)
  let gone := (previous.names.filter fun name => !current.contains name).map (·, .removed)
  .ofList (kept ++ gone)

/-- The names of the units that vanished. -/
def removedNames (delta : UnitDelta) : List String :=
  (delta.toList.filter (·.2.isRemoved)).map (·.1)

/-- The inventory after one change. -/
def applyChange (inventory : Snapshot) (name : String) : UnitChange → Snapshot
  | .added s | .changed s => inventory.insert name s
  | .removed => inventory.erase name

/-- The inventory after the changes of a difference. -/
def applyTo (delta : UnitDelta) (inventory : Snapshot) : Snapshot :=
  delta.toList.foldl (fun m e => applyChange m e.1 e.2) inventory

end UnitDelta

end SystemdControl
